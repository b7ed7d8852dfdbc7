/-
  OVERLAYS — what a list of writes leaves behind.

  A write puts values at some places and leaves all others alone, so it is a partial function from
  places to values: `f b i` is what write `b` puts at `i`, if anything.  Writes made one after the
  other hide each other, and the last one to reach a place is the one that counts: that is
  `overlay f l`.

  The order matters exactly where two writes meet.  If no two of them do, every write shows in full
  (`overlay_of_mem`) and the order is of no account (`overlay_perm`).
-/
import Mathlib.Data.List.Basic

namespace Vestigium.Overlay

variable {β ι κ : Type} {f : β → ι → Option κ}

/-- What is at place `i` after the writes of `l`, in order: the last that reaches it. -/
def overlay (f : β → ι → Option κ) (l : List β) (i : ι) : Option κ := l.reverse.findSome? (f · i)

/-- No place is reached by both writes. -/
def Apart (f : β → ι → Option κ) (b b' : β) : Prop := ∀ i, f b i = none ∨ f b' i = none

theorem Apart.symm {b b' : β} (h : Apart f b b') : Apart f b' b := fun i => (h i).symm

@[simp] theorem overlay_nil (i : ι) : overlay f [] i = none := rfl

/-- A write in front of others shows where none of them reaches. -/
theorem overlay_cons (b : β) (l : List β) (i : ι) :
    overlay f (b :: l) i = (overlay f l i).or (f b i) := by
  rw [overlay, List.reverse_cons, List.findSome?_append, List.findSome?_singleton, overlay]

theorem overlay_map {γ : Type} (g : γ → β) (l : List γ) :
    overlay f (l.map g) = overlay (fun c => f (g c)) l := by
  funext i
  rw [overlay, ← List.map_reverse, List.findSome?_map]
  rfl

theorem overlay_eq_none_iff {l : List β} {i : ι} : overlay f l i = none ↔ ∀ b ∈ l, f b i = none := by
  rw [overlay, List.findSome?_eq_none_iff]
  simp only [List.mem_reverse]

/-- **The last writer wins**: what is there comes from a write after which no other reaches the
    place. -/
theorem overlay_eq_some_iff {l : List β} {i : ι} {v : κ} : overlay f l i = some v ↔
    ∃ l₁ b l₂, l = l₁ ++ b :: l₂ ∧ f b i = some v ∧ ∀ b' ∈ l₂, f b' i = none := by
  rw [overlay, List.findSome?_eq_some_iff]
  constructor
  · rintro ⟨l₂, b, l₁, hl, hb, hnone⟩
    refine ⟨l₁.reverse, b, l₂.reverse, ?_, hb, fun b' hb' => hnone b' (List.mem_reverse.mp hb')⟩
    rw [← List.reverse_reverse l, hl]
    simp
  · rintro ⟨l₁, b, l₂, rfl, hb, hnone⟩
    refine ⟨l₂.reverse, b, l₁.reverse, by simp, hb, fun b' hb' => hnone b' (List.mem_reverse.mp hb')⟩

/-- Where a write reaches a place iff `p` says so, the last such write is what to look for. -/
theorem overlay_eq_find? {p : β → ι → Bool} {g : β → ι → Option κ}
    (hf : ∀ b i, f b i = if p b i then g b i else none) {l : List β}
    (hg : ∀ b ∈ l, ∀ i, p b i = true → (g b i).isSome = true) (i : ι) :
    overlay f l i = (l.reverse.find? (p · i)).bind (g · i) := by
  induction l with
  | nil => rfl
  | cons b l ih =>
    rw [overlay_cons, ih fun b' hb' => hg b' (List.mem_cons_of_mem b hb'), List.reverse_cons,
      List.find?_append]
    cases h : l.reverse.find? (p · i) with
    | some b' =>
      -- a later write reaches `i`, and hides `b`
      have hmem : b' ∈ l := List.mem_reverse.mp (List.mem_of_find?_eq_some h)
      have hp : p b' i = true := List.find?_some (p := (p · i)) h
      obtain ⟨v, hv⟩ := Option.isSome_iff_exists.mp (hg b' (List.mem_cons_of_mem b hmem) i hp)
      rw [Option.some_or, Option.bind_some, hv, Option.some_or]
    | none =>
      rw [Option.none_or, Option.bind_none, Option.none_or, hf, List.find?_singleton]
      cases p b i <;> rfl

/-! ## Writes that keep apart -/

theorem overlay_of_mem {l : List β} (hl : l.Pairwise (Apart f)) {b : β} (hb : b ∈ l) {i : ι} {v : κ}
    (hv : f b i = some v) : overlay f l i = some v := by
  obtain ⟨l₁, l₂, rfl⟩ := List.append_of_mem hb
  refine overlay_eq_some_iff.mpr ⟨l₁, b, l₂, rfl, hv, fun b' hb' => ?_⟩
  rcases List.rel_of_pairwise_cons (List.pairwise_append.mp hl).2.1 hb' i with h | h
  · rw [hv] at h
    nomatch h
  · exact h

/-- **Without overlaps the order does not matter.** -/
theorem overlay_perm {l l' : List β} (hperm : l.Perm l') (hl : l.Pairwise (Apart f)) :
    overlay f l = overlay f l' := by
  funext i
  have hl' : l'.Pairwise (Apart f) := hperm.pairwise hl Apart.symm
  cases h : overlay f l i with
  | none =>
    rw [overlay_eq_none_iff] at h
    exact (overlay_eq_none_iff.mpr fun b hb => h b (hperm.mem_iff.mpr hb)).symm
  | some v =>
    obtain ⟨l₁, b, l₂, rfl, hb, -⟩ := overlay_eq_some_iff.mp h
    exact (overlay_of_mem hl' (hperm.mem_iff.mp (by simp)) hb).symm

end Vestigium.Overlay

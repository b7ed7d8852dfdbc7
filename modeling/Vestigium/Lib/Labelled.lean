/-
  LABELLED STEPS — systems whose every step bears a label.

  `Path step s as t` says that the steps labelled `as` lead from `s` to `t`.  The labels are what a
  log of such a run contains, so the questions one has about logs are questions about paths:

  * where does the beginning of a log lead?  To where the run has come through
    (`Path.append_iff`);
  * what can stand in a log?  What a step can bear (`Path.labels`);
  * what do two systems that follow one log have in common?  What every step keeps
    (`Path.simulate`).

  `Admits ok as` speaks of logs whose entries are restricted by their position in the log.
-/
import Mathlib.Data.List.Infix

namespace Vestigium.Labelled

variable {σ τ α : Type}

/-- From `s` to `t` by the steps labelled `as`. -/
inductive Path (step : σ → α → σ → Prop) : σ → List α → σ → Prop
  | nil (s : σ) : Path step s [] s
  | cons {s u t : σ} {a : α} {as : List α} :
      step s a u → Path step u as t → Path step s (a :: as) t

/-- A state and a label determine the next state. -/
def Deterministic (step : σ → α → σ → Prop) : Prop :=
  ∀ s a t t', step s a t → step s a t' → t = t'

namespace Path

variable {step : σ → α → σ → Prop} {step' : τ → α → τ → Prop}

@[simp] theorem nil_iff {s t : σ} : Path step s [] t ↔ s = t := by
  constructor
  · intro h
    cases h
    rfl
  · rintro rfl
    exact .nil s

theorem cons_iff {s t : σ} {a : α} {as : List α} :
    Path step s (a :: as) t ↔ ∃ u, step s a u ∧ Path step u as t := by
  constructor
  · intro h
    cases h with
    | cons hstep hrest => exact ⟨_, hstep, hrest⟩
  · rintro ⟨u, hstep, hrest⟩
    exact .cons hstep hrest

/-- A path splits where its labels do. -/
theorem append_iff {s t : σ} {as bs : List α} :
    Path step s (as ++ bs) t ↔ ∃ u, Path step s as u ∧ Path step u bs t := by
  induction as generalizing s with
  | nil => simp
  | cons a as ih =>
    rw [List.cons_append, cons_iff]
    constructor
    · rintro ⟨u, hstep, hrest⟩
      obtain ⟨v, has, hbs⟩ := ih.mp hrest
      exact ⟨v, .cons hstep has, hbs⟩
    · rintro ⟨v, has, hbs⟩
      obtain ⟨u, hstep, hrest⟩ := cons_iff.mp has
      exact ⟨u, hstep, ih.mpr ⟨v, hrest, hbs⟩⟩

/-- The last step split off. -/
theorem concat_iff {s t : σ} {as : List α} {a : α} :
    Path step s (as ++ [a]) t ↔ ∃ u, Path step s as u ∧ step u a t := by
  rw [append_iff]
  constructor
  · rintro ⟨u, has, ha⟩
    obtain ⟨v, hstep, hnil⟩ := cons_iff.mp ha
    obtain rfl := nil_iff.mp hnil
    exact ⟨u, has, hstep⟩
  · rintro ⟨u, has, hstep⟩
    exact ⟨u, has, .cons hstep (.nil t)⟩

/-- What holds of the label of every step holds of every label. -/
theorem labels {Q : α → Prop} (hstep : ∀ s a t, step s a t → Q a) {s t : σ} {as : List α}
    (h : Path step s as t) : ∀ a ∈ as, Q a := by
  induction h with
  | nil s =>
    intro a ha
    cases ha
  | cons h _ ih => exact List.forall_mem_cons.mpr ⟨hstep _ _ _ h, ih⟩

/-- **Forward simulation**: if every step of the one system is a step of the other under the same
    label, out of related states into related states, then so is every path. -/
theorem simulate {R : σ → τ → Prop}
    (hstep : ∀ s x a t, R s x → step s a t → ∃ y, step' x a y ∧ R t y) {s t : σ} {x : τ}
    {as : List α} (hR : R s x) (h : Path step s as t) : ∃ y, Path step' x as y ∧ R t y := by
  induction h generalizing x with
  | nil s => exact ⟨x, .nil x, hR⟩
  | cons h _ ih =>
    obtain ⟨y, hy, hR'⟩ := hstep _ _ _ _ hR h
    obtain ⟨z, hz, hR''⟩ := ih hR'
    exact ⟨z, .cons hy hz, hR''⟩

end Path

/-! ## Labels by position -/

/-- Every label is one that `ok` admits at its position. -/
def Admits (ok : Nat → α → Prop) (as : List α) : Prop := ∀ k a, as[k]? = some a → ok k a

theorem admits_nil (ok : Nat → α → Prop) : Admits ok [] := by
  intro k a h
  cases h

theorem admits_concat {ok : Nat → α → Prop} {as : List α} {a : α} :
    Admits ok (as ++ [a]) ↔ Admits ok as ∧ ok as.length a := by
  constructor
  · intro h
    refine ⟨fun k b hb => h k b ?_, h as.length a List.getElem?_concat_length⟩
    rw [List.getElem?_append_left (List.getElem?_eq_some_iff.mp hb).1, hb]
  · rintro ⟨has, ha⟩ k b hb
    rcases Nat.lt_or_ge k as.length with hk | hk
    · exact has k b (by rwa [List.getElem?_append_left hk] at hb)
    · -- the last label
      rw [List.getElem?_append_right hk] at hb
      have hlt := (List.getElem?_eq_some_iff.mp hb).1
      rw [List.length_singleton] at hlt
      obtain rfl : k = as.length := by omega
      rw [Nat.sub_self] at hb
      cases hb
      exact ha

end Vestigium.Labelled

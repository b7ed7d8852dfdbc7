/-
  HASH MAPS — finite maps whose iteration order is unspecified.

  The map itself is Mathlib's `Finmap`, where two maps with the same entries are EQUAL.  What an
  iteration sees is a list that `Lists` the map: its entries, each once, in an order nobody promises.
  A program that iterates is modelled by a function of such a list, and "whatever the order" is a
  quantifier over it.

  Three ways in which an order can be forgotten again:

  * `collect_of_lists` — inserting the listed entries one by one rebuilds the map;
  * `Lists.mem_iff` — membership in the list is `lookup` in the map;
  * `sortKeys_eq` — sorting the listed keys gives the same list for every order.
-/
import Mathlib.Data.Finmap
import Mathlib.Data.List.Sort

namespace Vestigium.HashMap

variable {K V : Type} [DecidableEq K]

abbrev Map (K V : Type) := Finmap fun _ : K => V

abbrev Entry (K V : Type) := Σ _ : K, V

/-- `l` is the entries of `s` in some order. -/
def Lists (l : List (Entry K V)) (s : Map K V) : Prop := (l : Multiset (Entry K V)) = s.entries

/-- A choice of iteration order for every map. -/
structure Order (K V : Type) where
  entries : Map K V → List (Entry K V)
  lists : ∀ s, Lists (entries s) s

/-- Some order exists. -/
noncomputable def someOrder (K V : Type) : Order K V where
  entries s := s.entries.toList
  lists s := Multiset.coe_toList s.entries

/-- `insert` every entry of a list, a later one replacing an earlier one with its key. -/
def collect (l : List (Entry K V)) : Map K V := l.foldl (fun s e => s.insert e.1 e.2) ∅

/-! ## What a listing knows about the map -/

theorem Lists.mem_iff {l : List (Entry K V)} {s : Map K V} (h : Lists l s) {k : K} {v : V} :
    ⟨k, v⟩ ∈ l ↔ s.lookup k = some v := by
  rw [← Option.mem_def, Finmap.mem_lookup_iff, ← h, Multiset.mem_coe]

omit [DecidableEq K] in
theorem Lists.nodup {l : List (Entry K V)} {s : Map K V} (h : Lists l s) : (l.map (·.1)).Nodup := by
  have hn : (l : Multiset (Entry K V)).NodupKeys := by
    rw [show (l : Multiset (Entry K V)) = s.entries from h]
    exact s.nodupKeys
  exact Multiset.coe_nodupKeys.mp hn

omit [DecidableEq K] in
theorem Lists.length {l : List (Entry K V)} {s : Map K V} (h : Lists l s) :
    l.length = s.entries.card := by
  rw [← show (l : Multiset (Entry K V)) = s.entries from h, Multiset.coe_card]

/-- The listed keys are the map's keys. -/
theorem Lists.mem_keys {l : List (Entry K V)} {s : Map K V} (h : Lists l s) {k : K} :
    k ∈ l.map (·.1) ↔ k ∈ s := by
  rw [Finmap.mem_iff]
  constructor
  · intro hk
    obtain ⟨⟨k', v⟩, hmem, rfl⟩ := List.mem_map.mp hk
    exact ⟨v, h.mem_iff.mp hmem⟩
  · rintro ⟨v, hv⟩
    exact List.mem_map.mpr ⟨⟨k, v⟩, h.mem_iff.mpr hv, rfl⟩

/-- A new key, listed first. -/
theorem Lists.insert {l : List (Entry K V)} {s : Map K V} (h : Lists l s) {k : K} (v : V)
    (hk : k ∉ s) : Lists (⟨k, v⟩ :: l) (s.insert k v) := by
  rw [Lists, Finmap.entries_insert_of_notMem hk, ← Multiset.cons_coe,
    show (l : Multiset (Entry K V)) = s.entries from h]

/-- Every listing is some order's. -/
theorem exists_order_of_lists {l : List (Entry K V)} {s : Map K V} (h : Lists l s) :
    ∃ ord : Order K V, ord.entries s = l := by
  classical
  refine ⟨⟨fun s' => if s' = s then l else s'.entries.toList, fun s' => ?_⟩, if_pos rfl⟩
  by_cases hs : s' = s
  · rw [if_pos hs, hs]
    exact h
  · rw [if_neg hs]
    exact Multiset.coe_toList s'.entries

/-- Any entry can come first. -/
theorem exists_order_first {s : Map K V} {k : K} {v : V} (h : s.lookup k = some v) :
    ∃ (ord : Order K V) (rest : List (Entry K V)), ord.entries s = ⟨k, v⟩ :: rest := by
  classical
  have hmem : ⟨k, v⟩ ∈ s.entries := Finmap.mem_lookup_iff.mp h
  refine ⟨⟨fun s' => if s' = s then ⟨k, v⟩ :: (s.entries.erase ⟨k, v⟩).toList else s'.entries.toList,
    fun s' => ?_⟩, (s.entries.erase ⟨k, v⟩).toList, if_pos rfl⟩
  by_cases hs : s' = s
  · rw [if_pos hs, hs, Lists, ← Multiset.cons_coe, Multiset.coe_toList, Multiset.cons_erase hmem]
  · rw [if_neg hs]
    exact Multiset.coe_toList s'.entries

/-- The same order backwards. -/
def Order.reverse (ord : Order K V) : Order K V where
  entries s := (ord.entries s).reverse
  lists s := by
    rw [Lists, Multiset.coe_reverse]
    exact ord.lists s

/-- Any entry can come last. -/
theorem exists_order_last {s : Map K V} {k : K} {v : V} (h : s.lookup k = some v) :
    ∃ (ord : Order K V) (rest : List (Entry K V)), ord.entries s = rest ++ [⟨k, v⟩] := by
  obtain ⟨ord, rest, hord⟩ := exists_order_first h
  refine ⟨ord.reverse, rest.reverse, ?_⟩
  show (ord.entries s).reverse = rest.reverse ++ [⟨k, v⟩]
  rw [hord, List.reverse_cons]

/-! ## Rebuilding the map -/

/-- Inserting entries with other keys does not touch key `k`. -/
theorem lookup_foldl_insert_of_notMem {k : K} : ∀ (l : List (Entry K V)) (s : Map K V),
    k ∉ l.map (·.1) → (l.foldl (fun s e => s.insert e.1 e.2) s).lookup k = s.lookup k
  | [], _, _ => rfl
  | e :: l, s, h => by
    rw [List.map_cons, List.mem_cons, not_or] at h
    rw [List.foldl_cons, lookup_foldl_insert_of_notMem l _ h.2, Finmap.lookup_insert_of_ne _ h.1]

/-- With distinct keys, every listed entry is found. -/
theorem lookup_foldl_insert_of_mem {k : K} {v : V} : ∀ (l : List (Entry K V)) (s : Map K V),
    (l.map (·.1)).Nodup → ⟨k, v⟩ ∈ l → (l.foldl (fun s e => s.insert e.1 e.2) s).lookup k = some v
  | e :: l, s, hn, hmem => by
    rw [List.map_cons, List.nodup_cons] at hn
    rw [List.foldl_cons]
    rcases List.mem_cons.mp hmem with rfl | hmem
    · rw [lookup_foldl_insert_of_notMem l _ hn.1, Finmap.lookup_insert]
    · exact lookup_foldl_insert_of_mem l _ hn.2 hmem

/-- Inserting the entries one by one, in any order, rebuilds the map. -/
theorem collect_of_lists {l : List (Entry K V)} {s : Map K V} (h : Lists l s) : collect l = s := by
  refine Finmap.ext_lookup fun k => ?_
  cases hk : s.lookup k with
  | some v => exact lookup_foldl_insert_of_mem l ∅ h.nodup (h.mem_iff.mpr hk)
  | none =>
    have hnot : k ∉ l.map (·.1) := by
      rw [h.mem_keys]
      exact Finmap.lookup_eq_none.mp hk
    rw [collect, lookup_foldl_insert_of_notMem l ∅ hnot, Finmap.lookup_empty]

/-- What is found under a key is the last entry that has it. -/
theorem lookup_collect_eq_some {l : List (Entry K V)} {k : K} {v : V} :
    (collect l).lookup k = some v ↔ ∃ l₁ l₂, l = l₁ ++ ⟨k, v⟩ :: l₂ ∧ k ∉ l₂.map (·.1) := by
  constructor
  · induction l using List.reverseRecOn with
    | nil =>
      intro h
      rw [collect, List.foldl_nil, Finmap.lookup_empty] at h
      nomatch h
    | append_singleton l e ih =>
      intro h
      rw [collect, List.foldl_append, List.foldl_cons, List.foldl_nil] at h
      by_cases hk : k = e.1
      · subst hk
        rw [Finmap.lookup_insert] at h
        exact ⟨l, [], by rw [← Option.some.inj h], List.not_mem_nil⟩
      · rw [Finmap.lookup_insert_of_ne _ hk] at h
        obtain ⟨l₁, l₂, rfl, hl₂⟩ := ih h
        exact ⟨l₁, l₂ ++ [e], by simp, by simp_all⟩
  · rintro ⟨l₁, l₂, rfl, hl₂⟩
    rw [collect, List.foldl_append, List.foldl_cons, lookup_foldl_insert_of_notMem l₂ _ hl₂,
      Finmap.lookup_insert]

/-- What is inserted under a key hides what was there. -/
theorem lookup_foldl_insert_congr {k : K} : ∀ (l : List (Entry K V)) (s s' : Map K V),
    k ∈ l.map (·.1) ∨ s.lookup k = s'.lookup k →
    (l.foldl (fun s e => s.insert e.1 e.2) s).lookup k =
      (l.foldl (fun s e => s.insert e.1 e.2) s').lookup k
  | [], _, _, h => h.resolve_left List.not_mem_nil
  | e :: l, s, s', h => by
    rw [List.foldl_cons, List.foldl_cons]
    refine lookup_foldl_insert_congr l _ _ ?_
    by_cases hk : k = e.1
    · right
      rw [hk, Finmap.lookup_insert, Finmap.lookup_insert]
    · rw [List.map_cons, List.mem_cons] at h
      rcases h with (hk' | hmem) | heq
      · exact absurd hk' hk
      · exact .inl hmem
      · right
        rw [Finmap.lookup_insert_of_ne _ hk, Finmap.lookup_insert_of_ne _ hk, heq]

/-- An entry whose key comes again is as good as not there. -/
theorem collect_cons_of_mem {e : Entry K V} {l : List (Entry K V)} (h : e.1 ∈ l.map (·.1)) :
    collect (e :: l) = collect l := by
  refine Finmap.ext_lookup fun k => lookup_foldl_insert_congr l _ _ ?_
  by_cases hk : k = e.1
  · exact .inl (hk ▸ h)
  · exact .inr (Finmap.lookup_insert_of_ne _ hk)

/-- Any other could as well have come last. -/
theorem collect_cons_of_notMem {e : Entry K V} {l : List (Entry K V)} (h : e.1 ∉ l.map (·.1)) :
    collect (e :: l) = (collect l).insert e.1 e.2 := by
  refine Finmap.ext_lookup fun k => ?_
  rw [collect, List.foldl_cons]
  by_cases hk : k = e.1
  · rw [hk, lookup_foldl_insert_of_notMem l _ h, Finmap.lookup_insert, Finmap.lookup_insert]
  · rw [Finmap.lookup_insert_of_ne _ hk]
    exact lookup_foldl_insert_congr l _ _ (.inr (Finmap.lookup_insert_of_ne _ hk))

/-- **A list of insertions contains a listing of the map it builds**: the entries that no later one
    replaces. -/
theorem exists_sublist_lists : ∀ l : List (Entry K V), ∃ l', l'.Sublist l ∧ Lists l' (collect l)
  | [] => ⟨[], .slnil, rfl⟩
  | e :: l => by
    obtain ⟨l', hsub, hlists⟩ := exists_sublist_lists l
    by_cases he : e.1 ∈ l.map (·.1)
    · refine ⟨l', hsub.cons e, ?_⟩
      rwa [collect_cons_of_mem he]
    · refine ⟨e :: l', hsub.cons_cons e, ?_⟩
      have hnew : e.1 ∉ collect l := fun hmem => by
        rw [← hlists.mem_keys] at hmem
        exact he ((hsub.map _).subset hmem)
      rw [collect_cons_of_notMem he]
      exact hlists.insert e.2 hnew

theorem card_insert_le (s : Map K V) (k : K) (v : V) :
    (s.insert k v).entries.card ≤ s.entries.card + 1 := by
  have hkeys : ∀ t : Map K V, t.entries.card = t.keys.card := fun t => by
    simp [Finmap.keys, Multiset.keys, Finset.card]
  have hins : (s.insert k v).keys = Insert.insert k s.keys := by
    ext k'
    simp [Finmap.mem_keys]
  rw [hkeys, hkeys, hins]
  exact Finset.card_insert_le k s.keys

/-- A map built from a list has at most as many entries. -/
theorem card_foldl_insert_le : ∀ (l : List (Entry K V)) (s : Map K V),
    (l.foldl (fun s e => s.insert e.1 e.2) s).entries.card ≤ s.entries.card + l.length
  | [], _ => Nat.le_refl _
  | e :: l, s => by
    have ih := card_foldl_insert_le l (s.insert e.1 e.2)
    have hins := card_insert_le s e.1 e.2
    rw [List.foldl_cons, List.length_cons]
    omega

/-! ## Sorting the keys -/

/-- The listed keys, sorted by a rank. -/
def sortKeys (rank : K → Nat) (l : List (Entry K V)) : List K :=
  (l.map (·.1)).mergeSort fun a b => decide (rank a ≤ rank b)

omit [DecidableEq K] in
theorem sortKeys_perm (rank : K → Nat) (l : List (Entry K V)) :
    (sortKeys rank l).Perm (l.map (·.1)) := List.mergeSort_perm _ _

omit [DecidableEq K] in
/-- Sorting by an injective rank forgets the order. -/
theorem sortKeys_eq {rank : K → Nat} (hrank : Function.Injective rank) {l l' : List (Entry K V)}
    (h : (l.map (·.1)).Perm (l'.map (·.1))) : sortKeys rank l = sortKeys rank l' := by
  have hsorted : ∀ l : List (Entry K V),
      (sortKeys rank l).Pairwise fun a b => decide (rank a ≤ rank b) = true := fun l =>
    List.pairwise_mergeSort (fun a b c hab hbc => by simp at *; omega)
      (fun a b => by simp; omega) _
  refine List.Perm.eq_of_pairwise ?_ (hsorted l) (hsorted l')
    ((sortKeys_perm rank l).trans (h.trans (sortKeys_perm rank l').symm))
  intro a b _ _ hab hba
  simp only [decide_eq_true_eq] at hab hba
  exact hrank (Nat.le_antisymm hab hba)

end Vestigium.HashMap

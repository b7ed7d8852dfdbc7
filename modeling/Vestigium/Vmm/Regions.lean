/-
  REGIONS — guest memory as a set of ranges, each backed by a host buffer of its own.

  `WHvMapGpaRange` lets a later range hide an earlier one, so in general guest memory depends on the
  ORDER of the calls.  When no address is mapped twice it does not: which buffer backs an address is
  then a matter of which range contains it (`backing_eq_some_iff`), two machines that map equal
  bytes at equal addresses have equal memory (`ram_eq_of_mirrors`), and memory determines the
  contents of the buffers again (`host_eq_of_ram`).

  Guest stores change what is in the buffers, never how many bytes they have or where they are
  mapped (`SameShape`).
-/
import Vestigium.Vmm.Vcpu

namespace Vestigium.Machine

variable {m n : Machine}

/-! ## Ranges that do not overlap -/

/-- No address is mapped twice. -/
def DisjointMaps (maps : List Mapping) : Prop :=
  ∀ mp ∈ maps, ∀ mp' ∈ maps, ∀ a, mp.covers a = true → mp'.covers a = true → mp = mp'

theorem backing_eq_some_iff (hm : DisjointMaps m.maps) {a : Nat} {mp : Mapping} :
    m.backing a = some mp ↔ mp ∈ m.maps ∧ mp.covers a = true := by
  constructor
  · intro h
    obtain ⟨hmem, hcov⟩ := backing_mem h
    exact ⟨hmem, Mapping.covers_iff.mpr hcov⟩
  · rintro ⟨hmem, hcov⟩
    cases hb : m.backing a with
    | none =>
      rw [backing, List.find?_eq_none] at hb
      exact absurd hcov (hb mp hmem)
    | some mp' =>
      obtain ⟨hmem', hcov'⟩ := backing_mem hb
      rw [hm mp hmem mp' hmem' a hcov (Mapping.covers_iff.mpr hcov')]

/-- Byte `o` of a mapped range. -/
theorem ram_of_mem (hm : DisjointMaps m.maps) {mp : Mapping} (hmem : mp ∈ m.maps) {o : Nat}
    (ho : o < mp.size) : m.ram (mp.gpa + o) = ((m.host mp.buf)[o]?).map (·, mp.flags) := by
  have hcov : mp.covers (mp.gpa + o) = true := Mapping.covers_iff.mpr (by omega)
  rw [ram_of_backing ((backing_eq_some_iff hm).mpr ⟨hmem, hcov⟩), Nat.add_sub_cancel_left]

/-- Every mapped range is backed from end to end. -/
def Full (m : Machine) : Prop := ∀ mp ∈ m.maps, (m.host mp.buf).length = mp.size

/-- What is mapped can be read, as far as the flags go, and nothing else. -/
theorem ram_eq_some_iff (hm : DisjointMaps m.maps) (hfull : m.Full) {a : Nat} {flags : U32} :
    (∃ b, m.ram a = some (b, flags)) ↔ ∃ mp ∈ m.maps, mp.covers a = true ∧ mp.flags = flags := by
  constructor
  · rintro ⟨b, hb⟩
    cases h : m.backing a with
    | none =>
      rw [ram_of_unmapped h] at hb
      nomatch hb
    | some mp =>
      obtain ⟨hmem, hcov⟩ := (backing_eq_some_iff hm).mp h
      rw [ram_of_backing h] at hb
      obtain ⟨c, -, hc⟩ := Option.map_eq_some_iff.mp hb
      exact ⟨mp, hmem, hcov, (Prod.mk.inj hc).2⟩
  · rintro ⟨mp, hmem, hcov, rfl⟩
    obtain ⟨hle, hlt⟩ := Mapping.covers_iff.mp hcov
    have ho : a - mp.gpa < (m.host mp.buf).length := by
      rw [hfull mp hmem]
      omega
    rw [ram_of_backing ((backing_eq_some_iff hm).mpr ⟨hmem, hcov⟩), List.getElem?_eq_getElem ho]
    exact ⟨_, rfl⟩

/-- `n` maps, where `m` maps a buffer, one with the same bytes and the same flags. -/
def Mirrors (m n : Machine) : Prop :=
  ∀ mp ∈ m.maps, ∃ mp' ∈ n.maps,
    mp'.gpa = mp.gpa ∧ mp'.size = mp.size ∧ mp'.flags = mp.flags ∧ n.host mp'.buf = m.host mp.buf

theorem ram_eq_some_of_mirrors (hn : DisjointMaps n.maps) (h : Mirrors m n) {a : Nat} {x : U8 × U32}
    (hx : m.ram a = some x) : n.ram a = some x := by
  cases hb : m.backing a with
  | none =>
    rw [ram_of_unmapped hb] at hx
    nomatch hx
  | some mp =>
    obtain ⟨hmem, hle, hlt⟩ := backing_mem hb
    obtain ⟨mp', hmem', hgpa, hsize, hflags, hhost⟩ := h mp hmem
    have hcov : mp'.covers a = true := Mapping.covers_iff.mpr (by omega)
    rw [ram_of_backing hb] at hx
    rw [ram_of_backing ((backing_eq_some_iff hn).mpr ⟨hmem', hcov⟩), hhost, hgpa, hflags]
    exact hx

/-- Equal bytes at equal addresses, in whatever order and from whatever buffers. -/
theorem ram_eq_of_mirrors (hm : DisjointMaps m.maps) (hn : DisjointMaps n.maps)
    (hmn : Mirrors m n) (hnm : Mirrors n m) : m.ram = n.ram := by
  funext a
  cases ha : m.ram a with
  | some x => exact (ram_eq_some_of_mirrors hn hmn ha).symm
  | none =>
    cases ha' : n.ram a with
    | none => rfl
    | some x =>
      rw [ram_eq_some_of_mirrors hm hnm ha'] at ha
      nomatch ha

/-- Ranges that mirror disjoint ones are disjoint, if there is only one at each address. -/
theorem DisjointMaps.of_mirrors (hm : DisjointMaps m.maps) (hnm : Mirrors n m)
    (hone : ∀ mp ∈ n.maps, ∀ mp' ∈ n.maps, mp.gpa = mp'.gpa → mp = mp') : DisjointMaps n.maps := by
  intro mp hmem mp' hmem' a hcov hcov'
  obtain ⟨q, hq, hgpa, hsize, -⟩ := hnm mp hmem
  obtain ⟨q', hq', hgpa', hsize', -⟩ := hnm mp' hmem'
  rw [Mapping.covers_iff] at hcov hcov'
  have heq : q = q' := hm q hq q' hq' a (Mapping.covers_iff.mpr (by omega))
    (Mapping.covers_iff.mpr (by omega))
  exact hone mp hmem mp' hmem' (by rw [← hgpa, ← hgpa', heq])

/-- Memory determines what is in a buffer that is mapped as a whole. -/
theorem host_eq_of_ram (hm : DisjointMaps m.maps) (hn : DisjointMaps n.maps) (h : m.ram = n.ram)
    {mp mp' : Mapping} (hmem : mp ∈ m.maps) (hmem' : mp' ∈ n.maps) (hgpa : mp'.gpa = mp.gpa)
    (hsize : mp'.size = mp.size) (hlen : (m.host mp.buf).length = mp.size)
    (hlen' : (n.host mp'.buf).length = mp'.size) : n.host mp'.buf = m.host mp.buf := by
  refine List.ext_getElem? fun o => ?_
  by_cases ho : o < mp.size
  · have hram : n.ram (mp'.gpa + o) = m.ram (mp.gpa + o) := by rw [hgpa, h]
    rw [ram_of_mem hm hmem ho, ram_of_mem hn hmem' (by omega)] at hram
    have hfst := congrArg (Option.map Prod.fst) hram
    simpa [Function.comp_def] using hfst
  · rw [List.getElem?_eq_none (by omega), List.getElem?_eq_none (by omega)]

/-! ## The shape of memory -/

/-- The same ranges and intercepts, and buffers of the same lengths. -/
structure SameShape (m n : Machine) : Prop where
  maps : n.maps = m.maps
  extendedVmExits : n.extendedVmExits = m.extendedVmExits
  length : ∀ buf, (n.host buf).length = (m.host buf).length

namespace SameShape

theorem refl (m : Machine) : SameShape m m := ⟨rfl, rfl, fun _ => rfl⟩

theorem trans {k : Machine} (h : SameShape m n) (h' : SameShape n k) : SameShape m k where
  maps := h'.maps.trans h.maps
  extendedVmExits := h'.extendedVmExits.trans h.extendedVmExits
  length buf := (h'.length buf).trans (h.length buf)

theorem full (h : SameShape m n) (hm : m.Full) : n.Full := by
  intro mp hmem
  rw [h.length]
  exact hm mp (by rwa [← h.maps])

theorem store1 (m : Machine) (w : Nat × U8) : SameShape m (m.store1 w) where
  maps := (store1_frame m w).2.1
  extendedVmExits := (store1_frame m w).2.2
  length buf := by
    unfold Machine.store1
    cases m.backing w.1 with
    | none => rfl
    | some mp =>
      dsimp only
      split
      · rw [withHost_host]
        by_cases hbuf : buf = mp.buf
        · subst hbuf
          rw [Function.update_self, List.length_set]
        · rw [Function.update_of_ne hbuf]
      · rfl

theorem store (m : Machine) : ∀ ws : List (Nat × U8), SameShape m (m.store ws) := by
  intro ws
  induction ws generalizing m with
  | nil => exact refl m
  | cons w ws ih => exact (store1 m w).trans (ih (m.store1 w))

theorem setVp (m : Machine) (i : U32) (vp : Vp) : SameShape m (m.setVp i vp) :=
  ⟨rfl, rfl, fun _ => rfl⟩

end SameShape

end Vestigium.Machine

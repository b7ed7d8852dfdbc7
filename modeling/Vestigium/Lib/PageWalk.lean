/-
  FOUR-LEVEL PAGING — how an x86-64 processor in long mode translates a linear address.

  The tables are read through a function from physical addresses to quadwords, `none` where nothing
  can be read; how memory is stored is not this file's business.  A table entry has its `present`,
  `writable` and `largePage` bits at 0, 1 and 7 and an address in bits 51…12; nine bits of the
  linear address index each table, the PML4 by bits 47…39 down to the page table by 20…12.  An entry
  of the page directory (or of the PDPT) with its `largePage` bit set maps a page of 2 MB (or 1 GB)
  and ends the walk.  Reserved bits are not checked.

  A client describes its tables by what each entry says and moves through a walk with the three
  step rules `walkFrom_absent`, `walkFrom_table`, `walkFrom_page`.
-/
import Mathlib.Tactic.Ring

namespace Vestigium.PageWalk

/-! ## Entries -/

/-- Bit `i` of a table entry. -/
def bit (e i : Nat) : Bool := decide (e / 2 ^ i % 2 = 1)

def present (e : Nat) : Bool := bit e 0
def writable (e : Nat) : Bool := bit e 1
def largePage (e : Nat) : Bool := bit e 7

/-- The physical address in an entry: its bits `shift` to 51. -/
def frame (e shift : Nat) : Nat := e % 2 ^ 52 / 2 ^ shift * 2 ^ shift

/-- The index of linear address `a` into the table whose entries cover `2 ^ shift` bytes each. -/
def index (a shift : Nat) : Nat := a / 2 ^ shift % 512

/-! ## The walk -/

/-- Where the walk ends, and whether every entry on the way was writable. -/
structure Translation where
  phys : Nat
  writable : Bool
deriving DecidableEq, Repr

/-- Bits 63…47 are all equal. -/
def Canonical (a : Nat) : Prop := a < 2 ^ 47 ∨ (2 ^ 64 - 2 ^ 47 ≤ a ∧ a < 2 ^ 64)

instance (a : Nat) : Decidable (Canonical a) := inferInstanceAs (Decidable (_ ∨ _))

/-- The walk below a table with `level + 1` levels left (4 is the PML4, 1 the page table). -/
def walkFrom (read : Nat → Option Nat) (a : Nat) : Nat → Nat → Bool → Option Translation
  | 0, _, _ => none
  | level + 1, table, w =>
    match read (table + 8 * index a (12 + 9 * level)) with
    | none => none
    | some e =>
      if present e then
        if level = 0 ∨ (level ≤ 2 ∧ largePage e) then
          some ⟨frame e (12 + 9 * level) + a % 2 ^ (12 + 9 * level), w && writable e⟩
        else walkFrom read a level (frame e 12) (w && writable e)
      else none

/-- The entries that walk reads, from the table on. -/
def entriesFrom (read : Nat → Option Nat) (a : Nat) : Nat → Nat → List Nat
  | 0, _ => []
  | level + 1, table =>
    match read (table + 8 * index a (12 + 9 * level)) with
    | none => []
    | some e =>
      if present e = true ∧ ¬ (level = 0 ∨ (level ≤ 2 ∧ largePage e = true)) then
        e :: entriesFrom read a level (frame e 12)
      else [e]

/-- The translation of `a` under the tables at `cr3`. -/
def walk (read : Nat → Option Nat) (cr3 a : Nat) : Option Translation :=
  if Canonical a then walkFrom read a 4 (frame cr3 12) true else none

/-- The entries that are read for `a` under the tables at `cr3`. -/
def entries (read : Nat → Option Nat) (cr3 a : Nat) : List Nat := entriesFrom read a 4 (frame cr3 12)

/-! ## One step of it -/

variable {read : Nat → Option Nat} {a level table e : Nat} {w : Bool}

/-- An entry that is not present ends the walk with a fault. -/
theorem walkFrom_absent (hr : read (table + 8 * index a (12 + 9 * level)) = some e)
    (hp : present e = false) : walkFrom read a (level + 1) table w = none := by
  rw [walkFrom, hr]
  simp [hp]

/-- A present entry that maps no page leads to the next table. -/
theorem walkFrom_table (hr : read (table + 8 * index a (12 + 9 * level)) = some e)
    (hp : present e = true) (hl : ¬ (level = 0 ∨ (level ≤ 2 ∧ largePage e = true))) :
    walkFrom read a (level + 1) table w = walkFrom read a level (frame e 12) (w && writable e) := by
  rw [walkFrom, hr]
  simp only [hp, if_true, if_neg hl]

/-- A present entry that maps a page ends the walk inside it. -/
theorem walkFrom_page (hr : read (table + 8 * index a (12 + 9 * level)) = some e)
    (hp : present e = true) (hl : level = 0 ∨ (level ≤ 2 ∧ largePage e = true)) :
    walkFrom read a (level + 1) table w =
      some ⟨frame e (12 + 9 * level) + a % 2 ^ (12 + 9 * level), w && writable e⟩ := by
  rw [walkFrom, hr]
  simp only [hp, if_true, if_pos hl]

/-- What is read first. -/
theorem mem_entriesFrom_self (hr : read (table + 8 * index a (12 + 9 * level)) = some e) :
    e ∈ entriesFrom read a (level + 1) table := by
  rw [entriesFrom, hr]
  dsimp only
  split
  · exact List.mem_cons_self
  · exact List.mem_singleton.mpr rfl

/-- What is read in the next table. -/
theorem mem_entriesFrom_table {e' : Nat} (hr : read (table + 8 * index a (12 + 9 * level)) = some e)
    (hp : present e = true) (hl : ¬ (level = 0 ∨ (level ≤ 2 ∧ largePage e = true)))
    (h : e' ∈ entriesFrom read a level (frame e 12)) : e' ∈ entriesFrom read a (level + 1) table := by
  rw [entriesFrom, hr]
  dsimp only
  rw [if_pos ⟨hp, hl⟩]
  exact List.mem_cons_of_mem e h

/-- A page is no more writable than the tables on the way to it. -/
theorem writable_of_walkFrom {t : Translation} : ∀ {level table : Nat} {w : Bool},
    walkFrom read a level table w = some t → t.writable = true → w = true
  | 0, _, _, h, _ => nomatch h
  | level + 1, table, w, h, hw => by
    rw [walkFrom] at h
    split at h
    · nomatch h
    split at h
    · split at h
      · obtain rfl := Option.some.inj h
        exact (Bool.and_eq_true_iff.mp hw).1
      · exact (Bool.and_eq_true_iff.mp (writable_of_walkFrom h hw)).1
    · nomatch h

/-- **A walk that ends in a page** has met present entries only, and writable ones if the page is. -/
theorem entriesFrom_of_walkFrom {t : Translation} : ∀ {level table : Nat} {w : Bool},
    walkFrom read a level table w = some t → ∀ e ∈ entriesFrom read a level table,
      present e = true ∧ (t.writable = true → writable e = true)
  | 0, _, _, h => nomatch h
  | level + 1, table, w, h => by
    cases hr : read (table + 8 * index a (12 + 9 * level)) with
    | none =>
      rw [walkFrom, hr] at h
      nomatch h
    | some e =>
      rw [entriesFrom, hr]
      by_cases hp : present e = true
      · by_cases hl : level = 0 ∨ (level ≤ 2 ∧ largePage e = true)
        · rw [walkFrom_page hr hp hl] at h
          obtain rfl := Option.some.inj h
          simp only [hp, hl, not_true_eq_false, and_false, if_false, List.mem_singleton]
          rintro e rfl
          exact ⟨hp, fun hw => (Bool.and_eq_true_iff.mp hw).2⟩
        · rw [walkFrom_table hr hp hl] at h
          simp only [hp, hl, not_false_eq_true, and_self, if_true, List.forall_mem_cons]
          refine ⟨⟨trivial, fun hw => ?_⟩, entriesFrom_of_walkFrom h⟩
          exact (Bool.and_eq_true_iff.mp (writable_of_walkFrom h hw)).2
      · rw [walkFrom_absent hr (Bool.eq_false_iff.mpr hp)] at h
        nomatch h

theorem walk_of_not_canonical {cr3 : Nat} (h : ¬ Canonical a) : walk read cr3 a = none := if_neg h

theorem walk_of_canonical {cr3 : Nat} (h : Canonical a) :
    walk read cr3 a = walkFrom read a 4 (frame cr3 12) true := if_pos h

end Vestigium.PageWalk

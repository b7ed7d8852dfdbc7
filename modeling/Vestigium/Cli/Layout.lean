/-
  THE GUEST LAYOUT — the addresses of `cli/src/main.rs`.

  Two regions stand at fixed addresses, the null page and the page tables; the image starts at a
  third, and the stack is put behind it, rounded up to a page.  Nothing limits the size of the image,
  so whether the four come out apart is a question about that size: `layout_sound_iff` answers it.
-/
import Mathlib.Data.List.Pairwise
import Vestigium.Engine.Loader
import Vestigium.Vmm.Paging
import Vestigium.Vmm.Regions

namespace Vestigium.Cli

/-! ## The addresses -/

def baseGpa : U64 := 0x100000
def stackSize : Nat := 0x10000
def nullSize : Nat := 0x1000
def ptGpa : U64 := 0x200000
def ptSize : Nat := 4096 * 3

/-- `stack_base_gpa`: behind an image of `size` bytes. -/
def stackBaseGpa (size : U64) : U64 := baseGpa + ((size + 0xFFF) &&& ~~~(0xFFF : U64))

/-- `entry_gpa`, the initial RIP. -/
def entryGpa (entryPoint : U64) : U64 := baseGpa + entryPoint

/-- `stack_gpa`, the initial RSP. -/
def stackGpa (size : U64) : U64 := stackBaseGpa size + BitVec.ofNat 64 stackSize

/-- `WHV_MAP_GPA_RANGE_FLAGS(0x7)`: read, write, execute. -/
def allFlags : U32 := 0x7

/-- The ranges the Record command maps for an image of `size` bytes, newest first. -/
def layout (size : U64) : List Mapping :=
  [⟨ptGpa.toNat, ptSize, .pageTable, allFlags⟩,
   ⟨0, nullSize, .nullPage, allFlags⟩,
   ⟨(stackBaseGpa size).toNat, stackSize, .stack, allFlags⟩,
   ⟨baseGpa.toNat, size.toNat, .image, allFlags⟩]

/-- The keys it captures the four regions under, in its order. -/
def keys (size : U64) : List U64 := [0x0, baseGpa, stackBaseGpa size, ptGpa]

/-! ## When the layout is sound -/

/-- Two ranges do not meet. -/
def Apart (mp mp' : Mapping) : Prop := mp.gpa + mp.size ≤ mp'.gpa ∨ mp'.gpa + mp'.size ≤ mp.gpa

instance (mp mp' : Mapping) : Decidable (Apart mp mp') := inferInstanceAs (Decidable (_ ∨ _))

instance : Std.Symm Apart := ⟨fun _ _ h => h.symm⟩

/-- The regions are pairwise disjoint, have four keys, and lie in the first 1 GB; the initial RIP is
    in the image. -/
structure Sound (size entryPoint : U64) : Prop where
  apart : (layout size).Pairwise Apart
  keys : (Cli.keys size).Nodup
  below : ∀ mp ∈ layout size, mp.gpa + mp.size ≤ 2 ^ 30
  entry : baseGpa.toNat ≤ (entryGpa entryPoint).toNat ∧
    (entryGpa entryPoint).toNat < baseGpa.toNat + size.toNat

/-- A page-aligned image leaves no gap in front of the stack. -/
theorem toNat_stackBaseGpa {size : U64} (h : size.toNat + 0x100000 + 4096 ≤ 2 ^ 64) :
    (stackBaseGpa size).toNat = 0x100000 + (size.toNat + 4095) / 4096 * 4096 := by
  have hadd : (size + 0xFFF : U64).toNat = size.toNat + 4095 := by
    rw [BitVec.toNat_add, show (0xFFF : U64).toNat = 4095 from rfl]
    omega
  rw [stackBaseGpa, BitVec.toNat_add, toNat_and_not_page, hadd,
    show baseGpa.toNat = 0x100000 from rfl]
  omega

theorem layout_gpas (size : U64) (h : size.toNat ≤ 2 ^ 33) (halign : size.toNat % 4096 = 0) :
    layout size =
      [⟨0x200000, 0x3000, .pageTable, allFlags⟩, ⟨0, 0x1000, .nullPage, allFlags⟩,
       ⟨0x100000 + size.toNat, 0x10000, .stack, allFlags⟩,
       ⟨0x100000, size.toNat, .image, allFlags⟩] := by
  have hstack : (stackBaseGpa size).toNat = 0x100000 + size.toNat := by
    rw [toNat_stackBaseGpa (by omega)]
    omega
  rw [layout, hstack]
  rfl

/-- A page-aligned image of at most `0xF0000` bytes keeps the regions apart. -/
theorem layout_apart {size : U64} (halign : size.toNat % 4096 = 0) (hle : size.toNat ≤ 0xF0000) :
    (layout size).Pairwise Apart := by
  rw [layout_gpas size (by omega) halign]
  simp only [List.pairwise_cons, List.mem_cons, List.not_mem_nil, or_false, forall_eq_or_imp,
    forall_eq, Apart, List.Pairwise.nil, and_true, IsEmpty.forall_iff, implies_true]
  omega -- the stack ends at `0x100000 + size + 0x10000`, the page tables begin at `0x200000`

/-- No two ranges of the layout are backed by one buffer. -/
theorem layout_unaliased (size : U64) : Machine.Unaliased (layout size) := by
  intro mp hmp mp' hmp' hbuf
  simp only [layout, List.mem_cons, List.not_mem_nil, or_false] at hmp hmp'
  rcases hmp with rfl | rfl | rfl | rfl <;> rcases hmp' with rfl | rfl | rfl | rfl <;>
    first | rfl | nomatch hbuf

/-- Ranges apart from each other share no address. -/
theorem disjointMaps_of_pairwise {maps : List Mapping} (h : maps.Pairwise Apart) :
    Machine.DisjointMaps maps := by
  intro mp hmp mp' hmp' a ha ha'
  by_contra hne
  rw [Mapping.covers_iff] at ha ha'
  rcases h.forall hmp hmp' hne with h | h <;> omega

theorem layout_disjoint {size : U64} (halign : size.toNat % 4096 = 0)
    (hle : size.toNat ≤ 0xF0000) : Machine.DisjointMaps (layout size) :=
  disjointMaps_of_pairwise (layout_apart halign hle)

theorem keys_nodup {size : U64} (halign : size.toNat % 4096 = 0) (hpos : 0 < size.toNat)
    (hle : size.toNat ≤ 0xF0000) : (keys size).Nodup := by
  have hstack : (stackBaseGpa size).toNat = 0x100000 + size.toNat := by
    rw [toNat_stackBaseGpa (by omega)]
    omega
  have hne : ∀ x : U64, x.toNat ≠ 0x100000 + size.toNat → stackBaseGpa size ≠ x := by
    rintro x hx rfl
    exact hx hstack
  have h0 := hne 0x0 (by rw [show (0x0 : U64).toNat = 0 from rfl]; omega)
  have hbase := hne baseGpa (by rw [show baseGpa.toNat = 0x100000 from rfl]; omega)
  have hpt := hne ptGpa (by rw [show ptGpa.toNat = 0x200000 from rfl]; omega)
  rw [keys]
  simp only [List.nodup_cons, List.mem_cons, List.not_mem_nil, or_false, not_or, not_false_eq_true,
    List.nodup_nil, and_true]
  exact ⟨⟨by decide, h0.symm, by decide⟩, ⟨hbase.symm, by decide⟩, hpt⟩

/-- **When the layout is sound.**  For every PE header, the four regions come out disjoint, with
    four keys, within 1 GB and with the entry point inside the image iff the image is not empty, has
    at most `0xF0000` bytes, and the entry point is inside its rounded-up size. -/
theorem layout_sound_iff (pe : Pe) :
    Sound (PeLoader.alignedSize pe) (pe.entry.setWidth 64) ↔
      0 < (pe.sizeOfImage.getD 0).toNat ∧ (pe.sizeOfImage.getD 0).toNat ≤ 0xF0000 ∧
        pe.entry.toNat < ((pe.sizeOfImage.getD 0).toNat + 4095) / 4096 * 4096 := by
  have hlt : (pe.sizeOfImage.getD 0).toNat < 2 ^ 32 := (pe.sizeOfImage.getD 0).isLt
  have hentry : pe.entry.toNat < 2 ^ 32 := pe.entry.isLt
  have hsize := PeLoader.toNat_alignedSize pe
  have hrip : (entryGpa (pe.entry.setWidth 64)).toNat = 0x100000 + pe.entry.toNat := by
    rw [entryGpa, BitVec.toNat_add, BitVec.toNat_setWidth, show baseGpa.toNat = 0x100000 from rfl]
    omega
  have hgpas := layout_gpas (PeLoader.alignedSize pe) (by omega) (by omega)
  constructor
  · rintro ⟨hapart, -, -, hin⟩
    rw [hgpas] at hapart
    simp only [List.pairwise_cons, List.mem_cons, List.not_mem_nil, or_false, forall_eq_or_imp,
      forall_eq, Apart, List.Pairwise.nil, and_true, IsEmpty.forall_iff, implies_true] at hapart
    rw [hrip, show baseGpa.toNat = 0x100000 from rfl] at hin
    omega
  · rintro ⟨hpos, hle, hin⟩
    refine ⟨layout_apart (by omega) (by omega), keys_nodup (by omega) (by omega) (by omega), ?_, ?_⟩
    · rw [hgpas]
      simp only [List.mem_cons, List.not_mem_nil, or_false, forall_eq_or_imp, forall_eq]
      omega
    · rw [hrip, show baseGpa.toNat = 0x100000 from rfl]
      omega

/-- **An image of `0xF1000` bytes**, which the loader maps, puts the stack into the page tables. -/
theorem layout_unsound_at_0xF1000 :
    (∃ image, PeLoader.mapIntoMemory ⟨⟨some 0xF1000, 0x1000, []⟩, []⟩ = .ok image) ∧
      ¬ Sound (PeLoader.alignedSize ⟨some 0xF1000, 0x1000, []⟩) 0x1000 := by
  constructor
  · rw [PeLoader.mapIntoMemory, if_pos (by decide)]
    exact ⟨_, rfl⟩
  · intro h
    have hgpas := layout_gpas (PeLoader.alignedSize ⟨some 0xF1000, 0x1000, []⟩) (by decide)
      (by decide)
    have hapart := h.apart
    rw [hgpas] at hapart
    -- the page tables come first in the layout, the stack third
    have hmeet := List.rel_of_pairwise_cons hapart
      (List.mem_cons_of_mem _ List.mem_cons_self)
    revert hmeet
    decide

end Vestigium.Cli

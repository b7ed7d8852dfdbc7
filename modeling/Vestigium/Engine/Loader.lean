/-
  THE LOADER — `engine/src/loader.rs`.

  `goblin` parses the file; what the loader uses of its result is `Pe`, the header fields as they
  stand in the file.  The loader checks none of them, so a section header can send the copy loop
  anywhere: `copySection` says for each way out of bounds what happens then (`unsafe` code has no
  answer but `undefined`, the slice index panics).
-/
import Vestigium.Lib.Codec
import Vestigium.Vmm.Machine

namespace Vestigium

open Codec
open Vestigium.Loop (bind_eq_ok)

/-! ## What the PE parser returns -/

/-- A section header, as far as the loader reads it. -/
structure Section where
  virtualAddress : U32
  pointerToRawData : U32
  sizeOfRawData : U32
deriving DecidableEq, Repr

/-- `goblin::pe::PE`, as far as the loader reads it. -/
structure Pe where
  /-- `size_of_image`, if there is an optional header. -/
  sizeOfImage : Option U32
  /-- `entry`: the entry point, as an RVA. -/
  entry : U32
  sections : List Section
deriving DecidableEq, Repr

/-- `PE::parse`: the fields or an error code. -/
abbrev PeParser := Bytes → Except Nat Pe

/-! ## Rounding to pages -/

/-- `!4095` keeps the bits from 12 on. -/
theorem and_not_page (x : U64) : (x &&& ~~~(4095 : U64)) = (x >>> 12) <<< 12 := by
  have hmask : ∀ i, (4095 : U64).getLsbD i = decide (i < 12) := fun i =>
    Nat.testBit_two_pow_sub_one 12 i
  refine BitVec.eq_of_getLsbD_eq fun i hi => ?_
  rw [BitVec.getLsbD_and, BitVec.getLsbD_not, hmask, BitVec.getLsbD_shiftLeft,
    BitVec.getLsbD_ushiftRight]
  by_cases hlt : i < 12
  · simp [hlt]
  · simp [hlt, hi, show 12 + (i - 12) = i by omega]

theorem toNat_and_not_page (x : U64) :
    (x &&& ~~~(4095 : U64)).toNat = x.toNat / 4096 * 4096 := by
  have hx : x.toNat < 2 ^ 64 := x.isLt
  rw [and_not_page, BitVec.toNat_shiftLeft, BitVec.toNat_ushiftRight, Nat.shiftRight_eq_div_pow,
    Nat.shiftLeft_eq]
  omega

/-! ## `PeLoader` -/

structure PeLoader where
  pe : Pe
  rawBytes : Bytes

namespace PeLoader

/-- `PeLoader::parse`. -/
def parse (peParse : PeParser) (bytes : Bytes) : Except Fail PeLoader :=
  match peParse bytes with
  | .error e => .error (.goblin e)
  | .ok pe => .ok ⟨pe, bytes⟩

theorem parse_eq_ok {peParse : PeParser} {bytes : Bytes} {loader : PeLoader} :
    parse peParse bytes = .ok loader ↔ ∃ pe, peParse bytes = .ok pe ∧ loader = ⟨pe, bytes⟩ := by
  rw [parse]
  cases peParse bytes with
  | error e => simp
  | ok pe => simp [eq_comm]

/-- `PeLoader::entry_point`. -/
def entryPoint (loader : PeLoader) : U64 := loader.pe.entry.setWidth 64

/-- `size_of_image` rounded up to a page. -/
def alignedSize (pe : Pe) : U64 :=
  let sizeOfImage : U64 := (pe.sizeOfImage.getD 0).setWidth 64
  (sizeOfImage + 4095) &&& ~~~(4095 : U64)

/-- One round of the copy loop. -/
def copySection (rawBytes : Bytes) (s : Section) (hostMemory : Bytes) : Except Fail Bytes :=
  let va := s.virtualAddress.toNat
  let rawPtr := s.pointerToRawData.toNat
  let rawSize := s.sizeOfRawData.toNat
  if 0 < rawPtr ∧ 0 < rawSize then
    if hostMemory.length < va then .error (.undefined "ptr::add past the end of the allocation")
    else if rawBytes.length < rawPtr then .error (.panic "range start index out of range for slice")
    else if rawBytes.length < rawPtr + rawSize then
      .error (.undefined "copy_nonoverlapping past the end of the source")
    else if hostMemory.length < va + rawSize then
      .error (.undefined "copy_nonoverlapping past the end of the destination")
    else .ok (hostMemory.take va ++ ((rawBytes.drop rawPtr).take rawSize ++
      hostMemory.drop (va + rawSize)))
  else .ok hostMemory

/-- The copy loop. -/
def copySections (rawBytes : Bytes) : List Section → Bytes → Except Fail Bytes
  | [], hostMemory => .ok hostMemory
  | s :: sections, hostMemory => do
    let hostMemory ← copySection rawBytes s hostMemory
    copySections rawBytes sections hostMemory

/-- `PeLoader::map_into_memory`: the contents of the allocation, which is `alignedSize` long. -/
def mapIntoMemory (loader : PeLoader) : Except Fail Bytes :=
  let size := (alignedSize loader.pe).toNat
  if 0 < size then copySections loader.rawBytes loader.pe.sections (List.replicate size 0)
  else .error (.undefined "alloc_zeroed with a zero-sized layout")

/-! ## Sizes -/

/-- Rounding up, in arithmetic: a 32-bit size cannot overflow. -/
theorem toNat_alignedSize (pe : Pe) :
    (alignedSize pe).toNat = ((pe.sizeOfImage.getD 0).toNat + 4095) / 4096 * 4096 := by
  have hlt : (pe.sizeOfImage.getD 0).toNat < 2 ^ 32 := (pe.sizeOfImage.getD 0).isLt
  have hadd : ((pe.sizeOfImage.getD 0).setWidth 64 + 4095 : U64).toNat =
      (pe.sizeOfImage.getD 0).toNat + 4095 := by
    rw [BitVec.toNat_add, BitVec.toNat_setWidth, show (4095 : U64).toNat = 4095 from rfl]
    omega
  rw [alignedSize, toNat_and_not_page, hadd]

/-- A copy that stays inside the file and inside the allocation. -/
theorem copySection_of_inBounds {rawBytes : Bytes} {s : Section} {mem : Bytes}
    (hptr : 0 < s.pointerToRawData.toNat) (hsize : 0 < s.sizeOfRawData.toNat)
    (hsrc : s.pointerToRawData.toNat + s.sizeOfRawData.toNat ≤ rawBytes.length)
    (hdest : s.virtualAddress.toNat + s.sizeOfRawData.toNat ≤ mem.length) :
    copySection rawBytes s mem = .ok (mem.take s.virtualAddress.toNat ++
      ((rawBytes.drop s.pointerToRawData.toNat).take s.sizeOfRawData.toNat ++
        mem.drop (s.virtualAddress.toNat + s.sizeOfRawData.toNat))) := by
  unfold copySection
  dsimp only
  rw [if_pos ⟨hptr, hsize⟩, if_neg (by omega), if_neg (by omega), if_neg (by omega),
    if_neg (by omega)]

theorem length_copySection {rawBytes : Bytes} {s : Section} {mem mem' : Bytes}
    (h : copySection rawBytes s mem = .ok mem') : mem'.length = mem.length := by
  unfold copySection at h
  dsimp only at h
  split at h
  · split at h
    · nomatch h
    split at h
    · nomatch h
    split at h
    · nomatch h
    split at h
    · nomatch h
    cases h
    simp only [List.length_append, List.length_take, List.length_drop]
    omega
  · cases h
    rfl

theorem length_copySections {rawBytes : Bytes} : ∀ {sections : List Section} {mem mem' : Bytes},
    copySections rawBytes sections mem = .ok mem' → mem'.length = mem.length
  | [], mem, mem', h => by
    cases h
    rfl
  | s :: sections, mem, mem', h => by
    obtain ⟨mem1, h1, h2⟩ := bind_eq_ok.mp h
    rw [length_copySections h2, length_copySection h1]

/-- The mapped image is not empty and as long as the header says. -/
theorem length_mapIntoMemory {loader : PeLoader} {image : Bytes}
    (h : mapIntoMemory loader = .ok image) :
    image.length = (alignedSize loader.pe).toNat ∧ 0 < image.length := by
  unfold mapIntoMemory at h
  dsimp only at h
  split at h
  · rename_i hpos
    have hlen := length_copySections h
    rw [List.length_replicate] at hlen
    exact ⟨hlen, by omega⟩
  · nomatch h

end PeLoader

end Vestigium

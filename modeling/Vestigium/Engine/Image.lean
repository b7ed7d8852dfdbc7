/-
  THE IMAGE — what `map_into_memory` makes of a section table.

  The copy loop is an overlay of block writes on a zeroed allocation: byte `o` of the image comes from
  the last section in the table that is copied over it (`getElem?_copySections`).

  Nothing checks the table.  A copy that leaves the file or the allocation is undefined behaviour, so
  the loop can be relied on iff every copy stays inside both (`mapIntoMemory_safe_iff`).  Nor is a
  copy clipped to the section's virtual size, so the excess of one section can end up in the virtual
  range of another (`image_follows_sections_iff`).
-/
import Mathlib.Data.List.Pairwise
import Vestigium.Engine.Loader
import Vestigium.Lib.Overlay

namespace Vestigium

open Codec
open Vestigium.Loop (bind_eq_ok)
open Vestigium.Overlay

/-! ## Where a section is copied -/

namespace Section

/-- `raw_ptr > 0 && raw_size > 0`. -/
def Copied (s : Section) : Prop := 0 < s.pointerToRawData.toNat ∧ 0 < s.sizeOfRawData.toNat

instance (s : Section) : Decidable s.Copied := inferInstanceAs (Decidable (_ ∧ _))

/-- The copy stays inside a file of `fileLen` bytes and an allocation of `size`. -/
def InBounds (s : Section) (fileLen size : Nat) : Prop :=
  s.pointerToRawData.toNat + s.sizeOfRawData.toNat ≤ fileLen ∧
    s.virtualAddress.toNat + s.sizeOfRawData.toNat ≤ size

instance (s : Section) (fileLen size : Nat) : Decidable (s.InBounds fileLen size) :=
  inferInstanceAs (Decidable (_ ∧ _))

/-- The section is copied over byte `o` of the image. -/
def writes (s : Section) (o : Nat) : Bool :=
  decide (s.Copied ∧ s.virtualAddress.toNat ≤ o ∧ o < s.virtualAddress.toNat + s.sizeOfRawData.toNat)

/-- The byte of the file that is copied there. -/
def source (rawBytes : Bytes) (s : Section) (o : Nat) : Option U8 :=
  rawBytes[s.pointerToRawData.toNat + (o - s.virtualAddress.toNat)]?

/-- The copy as a write. -/
def put (rawBytes : Bytes) (s : Section) (o : Nat) : Option U8 :=
  if s.writes o then s.source rawBytes o else none

/-- No byte of the image is copied over by both. -/
def CopiesApart (s s' : Section) : Prop :=
  s.Copied → s'.Copied →
    s.virtualAddress.toNat + s.sizeOfRawData.toNat ≤ s'.virtualAddress.toNat ∨
    s'.virtualAddress.toNat + s'.sizeOfRawData.toNat ≤ s.virtualAddress.toNat

theorem writes_iff {s : Section} {o : Nat} : s.writes o = true ↔ s.Copied ∧
    s.virtualAddress.toNat ≤ o ∧ o < s.virtualAddress.toNat + s.sizeOfRawData.toNat := by
  rw [writes, decide_eq_true_iff]

theorem put_of_writes {rawBytes : Bytes} {s : Section} {o : Nat} (h : s.writes o = true) :
    s.put rawBytes o = s.source rawBytes o := if_pos h

theorem put_of_not_writes {rawBytes : Bytes} {s : Section} {o : Nat} (h : ¬ s.writes o = true) :
    s.put rawBytes o = none := if_neg h

theorem source_isSome {rawBytes : Bytes} {s : Section} {o size : Nat}
    (hs : s.InBounds rawBytes.length size) (h : s.writes o = true) :
    (s.source rawBytes o).isSome = true := by
  obtain ⟨-, hle, hlt⟩ := writes_iff.mp h
  have hsrc := hs.1
  rw [source, List.getElem?_eq_getElem (by omega)]
  rfl

theorem CopiesApart.puts {rawBytes : Bytes} {s s' : Section} (h : s.CopiesApart s') :
    Apart (put rawBytes) s s' := by
  intro o
  by_cases hs : s.writes o = true
  · refine .inr (put_of_not_writes fun hs' => ?_)
    obtain ⟨hc, hle, hlt⟩ := writes_iff.mp hs
    obtain ⟨hc', hle', hlt'⟩ := writes_iff.mp hs'
    rcases h hc hc' with h | h <;> omega
  · exact .inl (put_of_not_writes hs)

end Section

namespace PeLoader

open Section

/-! ## The copy loop -/

/-- A section is copied, or skipped, iff its copy stays in bounds. -/
theorem copySection_ok_iff {rawBytes : Bytes} {s : Section} {mem : Bytes} :
    (∃ mem', copySection rawBytes s mem = .ok mem') ↔
      (s.Copied → s.InBounds rawBytes.length mem.length) := by
  constructor
  · rintro ⟨mem', h⟩ hc
    unfold copySection at h
    dsimp only at h
    rw [if_pos (show 0 < s.pointerToRawData.toNat ∧ 0 < s.sizeOfRawData.toNat from hc)] at h
    split at h
    · nomatch h
    split at h
    · nomatch h
    split at h
    · nomatch h
    split at h
    · nomatch h
    exact ⟨by omega, by omega⟩
  · intro h
    by_cases hc : s.Copied
    · obtain ⟨hsrc, hdest⟩ := h hc
      exact ⟨_, copySection_of_inBounds hc.1 hc.2 hsrc hdest⟩
    · exact ⟨mem, if_neg hc⟩

/-- One copy is one write. -/
theorem getElem?_copySection {rawBytes : Bytes} {s : Section} {mem mem' : Bytes}
    (h : copySection rawBytes s mem = .ok mem') (o : Nat) :
    mem'[o]? = (s.put rawBytes o).or mem[o]? := by
  by_cases hc : s.Copied
  · obtain ⟨hsrc, hdest⟩ := copySection_ok_iff.mp ⟨mem', h⟩ hc
    rw [copySection_of_inBounds hc.1 hc.2 hsrc hdest] at h
    obtain rfl := Except.ok.inj h
    have htake : (mem.take s.virtualAddress.toNat).length = s.virtualAddress.toNat := by
      rw [List.length_take]
      omega
    have hdata : ((rawBytes.drop s.pointerToRawData.toNat).take s.sizeOfRawData.toNat).length =
        s.sizeOfRawData.toNat := by
      rw [List.length_take, List.length_drop]
      omega
    -- before the copied range, inside it, behind it
    rcases Nat.lt_or_ge o s.virtualAddress.toNat with hlt | hge
    · rw [List.getElem?_append_left (by omega), List.getElem?_take_of_lt hlt, put_of_not_writes,
        Option.none_or]
      rw [writes_iff]
      omega
    · rw [List.getElem?_append_right (by omega), htake]
      rcases Nat.lt_or_ge o (s.virtualAddress.toNat + s.sizeOfRawData.toNat) with hin | hout
      · have hw : s.writes o = true := writes_iff.mpr ⟨hc, hge, hin⟩
        obtain ⟨b, hb⟩ := Option.isSome_iff_exists.mp (source_isSome ⟨hsrc, hdest⟩ hw)
        rw [List.getElem?_append_left (by omega), List.getElem?_take_of_lt (by omega),
          List.getElem?_drop, put_of_writes hw, hb, Option.some_or]
        exact hb
      · rw [List.getElem?_append_right (by omega), hdata, List.getElem?_drop, put_of_not_writes,
          Option.none_or]
        · congr 1
          omega
        · rw [writes_iff]
          omega
  · obtain rfl : mem = mem' := by
      have hskip : copySection rawBytes s mem = .ok mem := if_neg hc
      exact Except.ok.inj (hskip.symm.trans h)
    rw [put_of_not_writes fun hw => hc (writes_iff.mp hw).1, Option.none_or]

/-- The loop comes to its end iff every copy stays in bounds. -/
theorem copySections_ok_iff {rawBytes : Bytes} : ∀ {sections : List Section} {mem : Bytes},
    (∃ mem', copySections rawBytes sections mem = .ok mem') ↔
      ∀ s ∈ sections, s.Copied → s.InBounds rawBytes.length mem.length
  | [], mem => ⟨fun _ s hs => (nomatch hs), fun _ => ⟨mem, rfl⟩⟩
  | s :: sections, mem => by
    rw [List.forall_mem_cons, ← copySection_ok_iff]
    constructor
    · rintro ⟨mem', h⟩
      obtain ⟨mem1, h1, h2⟩ := bind_eq_ok.mp h
      refine ⟨⟨mem1, h1⟩, ?_⟩
      rw [← length_copySection h1]
      exact copySections_ok_iff.mp ⟨mem', h2⟩
    · rintro ⟨⟨mem1, h1⟩, hrest⟩
      rw [← length_copySection h1] at hrest
      obtain ⟨mem', h2⟩ := copySections_ok_iff.mpr hrest
      exact ⟨mem', bind_eq_ok.mpr ⟨mem1, h1, h2⟩⟩

/-- **The loop is an overlay**: induction over the table, one write for each section. -/
theorem getElem?_copySections {rawBytes : Bytes} (o : Nat) :
    ∀ {sections : List Section} {mem mem' : Bytes}, copySections rawBytes sections mem = .ok mem' →
      mem'[o]? = (overlay (put rawBytes) sections o).or mem[o]?
  | [], mem, mem', h => by
    obtain rfl := Except.ok.inj h
    rfl
  | s :: sections, mem, mem', h => by
    obtain ⟨mem1, h1, h2⟩ := bind_eq_ok.mp h
    rw [getElem?_copySections o h2, getElem?_copySection h1, overlay_cons, Option.or_assoc]

/-! ## The last writer -/

/-- The last section in table order that is copied over byte `o`. -/
def lastWriter (sections : List Section) (o : Nat) : Option Section :=
  sections.reverse.find? (·.writes o)

/-- Byte `o` of the image, read off the table. -/
def imageByte (rawBytes : Bytes) (sections : List Section) (o : Nat) : Option U8 :=
  (lastWriter sections o).elim (some 0) fun s => s.source rawBytes o

theorem getElem?_image {rawBytes : Bytes} {sections : List Section} {size : Nat} {mem : Bytes}
    (h : copySections rawBytes sections (List.replicate size 0) = .ok mem) {o : Nat} (ho : o < size) :
    mem[o]? = imageByte rawBytes sections o := by
  have hbounds := copySections_ok_iff.mp ⟨mem, h⟩
  have hsome : ∀ s ∈ sections, ∀ i, s.writes i = true → (s.source rawBytes i).isSome = true :=
    fun s hs i hi => source_isSome (hbounds s hs (writes_iff.mp hi).1) hi
  rw [getElem?_copySections o h, overlay_eq_find? (f := put rawBytes) (p := writes)
    (g := source rawBytes) (fun _ _ => rfl) hsome, imageByte, lastWriter, List.getElem?_replicate, if_pos ho]
  cases hw : sections.reverse.find? (·.writes o) with
  | none => rfl
  | some s =>
    have hmem : s ∈ sections := List.mem_reverse.mp (List.mem_of_find?_eq_some hw)
    have hwrites : s.writes o = true := List.find?_some (p := fun s : Section => s.writes o) hw
    obtain ⟨b, hb⟩ := Option.isSome_iff_exists.mp (hsome s hmem o hwrites)
    rw [Option.bind_some, hb, Option.some_or, Option.elim_some, hb]

/-- Copies that keep apart can be made in any order. -/
theorem copySections_perm {rawBytes : Bytes} {sections sections' : List Section} {mem mem' : Bytes}
    (hapart : sections.Pairwise CopiesApart) (hperm : sections'.Perm sections)
    (h : copySections rawBytes sections mem = .ok mem') :
    copySections rawBytes sections' mem = .ok mem' := by
  have hbounds := copySections_ok_iff.mp ⟨mem', h⟩
  obtain ⟨mem'', h''⟩ := copySections_ok_iff.mpr fun s hs => hbounds s (hperm.mem_iff.mp hs)
  rw [h'']
  refine congrArg Except.ok (List.ext_getElem? fun o => ?_)
  rw [getElem?_copySections o h'', getElem?_copySections o h,
    overlay_perm hperm.symm (hapart.imp CopiesApart.puts)]

/-- **Last writer wins.**  If all copies stay in bounds, every byte of the image comes from the last
    section in the table that is copied over it, and is zero if there is none; copies that keep apart
    give one image, whatever their order in the table. -/
theorem copySections_last_writer {rawBytes : Bytes} {sections : List Section} {size : Nat}
    (h : ∀ s ∈ sections, s.Copied → s.InBounds rawBytes.length size) :
    ∃ mem, copySections rawBytes sections (List.replicate size 0) = .ok mem ∧ mem.length = size ∧
      (∀ o < size, mem[o]? = imageByte rawBytes sections o) ∧
      (sections.Pairwise CopiesApart → ∀ sections' : List Section, sections'.Perm sections →
        copySections rawBytes sections' (List.replicate size 0) = .ok mem) := by
  have hlen : (List.replicate size (0 : U8)).length = size := List.length_replicate
  have hok : ∃ mem, copySections rawBytes sections (List.replicate size 0) = .ok mem :=
    copySections_ok_iff.mpr (by rw [hlen]; exact h)
  obtain ⟨mem, hmem⟩ := hok
  exact ⟨mem, hmem, (length_copySections hmem).trans hlen, fun o ho => getElem?_image hmem ho,
    fun hapart sections' hperm => copySections_perm hapart hperm hmem⟩

/-- The second section hides the end of the first. -/
theorem copySections_last_writer_sample : ∃ mem,
    copySections [9, 1, 2, 3, 4] [⟨0, 1, 3⟩, ⟨1, 3, 2⟩] (List.replicate 4 0) = .ok mem ∧
      mem[0]? = some 1 ∧ mem[1]? = some 3 ∧ mem[3]? = some 0 := by
  obtain ⟨mem, hmem, -, hbytes, -⟩ := copySections_last_writer
    (show ∀ s ∈ ([⟨0, 1, 3⟩, ⟨1, 3, 2⟩] : List Section), s.Copied →
      s.InBounds ([9, 1, 2, 3, 4] : Bytes).length 4 by decide)
  exact ⟨mem, hmem, (hbytes 0 (by decide)).trans (by decide),
    (hbytes 1 (by decide)).trans (by decide), (hbytes 3 (by decide)).trans (by decide)⟩

/-! ## Staying in bounds -/

/-- `map_into_memory` gives an image iff there is something to allocate and the loop gets through. -/
theorem mapIntoMemory_eq_ok {loader : PeLoader} {image : Bytes} :
    loader.mapIntoMemory = .ok image ↔ 0 < (alignedSize loader.pe).toNat ∧
      copySections loader.rawBytes loader.pe.sections
        (List.replicate (alignedSize loader.pe).toNat 0) = .ok image := by
  unfold mapIntoMemory
  dsimp only
  by_cases hpos : 0 < (alignedSize loader.pe).toNat
  · rw [if_pos hpos]
    exact ⟨fun h => ⟨hpos, h⟩, fun h => h.2⟩
  · rw [if_neg hpos]
    exact ⟨fun h => (nomatch h), fun h => absurd h.1 hpos⟩

theorem mapIntoMemory_ok_iff {loader : PeLoader} :
    (∃ image, loader.mapIntoMemory = .ok image) ↔ 0 < (alignedSize loader.pe).toNat ∧
      ∀ s ∈ loader.pe.sections, s.Copied →
        s.InBounds loader.rawBytes.length (alignedSize loader.pe).toNat := by
  simp only [mapIntoMemory_eq_ok, exists_and_left, copySections_ok_iff, List.length_replicate]

end PeLoader

/-! ## Files -/

/-- A section header, with the one field of it that the loader does not read. -/
structure SectionHeader extends Section where
  virtualSize : U32
deriving DecidableEq, Repr

/-- Its 40 bytes in the file. -/
def SectionHeader.bytes (s : SectionHeader) : Bytes :=
  List.replicate 8 0 ++ putWord 4 s.virtualSize ++ putWord 4 s.virtualAddress ++
    putWord 4 s.sizeOfRawData ++ putWord 4 s.pointerToRawData ++ List.replicate 16 0

/-- The DOS header (with `e_lfanew`) and stub, the PE signature and the COFF header. -/
def coffHeader (sections : Nat) : Bytes :=
  [0x4D, 0x5A] ++ List.replicate 58 0 ++ putWord 4 (0x80 : U32) ++ List.replicate 64 0 ++
    [0x50, 0x45, 0, 0, 0x64, 0x86] ++ toLE 2 sections ++ List.replicate 12 0 ++ [0xF0, 0, 0x22, 0]

/-- A PE32+ optional header with sixteen empty data directories. -/
def optionalHeader (sizeOfImage entry : U32) : Bytes :=
  [0x0B, 0x02] ++ List.replicate 14 0 ++ putWord 4 entry ++ List.replicate 12 0 ++
    putWord 4 (0x1000 : U32) ++ putWord 4 (0x200 : U32) ++ List.replicate 16 0 ++
    putWord 4 sizeOfImage ++ putWord 4 (0x200 : U32) ++ List.replicate 44 0 ++
    putWord 4 (16 : U32) ++ List.replicate 128 0

/-- A file with these headers, padded to `0x200` bytes, and `data` behind them. -/
def peFile (sizeOfImage entry : U32) (headers : List SectionHeader) (data : Bytes) : Bytes :=
  (coffHeader headers.length ++ optionalHeader sizeOfImage entry ++
    headers.flatMap SectionHeader.bytes ++ List.replicate 0x200 0).take 0x200 ++ data

/-- What the parser returns for such a file. -/
def filePe (sizeOfImage entry : U32) (headers : List SectionHeader) : Pe :=
  ⟨some sizeOfImage, entry, headers.map (·.toSection)⟩

/-- The section of a program of three bytes. -/
def shortHeaders : List SectionHeader := [⟨⟨0, 0x200, 3⟩, 3⟩]

theorem drop_peFile (sizeOfImage entry : U32) (headers : List SectionHeader) (data : Bytes) :
    (peFile sizeOfImage entry headers data).drop 0x200 = data := by
  refine List.drop_left' ?_
  rw [List.length_take, List.length_append, List.length_replicate]
  omega

theorem length_peFile (sizeOfImage entry : U32) (headers : List SectionHeader) (data : Bytes) :
    (peFile sizeOfImage entry headers data).length = 0x200 + data.length := by
  rw [peFile, List.length_append, List.length_take, List.length_append, List.length_replicate]
  omega

namespace PeLoader

open Section

/-- **What it takes for `map_into_memory` to be safe**: an image that is not empty, and every section
    with raw data inside the file and inside the image rounded up to a page. -/
theorem mapIntoMemory_safe_iff {peParse : PeParser} {bytes : Bytes} {loader : PeLoader}
    (hparse : parse peParse bytes = .ok loader) :
    (∃ image, loader.mapIntoMemory = .ok image) ↔
      0 < (loader.pe.sizeOfImage.getD 0).toNat ∧
      ∀ s ∈ loader.pe.sections, s.Copied →
        s.InBounds bytes.length (((loader.pe.sizeOfImage.getD 0).toNat + 4095) / 4096 * 4096) := by
  have hraw : loader.rawBytes = bytes := by
    unfold parse at hparse
    split at hparse
    · nomatch hparse
    · obtain rfl := Except.ok.inj hparse
      rfl
  rw [mapIntoMemory_ok_iff, toNat_alignedSize, hraw]
  refine and_congr ?_ Iff.rfl
  omega

theorem mapIntoMemory_safe_iff_sample : ∃ image,
    mapIntoMemory ⟨filePe 0x1000 0 shortHeaders,
      peFile 0x1000 0 shortHeaders [0x0F, 0x31, 0xF4]⟩ = .ok image := by
  have hparse : parse (fun _ => .ok (filePe 0x1000 0 shortHeaders))
      (peFile 0x1000 0 shortHeaders [0x0F, 0x31, 0xF4]) = .ok ⟨_, _⟩ := rfl
  refine (mapIntoMemory_safe_iff hparse).mpr ⟨by decide, ?_⟩
  rw [length_peFile]
  decide

/-- The header of a one-page image whose one section starts where the image ends. -/
def overflowHeaders : List SectionHeader := [⟨⟨0x1000, 0x200, 0x200⟩, 0x200⟩]

def overflowFile : Bytes := peFile 0x1000 0 overflowHeaders (List.replicate 0x200 0xCC)

/-- **A copy past the end of the allocation**: the parser accepts the file, and the loop writes
    `0x200` bytes behind the page it has allocated. -/
theorem mapIntoMemory_overflows : ∃ loader,
    parse (fun _ => .ok (filePe 0x1000 0 overflowHeaders)) overflowFile = .ok loader ∧
      loader.mapIntoMemory =
        .error (.undefined "copy_nonoverlapping past the end of the destination") := by
  refine ⟨⟨filePe 0x1000 0 overflowHeaders, overflowFile⟩, rfl, ?_⟩
  have hsize : (alignedSize (filePe 0x1000 0 overflowHeaders)).toNat = 0x1000 := by decide
  have hlen : overflowFile.length = 0x400 := by
    rw [overflowFile, length_peFile, List.length_replicate]
  have hcopy : copySection overflowFile ⟨0x1000, 0x200, 0x200⟩ (List.replicate 0x1000 0) =
      .error (.undefined "copy_nonoverlapping past the end of the destination") := by
    unfold copySection
    dsimp only
    rw [hlen, List.length_replicate, if_pos (by decide), if_neg (by decide), if_neg (by decide),
      if_neg (by decide), if_pos (by decide)]
  unfold mapIntoMemory
  dsimp only
  rw [hsize, if_pos (by decide)]
  show (copySection overflowFile ⟨0x1000, 0x200, 0x200⟩ (List.replicate 0x1000 0) >>=
    copySections overflowFile []) = _
  rw [hcopy]
  rfl

end PeLoader

/-! ## What belongs in a virtual range -/

namespace SectionHeader

/-- Address `a` of the image lies in the section's virtual range. -/
def covers (s : SectionHeader) (a : Nat) : Prop :=
  s.virtualAddress.toNat ≤ a ∧ a < s.virtualAddress.toNat + s.virtualSize.toNat

/-- The virtual ranges have no address in common. -/
def VirtualApart (s s' : SectionHeader) : Prop := ∀ a, ¬ (s.covers a ∧ s'.covers a)

/-- Byte `k` of the virtual range: raw data as far as it goes, then zeros. -/
def byte (rawBytes : Bytes) (s : SectionHeader) (k : Nat) : Option U8 :=
  if s.Copied ∧ k < s.sizeOfRawData.toNat then rawBytes[s.pointerToRawData.toNat + k]? else some 0

instance : Std.Symm VirtualApart := ⟨fun _ _ h a ha => h a ⟨ha.2, ha.1⟩⟩

/-- Where a section is copied over its own virtual range, it leaves its own data. -/
theorem byte_of_writes {rawBytes : Bytes} {s : SectionHeader} {a : Nat} (h : s.writes a = true) :
    s.byte rawBytes (a - s.virtualAddress.toNat) = s.source rawBytes a := by
  obtain ⟨hc, hle, hlt⟩ := Section.writes_iff.mp h
  exact if_pos ⟨hc, by omega⟩

theorem byte_of_not_writes {rawBytes : Bytes} {s : SectionHeader} {k : Nat}
    (h : ¬ s.writes (s.virtualAddress.toNat + k) = true) : s.byte rawBytes k = some 0 := by
  refine if_neg fun hk => h (Section.writes_iff.mpr ⟨hk.1, ?_⟩)
  omega

end SectionHeader

open SectionHeader

/-- The image has every section's data in its virtual range. -/
def FollowsSections (rawBytes : Bytes) (headers : List SectionHeader) (image : Bytes) : Prop :=
  ∀ s ∈ headers, ∀ k < s.virtualSize.toNat,
    image[s.virtualAddress.toNat + k]? = s.byte rawBytes k

/-- What a section spills into the virtual range of another, and no later one is copied over, happens
    to be what belongs there. -/
def SpillsMatch (rawBytes : Bytes) (headers : List SectionHeader) : Prop :=
  ∀ earlier t later, headers = earlier ++ t :: later → ∀ a, t.writes a = true →
    (∀ t' ∈ later, ¬ t'.writes a = true) → ∀ s ∈ headers, s ≠ t → s.covers a →
      t.source rawBytes a = s.byte rawBytes (a - s.virtualAddress.toNat)

namespace PeLoader

open Section

section Sections

variable {headers : List SectionHeader} {sizeOfImage entry : U32} {rawBytes image : Bytes}

/-- Every byte of the image is the one the overlay of the sections leaves there. -/
theorem getElem?_mapIntoMemory
    (h : mapIntoMemory ⟨filePe sizeOfImage entry headers, rawBytes⟩ = .ok image) {a : Nat}
    (ha : a < sizeOfImage.toNat) :
    image[a]? = (overlay (fun s : SectionHeader => s.put rawBytes) headers a).or (some 0) := by
  obtain ⟨-, hloop⟩ := mapIntoMemory_eq_ok.mp h
  dsimp only at hloop
  have hsize : sizeOfImage.toNat ≤ (alignedSize (filePe sizeOfImage entry headers)).toNat := by
    rw [toNat_alignedSize, filePe, Option.getD_some]
    omega
  rw [getElem?_copySections a hloop, List.getElem?_replicate, if_pos (by omega)]
  exact congrArg (Option.or · (some 0)) (congrFun (overlay_map _ headers) a)

/-- An image that could be built had a byte for every place a section is copied to. -/
theorem put_eq_none_iff
    (himage : mapIntoMemory ⟨filePe sizeOfImage entry headers, rawBytes⟩ = .ok image)
    {t : SectionHeader} (ht : t ∈ headers) {a : Nat} :
    t.put rawBytes a = none ↔ ¬ t.writes a = true := by
  constructor
  · intro hnone hw
    have hbounds := (mapIntoMemory_ok_iff.mp ⟨image, himage⟩).2
    have hsome := source_isSome
      (hbounds t.toSection (List.mem_map_of_mem ht) (writes_iff.mp hw).1) hw
    rw [← put_of_writes hw, hnone] at hsome
    cases hsome
  · exact put_of_not_writes

/-- **A spill that matches nothing is a wrong image, and there is no other way to get one.** -/
theorem followsSections_iff
    (hin : ∀ s ∈ headers, s.virtualAddress.toNat + s.virtualSize.toNat ≤ sizeOfImage.toNat)
    (himage : mapIntoMemory ⟨filePe sizeOfImage entry headers, rawBytes⟩ = .ok image) :
    FollowsSections rawBytes headers image ↔ SpillsMatch rawBytes headers := by
  constructor
  · rintro hfollows earlier t later rfl a hw hlater s hs - ⟨hle, hlt⟩
    -- `t` is the last to write `a`, so its byte is the one the image has there
    have hat := hfollows s hs (a - s.virtualAddress.toNat) (by omega)
    have hsize := hin s hs
    obtain ⟨b, hb⟩ := Option.ne_none_iff_exists'.mp
      fun hnone => (put_eq_none_iff himage (by simp)).mp hnone hw
    rw [Nat.add_sub_cancel' hle, getElem?_mapIntoMemory himage (by omega),
      overlay_eq_some_iff.mpr ⟨earlier, t, later, rfl, hb,
        fun t' ht' => put_of_not_writes (hlater t' ht')⟩, Option.some_or, ← hb,
      put_of_writes hw] at hat
    exact hat
  · intro hspills s hs k hk
    have hsize := hin s hs
    rw [getElem?_mapIntoMemory himage (by omega)]
    cases hover : overlay (fun t : SectionHeader => t.put rawBytes) headers
      (s.virtualAddress.toNat + k) with
    | none =>
      -- nothing is copied there, `s` included
      have hs' := overlay_eq_none_iff.mp hover s hs
      exact (byte_of_not_writes ((put_eq_none_iff himage hs).mp hs')).symm
    | some b =>
      obtain ⟨earlier, t, later, hl, hb, hlater⟩ := overlay_eq_some_iff.mp hover
      have hw : t.writes (s.virtualAddress.toNat + k) = true := by
        by_contra hnot
        rw [put_of_not_writes hnot] at hb
        cases hb
      rw [put_of_writes hw] at hb
      rw [Option.some_or, ← hb]
      by_cases hst : s = t
      · rw [hst] at hw ⊢
        rw [← byte_of_writes hw, Nat.add_sub_cancel_left]
      · have hlast : ∀ t' ∈ later, ¬ t'.writes (s.virtualAddress.toNat + k) = true := by
          intro t' ht'
          exact (put_eq_none_iff himage (by simp [hl, ht'])).mp (hlater t' ht')
        rw [hspills earlier t later hl _ hw hlast s hs hst ⟨by omega, by omega⟩,
          Nat.add_sub_cancel_left]

/-- Sections that are no longer in the file than in memory do not spill. -/
theorem spillsMatch_of_le (hdisj : headers.Pairwise VirtualApart)
    (hle : ∀ s ∈ headers, s.Copied → s.sizeOfRawData.toNat ≤ s.virtualSize.toNat) :
    SpillsMatch rawBytes headers := by
  rintro earlier t later rfl a hw - s hs hne hcov
  obtain ⟨hc, hge, hlt⟩ := writes_iff.mp hw
  have hsize := hle t (by simp) hc
  have hapart : s.VirtualApart t := hdisj.forall hs (by simp) hne
  exact absurd ⟨hcov, hge, by omega⟩ (hapart a)

/-- **When the image is what the section table says**: what one section spills into the virtual range
    of another must be hidden by a later copy or be what belongs there anyway.  With raw sizes up to
    the virtual sizes nothing is spilled. -/
theorem image_follows_sections_iff (hdisj : headers.Pairwise VirtualApart)
    (hin : ∀ s ∈ headers, s.virtualAddress.toNat + s.virtualSize.toNat ≤ sizeOfImage.toNat)
    (himage : mapIntoMemory ⟨filePe sizeOfImage entry headers, rawBytes⟩ = .ok image) :
    (FollowsSections rawBytes headers image ↔ SpillsMatch rawBytes headers) ∧
    ((∀ s ∈ headers, s.Copied → s.sizeOfRawData.toNat ≤ s.virtualSize.toNat) →
      FollowsSections rawBytes headers image) := by
  refine ⟨followsSections_iff hin himage, fun hle => ?_⟩
  exact (followsSections_iff hin himage).mpr (spillsMatch_of_le hdisj hle)

end Sections

/-- The program of three bytes is no longer in the file than in memory. -/
theorem image_follows_sections_iff_sample : ∃ image,
    mapIntoMemory ⟨filePe 0x1000 0 shortHeaders,
      peFile 0x1000 0 shortHeaders [0x0F, 0x31, 0xF4]⟩ = .ok image ∧
    FollowsSections (peFile 0x1000 0 shortHeaders [0x0F, 0x31, 0xF4]) shortHeaders image := by
  have hbounds : ∃ image, mapIntoMemory ⟨filePe 0x1000 0 shortHeaders,
      peFile 0x1000 0 shortHeaders [0x0F, 0x31, 0xF4]⟩ = .ok image := by
    refine mapIntoMemory_ok_iff.mpr ⟨by decide, ?_⟩
    rw [length_peFile]
    decide
  obtain ⟨image, himage⟩ := hbounds
  exact ⟨image, himage, (image_follows_sections_iff (List.pairwise_singleton _ _) (by decide)
    himage).2 (by decide)⟩

/-- A section with `0x200` bytes more in the file than in memory, and uninitialised data behind it. -/
def spillHeaders : List SectionHeader :=
  [⟨⟨0x1000, 0x200, 0x1200⟩, 0x1000⟩, ⟨⟨0x2000, 0, 0⟩, 0x1000⟩]

def spillFile : Bytes := peFile 0x3000 0 spillHeaders (List.replicate 0x1200 0xAA)

/-- **Uninitialised data that does not start as zero**: it is where the excess of the section before it
    goes. -/
theorem image_spills : spillHeaders.Pairwise VirtualApart ∧
    (∀ s ∈ spillHeaders, s.virtualAddress.toNat + s.virtualSize.toNat ≤ 0x3000) ∧
    ∃ image, mapIntoMemory ⟨filePe 0x3000 0 spillHeaders, spillFile⟩ = .ok image ∧
      ¬ FollowsSections spillFile spillHeaders image := by
  have hlen : spillFile.length = 0x1400 := by
    rw [spillFile, length_peFile, List.length_replicate]
  have hapart : VirtualApart ⟨⟨0x1000, 0x200, 0x1200⟩, 0x1000⟩ ⟨⟨0x2000, 0, 0⟩, 0x1000⟩ := by
    rintro a ⟨⟨-, hlt⟩, hge, -⟩
    exact absurd (Nat.lt_of_le_of_lt hge hlt) (by decide)
  have hbounds : ∃ image, mapIntoMemory ⟨filePe 0x3000 0 spillHeaders, spillFile⟩ = .ok image := by
    refine mapIntoMemory_ok_iff.mpr ⟨by decide, ?_⟩
    rw [hlen]
    decide
  obtain ⟨image, himage⟩ := hbounds
  refine ⟨List.pairwise_pair.mpr hapart, by decide, image, himage, fun hfollows => ?_⟩
  have hzero := hfollows ⟨⟨0x2000, 0, 0⟩, 0x1000⟩ (by decide) 0 (by decide)
  have hdata : spillFile[0x200 + 0x1000]? = some 0xAA := by
    rw [← List.getElem?_drop, spillFile, drop_peFile, List.getElem?_replicate, if_pos (by decide)]
  have hover : overlay (fun s : SectionHeader => s.put spillFile) spillHeaders 0x2000 =
      some 0xAA :=
    overlay_eq_some_iff.mpr ⟨[], ⟨⟨0x1000, 0x200, 0x1200⟩, 0x1000⟩, [⟨⟨0x2000, 0, 0⟩, 0x1000⟩], rfl,
      (put_of_writes (by decide)).trans hdata, by
        intro s hs
        obtain rfl := List.mem_singleton.mp hs
        exact put_of_not_writes (by decide)⟩
  have hat := getElem?_mapIntoMemory himage (show 0x2000 < (0x3000 : U32).toNat by decide)
  rw [hover] at hat
  have heq : some (0xAA : U8) = some 0 := hat.symm.trans hzero
  revert heq
  decide

end PeLoader

end Vestigium

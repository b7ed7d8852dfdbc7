/-
  LOADING — from the bytes of the target file to what its first instruction finds.

  Between the two stand the parser, the copy loop of `map_into_memory`, four calls of `map_gpa_range`,
  the second-level map they leave behind, the registers of long mode and a walk through tables that
  the guest has in its own memory.  `initialByte` is what all of this comes to: one case for each
  region, in the order in which later calls hide earlier ones, and the section table for the image.

  Nothing bounds the size of the image, so the cases are given for every size.  Up to `0xF0000` bytes
  no region hides another; from `0x101000` on the page tables lie over the image.
-/
import Vestigium.Cli.Verify

namespace Vestigium

/-! ## Through the identity tables -/

/-- Under the identity tables an access below 1 GB is an access to guest-physical memory. -/
theorem access_identity {regs : RegFile} {ram : Ram} {base : U64}
    (hpg : pagingEnabled regs = true) (hcr3 : reg64 (regs .cr3) = base)
    (halign : base.toNat % 4096 = 0) (hfit : base.toNat + 0x3000 ≤ 2 ^ 52)
    (h : ram.Holds base.toNat (PageTable.createIdentityMapping base).memory) (kind : Access)
    (a : U64) : access kind regs ram a =
      if a.toNat < 2 ^ 30 then
        (ram a.toNat).bind fun x => if kind.permitted x.2 then some x.1 else none
      else none := by
  rw [access, translate_identity hpg hcr3 halign hfit h a]
  by_cases ha : a.toNat < 2 ^ 30
  · simp only [ha, if_true, Bool.true_eq_false, and_false, if_false]
    cases ram a.toNat with
    | none => rfl
    | some x => rfl
  · rw [if_neg ha, if_neg ha]

namespace Cli

open Codec
open Vestigium.HashMap (Order)

/-! ## What is mapped -/

/-- The byte at address `a` of a guest with this image: page tables, null page, stack, image. -/
def guestByte (image : Bytes) (a : Nat) : Option U8 :=
  if 0x200000 ≤ a ∧ a < 0x203000 then (PageTable.createIdentityMapping ptGpa).memory[a - 0x200000]?
  else if a < 0x1000 then some 0
  else if 0x100000 + image.length ≤ a ∧ a < 0x110000 + image.length then some 0
  else if 0x100000 ≤ a ∧ a < 0x100000 + image.length then image[a - 0x100000]?
  else none

/-- The byte at address `a` before the first instruction, read off the headers and the file. -/
def initialByte (pe : Pe) (rawBytes : Bytes) (a : Nat) : Option U8 :=
  let size := (PeLoader.alignedSize pe).toNat
  if 2 ^ 30 ≤ a then none
  else if 0x200000 ≤ a ∧ a < 0x203000 then
    (PageTable.createIdentityMapping ptGpa).memory[a - 0x200000]?
  else if a < 0x1000 then some 0
  else if 0x100000 + size ≤ a ∧ a < 0x110000 + size then some 0
  else if 0x100000 ≤ a ∧ a < 0x100000 + size then
    PeLoader.imageByte rawBytes pe.sections (a - 0x100000)
  else none

/-- The newest range is tried first. -/
theorem find?_covers (mp : Mapping) (rest : List Mapping) (a : Nat) :
    (mp :: rest).find? (·.covers a) =
      if mp.gpa ≤ a ∧ a < mp.gpa + mp.size then some mp else rest.find? (·.covers a) := by
  rw [List.find?_cons]
  by_cases hcov : mp.gpa ≤ a ∧ a < mp.gpa + mp.size
  · rw [if_pos hcov, Mapping.covers_iff.mpr hcov]
  · rw [if_neg hcov, Bool.eq_false_iff.mpr fun h => hcov (Mapping.covers_iff.mp h)]

/-- **Guest memory at the start**, for images of every size: the newest range that covers an address
    decides. -/
theorem guest_ram {image : Bytes} (hle : image.length ≤ 2 ^ 33) (halign : image.length % 4096 = 0)
    (a : Nat) : (guest image).ram a = (guestByte image a).map (·, allFlags) := by
  have hsize : (BitVec.ofNat 64 image.length : U64).toNat = image.length := by
    rw [BitVec.toNat_ofNat, Nat.mod_eq_of_lt (by omega)]
  have hmaps : (guest image).maps =
      [⟨0x200000, 0x3000, .pageTable, allFlags⟩, ⟨0, 0x1000, .nullPage, allFlags⟩,
       ⟨0x100000 + image.length, 0x10000, .stack, allFlags⟩,
       ⟨0x100000, image.length, .image, allFlags⟩] := by
    have hgpas := layout_gpas (BitVec.ofNat 64 image.length) (by omega) (by omega)
    rwa [hsize] at hgpas
  have hzero : ∀ n o : Nat, o < n → (List.replicate n (0 : U8))[o]? = some 0 := by
    intro n o ho
    rw [List.getElem?_replicate, if_pos ho]
  rw [Machine.ram, Machine.backing, hmaps, find?_covers, find?_covers, find?_covers, find?_covers,
    guestByte]
  dsimp only
  by_cases hpt : 0x200000 ≤ a ∧ a < 0x203000
  · rw [if_pos (by omega), if_pos hpt]
    dsimp only [guest, guestHost]
  rw [if_neg (by omega), if_neg hpt]
  by_cases hnull : a < 0x1000
  · rw [if_pos (by omega), if_pos hnull]
    dsimp only [guest, guestHost]
    rw [hzero nullSize (a - 0) (by rw [nullSize]; omega)]
  rw [if_neg (by omega), if_neg hnull]
  by_cases hstack : 0x100000 + image.length ≤ a ∧ a < 0x110000 + image.length
  · rw [if_pos (by omega), if_pos hstack]
    dsimp only [guest, guestHost]
    rw [hzero stackSize _ (by rw [stackSize]; omega)]
  rw [if_neg (by omega), if_neg hstack]
  by_cases himage : 0x100000 ≤ a ∧ a < 0x100000 + image.length
  · rw [if_pos himage, if_pos himage]
    rfl
  · rw [if_neg himage, if_neg himage]
    rfl

/-- The page tables are mapped last, so CR3 leads to them whatever the size of the image. -/
theorem guest_finds_tables {image : Bytes} (hle : image.length ≤ 2 ^ 33)
    (halign : image.length % 4096 = 0) :
    (guest image).ram.Holds ptGpa.toNat (PageTable.createIdentityMapping ptGpa).memory := by
  intro o ho
  have ho' : o < 0x3000 := by rwa [PageTable.length_memory] at ho
  have hat : ptGpa.toNat + o = 0x200000 + o := rfl
  rw [Ram.readByte, guest_ram hle halign, guestByte, hat, if_pos (by omega), Nat.add_sub_cancel_left,
    List.getElem?_eq_getElem ho]
  rfl

/-- What an access finds. -/
theorem access_guest {w : Whp} {image : Bytes} (hle : image.length ≤ 2 ^ 33)
    (halign : image.length % 4096 = 0) (size entryPoint : U64) (kind : Access) (a : U64) :
    access kind (startRegs w size entryPoint) (guest image).ram a =
      if a.toNat < 2 ^ 30 then guestByte image a.toNat else none := by
  have hpg : pagingEnabled (startRegs w size entryPoint) = true := by
    rw [pagingEnabled, startRegs_cr0, reg64_ofReg64]
    decide
  have hcr3 : reg64 (startRegs w size entryPoint .cr3) = ptGpa := by
    rw [startRegs_cr3, reg64_ofReg64]
  have hperm : kind.permitted allFlags = true := by cases kind <;> decide
  rw [access_identity hpg hcr3 (by decide) (by decide) (guest_finds_tables hle halign),
    guest_ram hle halign]
  cases guestByte image a.toNat with
  | none => rfl
  | some b =>
    rw [Option.map_some, Option.bind_some]
    dsimp only
    rw [if_pos hperm]

/-! ## From the file -/

/-- The image is the one the section table describes. -/
theorem guestByte_image {pe : Pe} {rawBytes image : Bytes}
    (h : PeLoader.mapIntoMemory ⟨pe, rawBytes⟩ = .ok image) (a : Nat) :
    (if a < 2 ^ 30 then guestByte image a else none) = initialByte pe rawBytes a := by
  have hlen := (PeLoader.length_mapIntoMemory h).1
  obtain ⟨-, hcopy⟩ := PeLoader.mapIntoMemory_eq_ok.mp h
  rw [guestByte, initialByte]
  dsimp only at hlen hcopy ⊢
  rw [hlen]
  by_cases hhigh : 2 ^ 30 ≤ a
  · rw [if_neg (by omega), if_pos hhigh]
  rw [if_pos (by omega), if_neg hhigh]
  by_cases hin : 0x100000 ≤ a ∧ a < 0x100000 + (PeLoader.alignedSize pe).toNat
  · rw [if_pos hin, if_pos hin, PeLoader.getElem?_image hcopy (by omega)]
  · rw [if_neg hin, if_neg hin]

/-- **What the guest finds.**  In every recording that completes, whatever the size of the image, RIP
    starts at the entry point and RSP at the end of the stack, and an access of any kind to any linear
    address finds the byte that the section table puts there, the page tables, the zeroed null page
    or stack, or nothing.  So does the guest of every replay of it, if the regions keep apart. -/
theorem guest_finds_program {w : Whp} {sim : SimAnswers} {peParse : PeParser} {hasher : Bytes → U64}
    {ordHash ordWrite : Order U64 AlignedMemory} {fuel : Nat} {target : Bytes} {rec : Recording}
    (hrecord : record w sim peParse hasher ordHash ordWrite fuel target = .ok rec) :
    ∃ pe, peParse target = .ok pe ∧
      reg64 ((rec.start.vps 0).regs .rip) = 0x100000 + pe.entry.setWidth 64 ∧
      (reg64 ((rec.start.vps 0).regs .rsp)).toNat =
        0x110000 + (PeLoader.alignedSize pe).toNat ∧
      (∀ kind a, access kind (rec.start.vps 0).regs rec.start.ram a =
        initialByte pe target a.toNat) ∧
      (rec.size.toNat ≤ 0xF0000 → ∀ ordRestore ordHash' passes rep,
        replayRun w hasher ordRestore ordHash' passes rec.archive = .ok rep →
        ∀ kind a, access kind (rep.start.vps 0).regs rep.start.ram a =
          initialByte pe target a.toNat) := by
  obtain ⟨loader, image, hparse, himage, hrec⟩ := record_eq_ok.mp hrecord
  obtain ⟨pe, hpe, rfl⟩ := PeLoader.parse_eq_ok.mp hparse
  obtain ⟨hsize, -, halign, -⟩ := size_of_image himage
  have hlen := (PeLoader.length_mapIntoMemory himage).1
  have hround := PeLoader.toNat_alignedSize pe
  have hheader : (pe.sizeOfImage.getD 0).toNat < 2 ^ 32 := (pe.sizeOfImage.getD 0).isLt
  dsimp only at hsize hlen
  have hle : image.length ≤ 2 ^ 33 := by omega
  have hstart : ∀ kind a, access kind (rec.start.vps 0).regs rec.start.ram a =
      initialByte pe target a.toNat := by
    intro kind a
    rw [hrec.start, Machine.setVp_vps_self, Machine.setVp_ram, access_guest hle halign,
      guestByte_image himage]
  refine ⟨pe, hpe, ?_, ?_, hstart, ?_⟩
  · rw [hrec.start, Machine.setVp_vps_self]
    exact reg64_ofReg64 _
  · rw [hrec.start, Machine.setVp_vps_self]
    have hrsp : reg64 (startRegs w rec.size (PeLoader.entryPoint ⟨pe, target⟩) .rsp) =
        stackGpa rec.size := reg64_ofReg64 _
    rw [hrsp, hrec.size, hsize, stackGpa, BitVec.toNat_add, toNat_stackBaseGpa (by omega),
      BitVec.toNat_ofNat, stackSize]
    omega
  · intro hsmall ordRestore ordHash' passes rep hreplay kind a
    have hm := hrec.wellLaidOut himage hsmall
    have hdecode := decode_written ordWrite rec.snapshot rec.events rec.hash
    rw [← hrec.archive] at hdecode
    have hregs := hrec.registers
    have hrep := (replayRun_eq_ok hdecode (by rw [hregs]; rfl)).mp hreplay
    rw [hrec.start, Machine.setVp_vps_self] at hregs
    have heq : GuestEq ⟨0⟩ rec.start rep.start := by
      rw [hrec.start, hrep.start]
      exact restored_guestEq hm (hrec.pictures hm) hregs
    rw [← heq.regs, ← heq.ram]
    exact hstart kind a

/-- RDTSC; HLT: the HLT is fetched from the third byte of the image. -/
theorem guest_finds_program_sample : ∃ rec,
    record SampleCpu.whp simulated (fun _ => .ok samplePe) sampleHasher (HashMap.someOrder _ _)
        (HashMap.someOrder _ _) 2 sampleFile = .ok rec ∧
      access .fetch (rec.start.vps 0).regs rec.start.ram 0x100002 = some 0xF4 := by
  obtain ⟨rec, hrecord, -⟩ := sample_record (HashMap.someOrder _ _) (HashMap.someOrder _ _)
  obtain ⟨pe, hpe, -, -, hfinds, -⟩ := guest_finds_program hrecord
  cases hpe
  refine ⟨rec, hrecord, ?_⟩
  have hsize : (PeLoader.alignedSize samplePe).toNat = 4096 := by decide
  have hbyte : PeLoader.imageByte sampleFile samplePe.sections 2 = some 0xF4 := by
    have hwriter : PeLoader.lastWriter samplePe.sections 2 = some ⟨0, 0x200, 3⟩ := rfl
    rw [PeLoader.imageByte, hwriter, Option.elim_some, Section.source]
    show sampleFile[0x200 + 2]? = some 0xF4
    rw [← List.getElem?_drop, sampleFile, drop_peFile]
    rfl
  rw [hfinds, initialByte, hsize, show (0x100002 : U64).toNat = 0x100002 from rfl]
  simp only [Nat.reduceLeDiff, Nat.reduceLT, Nat.reduceAdd, Nat.reducePow, false_and, and_self,
    if_false, if_true]
  exact hbyte

end Cli

end Vestigium

/-
  WHAT THE GUEST CAN REACH — the memory of a guest the Record command has set up.

  Two translations stand between a linear address and a byte: the identity tables, which the guest
  finds in its own memory, and the ranges mapped for it.  `access_iff_mapped` composes them for every
  address and every kind of access: what goes through is exactly the four mapped regions.  The null
  page is one of the four, although it is there "to trap null pointer dereferences".
-/
import Vestigium.Cli.Record
import Vestigium.Engine.Image
import Vestigium.Vmm.SampleCpu

namespace Vestigium.Cli

open Codec

/-! ## The layout of a recorded guest -/

theorem size_of_image {loader : PeLoader} {image : Bytes} (h : loader.mapIntoMemory = .ok image) :
    BitVec.ofNat 64 image.length = PeLoader.alignedSize loader.pe ∧ image.length < 2 ^ 64 ∧
      image.length % 4096 = 0 ∧ 0 < image.length := by
  obtain ⟨hlen, hpos⟩ := PeLoader.length_mapIntoMemory h
  have hsize := PeLoader.toNat_alignedSize loader.pe
  have hlt : (PeLoader.alignedSize loader.pe).toNat < 2 ^ 64 := (PeLoader.alignedSize loader.pe).isLt
  refine ⟨?_, by omega, by omega, hpos⟩
  rw [hlen, BitVec.ofNat_toNat, BitVec.setWidth_eq]

/-- **The layout the Record command gives a guest** is the one its header asks for, and the snapshot
    of a sound one holds all four regions, each with its bytes; it is sound for images of `1` to
    `0xF0000` bytes with the entry point inside, and for no others. -/
theorem record_layout_sound_iff (pe : Pe) :
    (Sound (PeLoader.alignedSize pe) (pe.entry.setWidth 64) ↔
      0 < (pe.sizeOfImage.getD 0).toNat ∧ (pe.sizeOfImage.getD 0).toNat ≤ 0xF0000 ∧
        pe.entry.toNat < ((pe.sizeOfImage.getD 0).toNat + 4095) / 4096 * 4096) ∧
    ∀ w rawBytes image m, PeLoader.mapIntoMemory ⟨pe, rawBytes⟩ = .ok image →
      mapGuest w image = .ok m → m.maps = layout (PeLoader.alignedSize pe) ∧
      ∀ snap, captureMemoryLayout (PeLoader.alignedSize pe) m = .ok snap →
        Sound (PeLoader.alignedSize pe) (pe.entry.setWidth 64) →
        ∀ r ∈ captures (PeLoader.alignedSize pe) m, ∃ mem,
          snap.memoryRegions.lookup r.1 = some mem ∧ mem.bytes = r.2.1 := by
  refine ⟨layout_sound_iff pe, fun w rawBytes image m himage hmap => ?_⟩
  obtain ⟨hsize, hlt, -, -⟩ := size_of_image himage
  obtain ⟨-, rfl⟩ := mapGuest_eq_ok.mp hmap
  have hmaps : (guest image).maps = layout (PeLoader.alignedSize pe) := by
    rw [guest]
    exact congrArg layout hsize
  refine ⟨hmaps, fun snap hsnap hsound => ?_⟩
  exact (captureMemoryLayout_lookup hsound.keys hmaps (guest_full hlt) hsnap).1

theorem record_layout_sound_iff_sample :
    Sound (PeLoader.alignedSize ⟨some 0x3000, 0x1000, []⟩) 0x1000 :=
  (record_layout_sound_iff ⟨some 0x3000, 0x1000, []⟩).1.mpr (by decide)

/-! ## Accesses -/

/-- Where the guest can reach: one of the mapped regions. -/
def Mapped (size : U64) (a : Nat) : Prop := ∃ mp ∈ layout size, mp.covers a = true

/-- The image, the stack or the page tables. -/
def Intended (size : U64) (a : Nat) : Prop :=
  ∃ mp ∈ layout size, mp.buf ≠ .nullPage ∧ mp.covers a = true

/-- The page tables are where CR3 says. -/
theorem guest_holds_tables {image : Bytes} (hdisj : Machine.DisjointMaps (guest image).maps) :
    (guest image).ram.Holds ptGpa.toNat (PageTable.createIdentityMapping ptGpa).memory := by
  intro o ho
  have hmem : ⟨ptGpa.toNat, ptSize, .pageTable, allFlags⟩ ∈ (guest image).maps := by
    simp [guest, layout]
  have ho' : o < ptSize := by rwa [PageTable.length_memory] at ho
  rw [Ram.readByte, Machine.ram_of_mem hdisj hmem ho']
  simp only [guest, guestHost, List.getElem?_eq_getElem ho, Option.map_some]
  rfl

/-- **The guest reaches what is mapped**, with every kind of access, and nothing else. -/
theorem access_iff_mapped {w : Whp} {image : Bytes} (hlt : image.length < 2 ^ 64)
    (halign : image.length % 4096 = 0) (hle : image.length ≤ 0xF0000) (entryPoint : U64)
    (kind : Access) (a : U64) :
    (access kind (startRegs w (BitVec.ofNat 64 image.length) entryPoint) (guest image).ram a).isSome =
      true ↔ Mapped (BitVec.ofNat 64 image.length) a.toNat := by
  have hsize : (BitVec.ofNat 64 image.length).toNat = image.length := by
    rw [BitVec.toNat_ofNat, Nat.mod_eq_of_lt hlt]
  have hdisj : Machine.DisjointMaps (guest image).maps :=
    layout_disjoint (by rw [hsize]; exact halign) (by rw [hsize]; exact hle)
  have hpg : pagingEnabled (startRegs w (BitVec.ofNat 64 image.length) entryPoint) = true := by
    rw [pagingEnabled, startRegs_cr0, reg64_ofReg64]
    decide
  have hcr3 : reg64 (startRegs w (BitVec.ofNat 64 image.length) entryPoint .cr3) = ptGpa := by
    rw [startRegs_cr3, reg64_ofReg64]
  rw [access_isSome_iff hpg hcr3 (by decide) (by decide) (guest_holds_tables hdisj)]
  have hperm : kind.permitted allFlags = true := by cases kind <;> decide
  have hflags : ∀ mp ∈ layout (BitVec.ofNat 64 image.length), mp.flags = allFlags := by
    intro mp hmp
    simp only [layout, List.mem_cons, List.not_mem_nil, or_false] at hmp
    rcases hmp with rfl | rfl | rfl | rfl <;> rfl
  have hbelow : ∀ mp ∈ layout (BitVec.ofNat 64 image.length), mp.gpa + mp.size ≤ 2 ^ 30 := by
    intro mp hmp
    rw [layout_gpas _ (by omega) (by omega), hsize] at hmp
    simp only [List.mem_cons, List.not_mem_nil, or_false] at hmp
    rcases hmp with rfl | rfl | rfl | rfl <;> dsimp only <;> omega
  constructor
  · -- the page walk translates every address below 1 GB to itself, so the map alone decides
    rintro ⟨-, b, flags, hb, -⟩
    obtain ⟨mp, hmem, hcov, -⟩ := (Machine.ram_eq_some_iff hdisj (guest_full hlt)).mp ⟨b, hb⟩
    exact ⟨mp, hmem, hcov⟩
  · rintro ⟨mp, hmem, hcov⟩
    obtain ⟨b, hb⟩ := (Machine.ram_eq_some_iff hdisj (guest_full hlt)).mpr ⟨mp, hmem, hcov, rfl⟩
    have hlt := (Mapping.covers_iff.mp hcov).2
    have hle := hbelow mp hmem
    exact ⟨by omega, b, mp.flags, hb, by rwa [hflags mp hmem]⟩

/-- What is mapped and not intended is the null page, which is apart from all that is. -/
theorem mapped_iff (size : U64) (halign : size.toNat % 4096 = 0) (hle : size.toNat ≤ 0xF0000)
    (a : Nat) : (Mapped size a ↔ Intended size a ∨ a < 0x1000) ∧
      (Intended size a → ¬ a < 0x1000) := by
  rw [Mapped, Intended, layout_gpas size (by omega) halign]
  simp only [List.mem_cons, List.not_mem_nil, or_false, exists_eq_or_imp, exists_eq_left,
    Mapping.covers_iff, ne_eq, reduceCtorEq, not_true_eq_false, not_false_eq_true, true_and,
    false_and, false_or]
  omega

/-- **The intended isolation**, that exactly the image, the stack and the page tables are reachable,
    holds at every address outside the null page and at none inside it. -/
theorem guest_isolation_iff {w : Whp} {loader : PeLoader} {image : Bytes} {m m' : Machine}
    {vcpu : Vcpu} {entryPoint : U64} (himage : loader.mapIntoMemory = .ok image)
    (hle : image.length ≤ 0xF0000) (hmap : mapGuest w image = .ok m)
    (hstart : startVcpu w (BitVec.ofNat 64 image.length) entryPoint m = .ok (vcpu, m'))
    (kind : Access) (a : U64) :
    ((access kind (m'.vps vcpu.index).regs m'.ram a).isSome = true ↔
      Intended (BitVec.ofNat 64 image.length) a.toNat) ↔ ¬ a.toNat < 0x1000 := by
  obtain ⟨-, hlt, halign, -⟩ := size_of_image himage
  obtain ⟨-, rfl⟩ := mapGuest_eq_ok.mp hmap
  obtain ⟨-, -, rfl, rfl⟩ := startVcpu_eq_ok.mp hstart
  have hsize : (BitVec.ofNat 64 image.length).toNat = image.length := by
    rw [BitVec.toNat_ofNat, Nat.mod_eq_of_lt hlt]
  obtain ⟨hmapped, hapart⟩ := mapped_iff (BitVec.ofNat 64 image.length)
    (by rw [hsize]; exact halign) (by rw [hsize]; exact hle) a.toNat
  rw [Machine.setVp_vps_self, Machine.setVp_ram, access_iff_mapped hlt halign hle, hmapped]
  constructor
  · intro hiff hnull
    exact hapart (hiff.mp (.inr hnull)) hnull
  · intro hnull
    exact ⟨fun h => h.resolve_right hnull, .inl⟩

/-- The header of a one-page guest: RDTSC; HLT. -/
def samplePe : Pe := filePe 0x1000 0 shortHeaders

/-- Its file. -/
def sampleFile : Bytes := peFile 0x1000 0 shortHeaders [0x0F, 0x31, 0xF4]

/-- It maps to one page that starts with the code. -/
def sampleImage : Bytes := [0x0F, 0x31, 0xF4] ++ List.replicate 4093 0

theorem sampleImage_length : sampleImage.length = 4096 := by
  rw [sampleImage, List.length_append, List.length_replicate]
  rfl

theorem sample_mapIntoMemory : PeLoader.mapIntoMemory ⟨samplePe, sampleFile⟩ = .ok sampleImage := by
  have hsize : (PeLoader.alignedSize samplePe).toNat = 4096 := by decide
  have hcopy : PeLoader.copySection sampleFile ⟨0, 0x200, 3⟩ (List.replicate 4096 0) =
      .ok sampleImage := by
    rw [PeLoader.copySection_of_inBounds (by decide) (by decide)
      (by rw [sampleFile, length_peFile]; decide) (by rw [List.length_replicate]; decide),
      List.drop_replicate]
    dsimp only
    rw [show (0x200 : U32).toNat = 0x200 from rfl, sampleFile, drop_peFile]
    rfl
  rw [PeLoader.mapIntoMemory, hsize, if_pos (by decide)]
  show (PeLoader.copySection sampleFile ⟨0, 0x200, 3⟩ _ >>= PeLoader.copySections sampleFile []) = _
  rw [hcopy]
  rfl

/-- The sample guest reads from its stack. -/
theorem guest_isolation_iff_sample :
    ((access .read (startRegs SampleCpu.whp (BitVec.ofNat 64 sampleImage.length) 0)
        (guest sampleImage).ram 0x101008).isSome = true ↔
      Intended (BitVec.ofNat 64 sampleImage.length) (0x101008 : U64).toNat) := by
  have hmap : mapGuest SampleCpu.whp sampleImage = .ok (guest sampleImage) :=
    mapGuest_eq_ok.mpr ⟨⟨⟨rfl, rfl, rfl, rfl⟩, rfl, rfl, rfl, rfl⟩, rfl⟩
  have hstart : startVcpu SampleCpu.whp (BitVec.ofNat 64 sampleImage.length) 0 (guest sampleImage) =
      .ok (⟨0⟩, (guest sampleImage).setVp 0
        ⟨startRegs SampleCpu.whp (BitVec.ofNat 64 sampleImage.length) 0, 0⟩) :=
    startVcpu_eq_ok.mpr ⟨⟨rfl, rfl⟩, rfl, rfl, rfl⟩
  have h := (guest_isolation_iff sample_mapIntoMemory (by rw [sampleImage_length]; decide) hmap
    hstart .read 0x101008).mpr (by decide)
  rwa [Machine.setVp_vps_self, Machine.setVp_ram] at h

/-- **A write through a null pointer goes through.** -/
theorem null_write_completes :
    (access .write (startRegs SampleCpu.whp (BitVec.ofNat 64 sampleImage.length) 0)
        (guest sampleImage).ram 0).isSome = true ∧
      ¬ Intended (BitVec.ofNat 64 sampleImage.length) (0 : U64).toNat := by
  have hsize : (BitVec.ofNat 64 sampleImage.length).toNat = 4096 := by
    rw [sampleImage_length]
    rfl
  obtain ⟨hmapped, hapart⟩ := mapped_iff (BitVec.ofNat 64 sampleImage.length)
    (by rw [hsize]) (by rw [hsize]; decide) (0 : U64).toNat
  refine ⟨?_, fun h => hapart h (by decide)⟩
  rw [access_iff_mapped (by rw [sampleImage_length]; decide) (by rw [sampleImage_length])
    (by rw [sampleImage_length]; decide), hmapped]
  exact .inr (by decide)

end Vestigium.Cli

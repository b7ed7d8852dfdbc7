/-
  THE RECORD COMMAND — `Commands::Record` of `cli/src/main.rs`.

  The source is one straight line; it is cut here where its own comments cut it: map the guest
  (`mapGuest`), take a snapshot of the layout (`captureMemoryLayout`), set the vCPU up (`startVcpu`),
  run the recorder, and put the archive together (`record`).  What each piece leaves behind is given
  as a value — `guest`, `started` — and the lemma beside it says the piece returns that value iff the
  hypervisor refuses none of its calls.
-/
import Vestigium.Cli.Layout
import Vestigium.Engine.Archive
import Vestigium.Engine.Record

namespace Vestigium

open Codec
open Vestigium.HashMap (Order)
open Vestigium.Loop (bind_eq_ok)

/-- `Result::expect`: an `Err` becomes a panic. -/
def expect {α : Type} (msg : String) : Except Fail α → Except Fail α
  | .error (.whp _) => .error (.panic msg)
  | .error (.goblin _) => .error (.panic msg)
  | .error (.bincode _) => .error (.panic msg)
  | r => r

theorem expect_eq_ok {α : Type} {msg : String} {x : Except Fail α} {a : α} :
    expect msg x = .ok a ↔ x = .ok a := by
  cases x with
  | ok b => exact Iff.rfl
  | error e => cases e <;> simp [expect]

namespace Cli

/-! ## Mapping the guest -/

/-- Partition, image, stack, null page and page tables. -/
def mapGuest (w : Whp) (image : Bytes) : Except Fail Machine := do
  let m ← expect "Failed to create VM partition" (VmPartition.new w)
  let m ← expect "Failed to configure interceptions" (VmPartition.configureInterceptions w m)
  let size : U64 := BitVec.ofNat 64 image.length
  let m ← expect "Failed to map target memory"
    (EptManager.mapGpaRange w baseGpa .image size allFlags (m.alloc .image image))
  let stackMemory ← AlignedMemory.new stackSize
  let m ← expect "Failed to map stack memory"
    (EptManager.mapGpaRange w (stackBaseGpa size) .stack (BitVec.ofNat 64 stackSize) allFlags
      (m.alloc .stack stackMemory.bytes))
  let nullPage ← AlignedMemory.new nullSize
  let m ← expect "Failed to map null page"
    (EptManager.mapGpaRange w 0x0 .nullPage (BitVec.ofNat 64 nullSize) allFlags
      (m.alloc .nullPage nullPage.bytes))
  let pageTable := PageTable.createIdentityMapping ptGpa
  expect "Failed to map page tables"
    (EptManager.mapGpaRange w ptGpa .pageTable (BitVec.ofNat 64 pageTable.size) allFlags
      (m.alloc .pageTable pageTable.memory))

/-- What is in the host buffers then. -/
def guestHost (image : Bytes) : HostMem
  | .image => image
  | .stack => List.replicate stackSize 0
  | .nullPage => List.replicate nullSize 0
  | .pageTable => (PageTable.createIdentityMapping ptGpa).memory
  | .region _ => []

/-- The partition with the guest mapped, before there is a vCPU. -/
def guest (image : Bytes) : Machine where
  vps := fun _ => ⟨fun _ => 0, 0⟩
  maps := layout (BitVec.ofNat 64 image.length)
  host := guestHost image
  extendedVmExits := VmPartition.interceptions

/-- The calls that create a partition with its intercepts succeed. -/
def PartitionCallsSucceed (w : Whp) : Prop :=
  w.fault .createPartition = none ∧ w.fault (.setProcessorCount 4) = none ∧
  w.fault .setupPartition = none ∧ w.fault (.setExtendedVmExits VmPartition.interceptions) = none

/-- The calls `mapGuest` makes succeed. -/
def MapCallsSucceed (w : Whp) (size : U64) : Prop :=
  PartitionCallsSucceed w ∧
  w.fault (.mapGpaRange baseGpa size allFlags) = none ∧
  w.fault (.mapGpaRange (stackBaseGpa size) (BitVec.ofNat 64 stackSize) allFlags) = none ∧
  w.fault (.mapGpaRange 0x0 (BitVec.ofNat 64 nullSize) allFlags) = none ∧
  w.fault (.mapGpaRange ptGpa (BitVec.ofNat 64 ptSize) allFlags) = none

theorem alignedMemory_new {n : Nat} (hpos : 0 < n) (hmax : n ≤ maxLayoutSize) :
    ∃ mem : AlignedMemory, AlignedMemory.new n = .ok mem ∧ mem.bytes = List.replicate n 0 :=
  ⟨⟨List.replicate n 0, by rwa [List.length_replicate], by rwa [List.length_replicate]⟩,
    AlignedMemory.newFrom_eq_ok.mpr rfl, rfl⟩

theorem mapGuest_eq_ok {w : Whp} {image : Bytes} {m : Machine} :
    mapGuest w image = .ok m ↔
      MapCallsSucceed w (BitVec.ofNat 64 image.length) ∧ m = guest image := by
  obtain ⟨stack, hstack, hstackBytes⟩ := alignedMemory_new (n := stackSize) (by decide) (by decide)
  obtain ⟨null, hnull, hnullBytes⟩ := alignedMemory_new (n := nullSize) (by decide) (by decide)
  have hhost : ∀ m : Machine, m.host = (fun _ => []) →
      ((((m.alloc .image image).alloc .stack stack.bytes).alloc .nullPage null.bytes).alloc
        .pageTable (PageTable.createIdentityMapping ptGpa).memory).host = guestHost image := by
    intro m hm
    funext buf
    cases buf <;> simp [Machine.alloc, Machine.withHost, guestHost, hm, hstackBytes, hnullBytes]
  simp only [mapGuest, bind_eq_ok, expect_eq_ok, VmPartition.new_eq_ok,
    VmPartition.configureInterceptions_eq_ok, EptManager.mapGpaRange_eq_ok, hstack, hnull,
    Except.ok.injEq]
  have hguest := hhost ⟨fun _ => ⟨fun _ => 0, 0⟩, [], fun _ => [], VmPartition.interceptions⟩ rfl
  rw [guest, ← hguest]
  constructor
  · rintro ⟨m1, ⟨h1, h2, h3, rfl⟩, m2, ⟨h4, rfl⟩, m3, ⟨h5, rfl⟩, _, rfl, m4, ⟨h6, rfl⟩, _, rfl, m5,
      ⟨h7, rfl⟩, h8, rfl⟩
    exact ⟨⟨⟨h1, h2, h3, h4⟩, h5, h6, h7, h8⟩, rfl⟩
  · rintro ⟨⟨⟨h1, h2, h3, h4⟩, h5, h6, h7, h8⟩, rfl⟩
    exact ⟨_, ⟨h1, h2, h3, rfl⟩, _, ⟨h4, rfl⟩, _, ⟨h5, rfl⟩, _, rfl, _, ⟨h6, rfl⟩, _, rfl, _,
      ⟨h7, rfl⟩, h8, rfl⟩

theorem guest_unaliased (image : Bytes) : Machine.Unaliased (guest image).maps :=
  layout_unaliased _

/-- Every range is backed by a buffer of its size. -/
theorem guest_full {image : Bytes} (h : image.length < 2 ^ 64) : (guest image).Full := by
  intro mp hmp
  simp only [guest, layout, List.mem_cons, List.not_mem_nil, or_false] at hmp
  rcases hmp with rfl | rfl | rfl | rfl <;> simp only [guest, guestHost]
  · rw [PageTable.length_memory, ptSize]
  · rw [List.length_replicate]
  · rw [List.length_replicate]
  · rw [BitVec.toNat_ofNat, Nat.mod_eq_of_lt h]

/-- A recording remaps and resizes nothing. -/
theorem guest_sameShape {w : Whp} {sim : SimAnswers} {image : Bytes} {vp : Vp} {fuel : Nat}
    {stop : Stopped}
    (h : RecordEngine.run w sim ⟨0⟩ fuel ((guest image).setVp 0 vp) = .ok stop) :
    (guest image).SameShape stop.state.machine :=
  RecordEngine.run_kept (Kept.sameShape w ⟨0⟩ _) (Machine.SameShape.setVp _ _ _) h

/-! ## The snapshot of the layout -/

/-- Capture several regions, one after the other: key, host bytes, size. -/
def captureAll : List (U64 × Bytes × Nat) → Snapshot → Except Fail Snapshot
  | [], snap => .ok snap
  | (gpa, host, size) :: rest, snap => do
    let snap ← snap.captureRegion gpa host size
    captureAll rest snap

/-- The regions of the layout, as the Record command captures them. -/
def captures (size : U64) (m : Machine) : List (U64 × Bytes × Nat) :=
  [(0x0, m.host .nullPage, nullSize),
   (baseGpa, m.host .image, size.toNat),
   (stackBaseGpa size, m.host .stack, stackSize),
   (ptGpa, m.host .pageTable, ptSize)]

/-- `capture_memory_layout`. -/
def captureMemoryLayout (size : U64) (m : Machine) : Except Fail Snapshot :=
  captureAll (captures size m) Snapshot.new

/-- What is captured under the key `g` last. -/
def capturedAt (g : U64) : List (U64 × Bytes × Nat) → Option Bytes
  | [] => none
  | (gpa, host, _) :: rest => (capturedAt g rest).or (if gpa = g then some host else none)

/-- **What a snapshot holds afterwards**: under each key what was captured there last, and what was
    there before if nothing was. -/
theorem captureAll_contents (g : U64) : ∀ {rs : List (U64 × Bytes × Nat)} {snap snap' : Snapshot},
    (∀ r ∈ rs, r.2.1.length = r.2.2) → captureAll rs snap = .ok snap' →
    (snap'.memoryRegions.lookup g).map (·.bytes) =
      (capturedAt g rs).or ((snap.memoryRegions.lookup g).map (·.bytes))
  | [], snap, snap', _, h => by
    cases h
    rw [capturedAt, Option.none_or]
  | (gpa, host, size) :: rest, snap, snap', hlen, h => by
    obtain ⟨snap1, h1, h2⟩ := bind_eq_ok.mp h
    have hsize : host.length = size := hlen _ List.mem_cons_self
    rw [← hsize] at h1
    obtain ⟨-, mem, hmem, hins⟩ := Snapshot.captureRegion_eq_ok h1
    rw [captureAll_contents g (fun r hr => hlen r (List.mem_cons_of_mem _ hr)) h2, hins, capturedAt,
      Option.or_assoc]
    congr 1
    by_cases hg : gpa = g
    · rw [if_pos hg, ← hg, Finmap.lookup_insert, Option.map_some, hmem, Option.some_or]
    · rw [if_neg hg, Finmap.lookup_insert_of_ne _ (Ne.symm hg), Option.none_or]

theorem capturedAt_eq_none {g : U64} : ∀ {rs : List (U64 × Bytes × Nat)},
    capturedAt g rs = none ↔ g ∉ rs.map (·.1)
  | [] => by simp [capturedAt]
  | (gpa, host, size) :: rest => by
    rw [capturedAt, Option.or_eq_none_iff, capturedAt_eq_none, List.map_cons, List.mem_cons, not_or]
    simp [and_comm, eq_comm]

theorem mem_of_capturedAt {g : U64} {bytes : Bytes} : ∀ {rs : List (U64 × Bytes × Nat)},
    capturedAt g rs = some bytes → ∃ r ∈ rs, r.1 = g ∧ r.2.1 = bytes
  | (gpa, host, size) :: rest, h => by
    rw [capturedAt, Option.or_eq_some_iff] at h
    rcases h with h | ⟨-, h⟩
    · obtain ⟨r, hr, hat⟩ := mem_of_capturedAt h
      exact ⟨r, List.mem_cons_of_mem _ hr, hat⟩
    · obtain ⟨hg, hbytes⟩ := Option.ite_none_right_eq_some.mp h
      exact ⟨_, List.mem_cons_self, hg, Option.some.inj hbytes⟩

/-- No later region has the key of an earlier one. -/
theorem capturedAt_of_nodup : ∀ {rs : List (U64 × Bytes × Nat)}, (rs.map (·.1)).Nodup →
    ∀ r ∈ rs, capturedAt r.1 rs = some r.2.1
  | (gpa, host, size) :: rest, hnodup, r, hr => by
    rw [List.map_cons, List.nodup_cons] at hnodup
    rw [capturedAt]
    rcases List.mem_cons.mp hr with rfl | hr
    · rw [capturedAt_eq_none.mpr hnodup.1, Option.none_or, if_pos rfl]
    · rw [capturedAt_of_nodup hnodup.2 r hr, Option.some_or]

/-- Regions of a size that can be allocated are captured. -/
theorem captureAll_of_sizes : ∀ (rs : List (U64 × Bytes × Nat)) (snap : Snapshot),
    (∀ r ∈ rs, r.2.1.length = r.2.2 ∧ 0 < r.2.2 ∧ r.2.2 ≤ maxLayoutSize) →
    snap.memoryRegions.entries.card + rs.length < 2 ^ 64 → ∃ snap', captureAll rs snap = .ok snap'
  | [], snap, _, _ => ⟨snap, rfl⟩
  | (gpa, host, size) :: rest, snap, hrs, hcard => by
    obtain ⟨hlen, hpos, hmax⟩ := hrs _ List.mem_cons_self
    dsimp only at hlen hpos hmax
    subst hlen
    rw [List.length_cons] at hcard
    have hins := HashMap.card_insert_le snap.memoryRegions gpa ⟨host, hpos, hmax⟩
    have h1 := Snapshot.captureRegion_of_size snap gpa ⟨host, hpos, hmax⟩ (by omega)
    obtain ⟨snap', h2⟩ := captureAll_of_sizes rest { snap with
      memoryRegions := snap.memoryRegions.insert gpa ⟨host, hpos, hmax⟩
      regions_lt := by omega } (fun r hr => hrs r (List.mem_cons_of_mem _ hr)) (by dsimp only; omega)
    exact ⟨snap', bind_eq_ok.mpr ⟨_, h1, h2⟩⟩

/-- The captured regions are the mapped ones. -/
theorem mem_captures {size : U64} {m : Machine} {mp : Mapping} (h : mp ∈ layout size) :
    (BitVec.ofNat 64 mp.gpa, m.host mp.buf, mp.size) ∈ captures size m := by
  simp only [layout, List.mem_cons, List.not_mem_nil, or_false] at h
  rcases h with rfl | rfl | rfl | rfl <;> simp [captures]

theorem mem_layout_of_captures {size : U64} {m : Machine} {r : U64 × Bytes × Nat}
    (h : r ∈ captures size m) : ∃ mp ∈ layout size, mp.gpa = r.1.toNat ∧ mp.size = r.2.2 ∧
      r.2.1 = m.host mp.buf := by
  simp only [captures, List.mem_cons, List.not_mem_nil, or_false] at h
  rcases h with rfl | rfl | rfl | rfl
  · exact ⟨⟨0, nullSize, .nullPage, allFlags⟩, by simp [layout], rfl, rfl, rfl⟩
  · exact ⟨⟨baseGpa.toNat, size.toNat, .image, allFlags⟩, by simp [layout], rfl, rfl, rfl⟩
  · exact ⟨⟨(stackBaseGpa size).toNat, stackSize, .stack, allFlags⟩, by simp [layout], rfl, rfl, rfl⟩
  · exact ⟨⟨ptGpa.toNat, ptSize, .pageTable, allFlags⟩, by simp [layout], rfl, rfl, rfl⟩

/-- Every region is captured whole. -/
theorem captures_length {size : U64} {m : Machine} (hmaps : m.maps = layout size) (hfull : m.Full) :
    ∀ r ∈ captures size m, r.2.1.length = r.2.2 := by
  intro r hr
  obtain ⟨mp, hmp, -, hsize, hhost⟩ := mem_layout_of_captures hr
  rw [hhost, ← hsize]
  exact hfull mp (by rwa [hmaps])

/-- What the snapshot of the layout holds. -/
theorem captureMemoryLayout_contents {size : U64} {m : Machine} {snap : Snapshot}
    (hmaps : m.maps = layout size) (hfull : m.Full) (h : captureMemoryLayout size m = .ok snap)
    (g : U64) :
    (snap.memoryRegions.lookup g).map (·.bytes) = capturedAt g (captures size m) := by
  rw [captureAll_contents g (captures_length hmaps hfull) h]
  exact Option.or_none

/-- **The snapshot keeps all four regions**, each with its bytes, when their keys are distinct. -/
theorem captureMemoryLayout_lookup {size : U64} {m : Machine} {snap : Snapshot}
    (hkeys : (keys size).Nodup) (hmaps : m.maps = layout size) (hfull : m.Full)
    (h : captureMemoryLayout size m = .ok snap) :
    (∀ r ∈ captures size m, ∃ mem,
      snap.memoryRegions.lookup r.1 = some mem ∧ mem.bytes = r.2.1) ∧
    ∀ g, g ∉ keys size → snap.memoryRegions.lookup g = none := by
  have hnodup : ((captures size m).map (·.1)).Nodup := hkeys
  refine ⟨fun r hr => ?_, fun g hg => ?_⟩
  · have hr' := captureMemoryLayout_contents hmaps hfull h r.1
    rw [capturedAt_of_nodup hnodup r hr] at hr'
    exact Option.map_eq_some_iff.mp hr'
  · have hg' := captureMemoryLayout_contents hmaps hfull h g
    rw [capturedAt_eq_none.mpr hg] at hg'
    exact Option.map_eq_none_iff.mp hg'

/-- Its keys are the layout's, distinct or not. -/
theorem captureMemoryLayout_keys {size : U64} {m : Machine} {snap : Snapshot}
    (hmaps : m.maps = layout size) (hfull : m.Full)
    (h : captureMemoryLayout size m = .ok snap) {g : U64} :
    g ∈ snap.memoryRegions ↔ g ∈ keys size := by
  rw [← Finmap.lookup_isSome, ← Option.isSome_map, captureMemoryLayout_contents hmaps hfull h,
    ← Option.ne_none_iff_isSome, ne_eq, capturedAt_eq_none, not_not]
  rfl

/-- It can be taken of any image that can be allocated. -/
theorem captureMemoryLayout_of_size {size : U64} {m : Machine} (hmaps : m.maps = layout size)
    (hfull : m.Full) (hpos : 0 < size.toNat) (hmax : size.toNat ≤ maxLayoutSize) :
    ∃ snap, captureMemoryLayout size m = .ok snap := by
  refine captureAll_of_sizes _ _ (fun r hr => ⟨captures_length hmaps hfull r hr, ?_⟩) ?_
  · simp only [captures, List.mem_cons, List.not_mem_nil, or_false] at hr
    rcases hr with rfl | rfl | rfl | rfl
    · exact ⟨show 0 < nullSize by decide, show nullSize ≤ maxLayoutSize by decide⟩
    · exact ⟨hpos, hmax⟩
    · exact ⟨show 0 < stackSize by decide, show stackSize ≤ maxLayoutSize by decide⟩
    · exact ⟨show 0 < ptSize by decide, show ptSize ≤ maxLayoutSize by decide⟩
  · show 0 + 4 < 2 ^ 64
    decide

/-! ## The vCPU -/

/-- Create the vCPU, switch it to long mode, point RIP at the entry and RSP at the stack's end. -/
def startVcpu (w : Whp) (size entryPoint : U64) (m : Machine) : Except Fail (Vcpu × Machine) := do
  let (vcpu, m) ← expect "Failed to create vCPU" (Vcpu.new w 0 m)
  let m ← expect "Failed to setup long mode" (vcpu.setupLongMode w ptGpa m)
  let m ← expect "Failed to set RIP/RSP registers"
    (vcpu.setRegisters w [.rip, .rsp]
      [ofReg64 (entryGpa entryPoint), ofReg64 (stackGpa size)] m)
  return (vcpu, m)

/-- The registers in long mode, before RIP and RSP are set. -/
def longModeRegs (w : Whp) : RegFile :=
  RegFile.write Vcpu.longModeNames (Vcpu.longModeValues ptGpa) w.reset

/-- The registers the guest starts with. -/
def startRegs (w : Whp) (size entryPoint : U64) : RegFile :=
  RegFile.write [.rip, .rsp] [ofReg64 (entryGpa entryPoint), ofReg64 (stackGpa size)]
    (longModeRegs w)

theorem startRegs_cr0 (w : Whp) (size entryPoint : U64) :
    startRegs w size entryPoint .cr0 = ofReg64 0x80000031 := rfl

theorem startRegs_cr3 (w : Whp) (size entryPoint : U64) :
    startRegs w size entryPoint .cr3 = ofReg64 ptGpa := rfl

/-- The calls that create a vCPU in long mode succeed. -/
def VcpuCallsSucceed (w : Whp) : Prop :=
  w.fault (.createVirtualProcessor 0) = none ∧
  w.fault (.setRegisters 0 Vcpu.longModeNames (Vcpu.longModeValues ptGpa) w.reset) = none

theorem wrote_setVp (names : List Reg) (values : List RegVal) (m : Machine) (i : U32) (vp : Vp) :
    (⟨i⟩ : Vcpu).wrote names values (m.setVp i vp) =
      m.setVp i { vp with regs := RegFile.write names values vp.regs } := by
  rw [Vcpu.wrote, Machine.setVp_vps_self, Machine.setVp_setVp]

/-- A fresh vCPU in long mode, on either command's partition. -/
theorem longMode_eq_ok {w : Whp} {m m' : Machine} {vcpu : Vcpu} (msg msg' : String) :
    (∃ x, expect msg (Vcpu.new w 0 m) = .ok x ∧ x.1 = vcpu ∧
      expect msg' (x.1.setupLongMode w ptGpa x.2) = .ok m') ↔
    VcpuCallsSucceed w ∧ vcpu = ⟨0⟩ ∧ m' = m.setVp 0 ⟨longModeRegs w, 0⟩ := by
  simp only [expect_eq_ok, Vcpu.setupLongMode, Vcpu.setRegisters_eq_ok]
  constructor
  · rintro ⟨⟨v, m1⟩, hnew, rfl, -, hset, rfl⟩
    obtain ⟨hcreate, rfl, rfl⟩ := Vcpu.new_eq_ok.mp hnew
    rw [Machine.setVp_vps_self] at hset
    exact ⟨⟨hcreate, hset⟩, rfl, wrote_setVp _ _ _ _ _⟩
  · rintro ⟨⟨hcreate, hset⟩, rfl, rfl⟩
    refine ⟨_, Vcpu.new_eq_ok.mpr ⟨hcreate, rfl, rfl⟩, rfl, rfl, ?_, ?_⟩
    · rwa [Machine.setVp_vps_self]
    · rw [wrote_setVp]
      rfl

theorem startVcpu_eq_ok {w : Whp} {size entryPoint : U64} {m m' : Machine} {vcpu : Vcpu} :
    startVcpu w size entryPoint m = .ok (vcpu, m') ↔
      VcpuCallsSucceed w ∧
      w.fault (.setRegisters 0 [.rip, .rsp]
        [ofReg64 (entryGpa entryPoint), ofReg64 (stackGpa size)] (longModeRegs w)) = none ∧
      vcpu = ⟨0⟩ ∧ m' = m.setVp 0 ⟨startRegs w size entryPoint, 0⟩ := by
  constructor
  · intro h
    obtain ⟨⟨v, m1⟩, hnew, h⟩ := bind_eq_ok.mp h
    obtain ⟨m2, hlong, h⟩ := bind_eq_ok.mp h
    obtain ⟨m3, hset, h⟩ := bind_eq_ok.mp h
    cases h
    obtain ⟨hcalls, rfl, rfl⟩ := (longMode_eq_ok _ _).mp ⟨_, hnew, rfl, hlong⟩
    obtain ⟨-, hfault, rfl⟩ := Vcpu.setRegisters_eq_ok.mp (expect_eq_ok.mp hset)
    rw [Machine.setVp_vps_self] at hfault
    exact ⟨hcalls, hfault, rfl, wrote_setVp _ _ _ _ _⟩
  · rintro ⟨hcalls, hfault, rfl, rfl⟩
    obtain ⟨⟨v, m1⟩, hnew, rfl, hlong⟩ :=
      (longMode_eq_ok "Failed to create vCPU" "Failed to setup long mode" (m := m)).mpr ⟨hcalls, rfl, rfl⟩
    refine bind_eq_ok.mpr ⟨_, hnew, bind_eq_ok.mpr ⟨_, hlong, bind_eq_ok.mpr ⟨_,
      expect_eq_ok.mpr (Vcpu.setRegisters_eq_ok.mpr ⟨rfl, ?_, rfl⟩), ?_⟩⟩⟩
    · rwa [Machine.setVp_vps_self]
    · rw [wrote_setVp]
      rfl

/-! ## The command -/

/-- `capture_names`. -/
def captureNames : List Reg := [.rip, .rsp, .rflags, .cr0, .cr3, .cr4]

/-- What a completed Record command has seen and written. -/
structure Recording where
  /-- The size of the mapped image. -/
  size : U64
  /-- The machine when `RecordEngine::run` is called. -/
  start : Machine
  stopped : Stopped
  snapshot : Snapshot
  final : Snapshot
  events : Vec TraceEvent
  hash : U64
  /-- The contents of the output file. -/
  archive : Bytes

/-- `Commands::Record` on the file contents `target`. -/
def record (w : Whp) (sim : SimAnswers) (peParse : PeParser) (hasher : Bytes → U64)
    (ordHash ordWrite : Order U64 AlignedMemory) (fuel : Nat) (target : Bytes) :
    Except Fail Recording := do
  let loader ← expect "Failed to parse PE file" (PeLoader.parse peParse target)
  let image ← loader.mapIntoMemory
  let size : U64 := BitVec.ofNat 64 image.length
  let m ← mapGuest w image
  let snapshot ← captureMemoryLayout size m
  let (vcpu, m) ← startVcpu w size loader.entryPoint m
  let snapshot ← expect "Failed to capture initial registers"
    (snapshot.captureRegisters w vcpu captureNames m)
  let stopped ← expect "Record engine execution failed" (RecordEngine.run w sim vcpu fuel m)
  let final ← captureMemoryLayout size stopped.state.machine
  let final ← expect "Failed to capture final registers"
    (final.captureRegisters w vcpu captureNames stopped.state.machine)
  let hash := final.hashState hasher ordHash final.own
  match Vec.ofList? stopped.state.logger.events with
  | some events =>
    return ⟨size, m, stopped, snapshot, final, events, hash,
      encode ordWrite snapshot events hash⟩
  | none => .error (.panic "capacity overflow")

/-- What is known of a recording of `image` that has completed. -/
structure Recorded (w : Whp) (sim : SimAnswers) (hasher : Bytes → U64)
    (ordHash ordWrite : Order U64 AlignedMemory) (fuel : Nat) (image : Bytes) (entryPoint : U64)
    (rec : Recording) : Prop where
  size : rec.size = BitVec.ofNat 64 image.length
  mapCalls : MapCallsSucceed w rec.size
  vcpuCalls : VcpuCallsSucceed w
  entryCall : w.fault (.setRegisters 0 [.rip, .rsp]
    [ofReg64 (entryGpa entryPoint), ofReg64 (stackGpa rec.size)] (longModeRegs w)) = none
  start : rec.start = (guest image).setVp 0 ⟨startRegs w rec.size entryPoint, 0⟩
  snapshot : ∃ snap, captureMemoryLayout rec.size (guest image) = .ok snap ∧
    snap.captureRegisters w ⟨0⟩ captureNames rec.start = .ok rec.snapshot
  run : RecordEngine.run w sim ⟨0⟩ fuel rec.start = .ok rec.stopped
  final : ∃ snap, captureMemoryLayout rec.size rec.stopped.state.machine = .ok snap ∧
    snap.captureRegisters w ⟨0⟩ captureNames rec.stopped.state.machine = .ok rec.final
  events : rec.events.toList = rec.stopped.state.logger.events
  hash : rec.hash = rec.final.hashState hasher ordHash rec.final.own
  archive : rec.archive = encode ordWrite rec.snapshot rec.events rec.hash

theorem record_eq_ok {w : Whp} {sim : SimAnswers} {peParse : PeParser} {hasher : Bytes → U64}
    {ordHash ordWrite : Order U64 AlignedMemory} {fuel : Nat} {target : Bytes} {rec : Recording} :
    record w sim peParse hasher ordHash ordWrite fuel target = .ok rec ↔
      ∃ loader image, PeLoader.parse peParse target = .ok loader ∧
        loader.mapIntoMemory = .ok image ∧
        Recorded w sim hasher ordHash ordWrite fuel image loader.entryPoint rec := by
  constructor
  · intro h
    obtain ⟨loader, hparse, h⟩ := bind_eq_ok.mp h
    obtain ⟨image, himage, h⟩ := bind_eq_ok.mp h
    obtain ⟨m, hmap, h⟩ := bind_eq_ok.mp h
    obtain ⟨hmapCalls, rfl⟩ := mapGuest_eq_ok.mp hmap
    obtain ⟨snap, hsnap, h⟩ := bind_eq_ok.mp h
    obtain ⟨⟨vcpu, m⟩, hstart, h⟩ := bind_eq_ok.mp h
    obtain ⟨hvcpu, hentry, rfl, rfl⟩ := startVcpu_eq_ok.mp hstart
    obtain ⟨snapshot, hcapture, h⟩ := bind_eq_ok.mp h
    obtain ⟨stopped, hrun, h⟩ := bind_eq_ok.mp h
    obtain ⟨fin, hfin, h⟩ := bind_eq_ok.mp h
    obtain ⟨final, hfinal, h⟩ := bind_eq_ok.mp h
    dsimp only at h
    split at h
    · rename_i events hevents
      cases h
      exact ⟨loader, image, expect_eq_ok.mp hparse, himage, rfl, hmapCalls, hvcpu, hentry, rfl,
        ⟨snap, hsnap, expect_eq_ok.mp hcapture⟩, expect_eq_ok.mp hrun,
        ⟨fin, hfin, expect_eq_ok.mp hfinal⟩, Vec.ofList?_eq_some.mp hevents, rfl, rfl⟩
    · nomatch h
  · rintro ⟨loader, image, hparse, himage, hrec⟩
    obtain ⟨snap, hsnap, hcapture⟩ := hrec.snapshot
    obtain ⟨fin, hfin, hfinal⟩ := hrec.final
    have hsize := hrec.size
    have hmapCalls := hrec.mapCalls
    have hstart := startVcpu_eq_ok.mpr ⟨hrec.vcpuCalls, hrec.entryCall, rfl, hrec.start⟩
    rw [hsize] at hsnap hfin hmapCalls hstart
    refine bind_eq_ok.mpr ⟨loader, expect_eq_ok.mpr hparse, bind_eq_ok.mpr ⟨image, himage,
      bind_eq_ok.mpr ⟨guest image, mapGuest_eq_ok.mpr ⟨hmapCalls, rfl⟩,
      bind_eq_ok.mpr ⟨snap, hsnap, bind_eq_ok.mpr ⟨_, hstart,
      bind_eq_ok.mpr ⟨rec.snapshot, expect_eq_ok.mpr hcapture,
      bind_eq_ok.mpr ⟨rec.stopped, expect_eq_ok.mpr hrec.run,
      bind_eq_ok.mpr ⟨fin, hfin, bind_eq_ok.mpr ⟨rec.final, expect_eq_ok.mpr hfinal, ?_⟩⟩⟩⟩⟩⟩⟩⟩⟩
    dsimp only
    rw [Vec.ofList?_eq_some.mpr hrec.events, ← hrec.hash, ← hsize]
    dsimp only
    rw [← hrec.archive]
    rfl

end Cli

end Vestigium

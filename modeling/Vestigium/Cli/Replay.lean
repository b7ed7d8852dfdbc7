/-
  THE REPLAY COMMAND — `Commands::Replay` of `cli/src/main.rs`.

  `replayRun` is the command up to the comparison of the two hashes, `replay` the whole of it.  The
  snapshot's buffers are mapped into the guest as they are, so by the time `hash_state` reads them
  they hold what the guest has left there; the snapshot itself only gets new registers.
-/
import Vestigium.Cli.Record
import Vestigium.Engine.Replay

namespace Vestigium.Cli

open Codec
open Vestigium.HashMap (Order Entry)
open Vestigium.Loop (bind_eq_ok)

/-! ## The command -/

/-- `restore_names`, and `capture_names` a second time. -/
def restoreNames : List Reg := [.rip, .rsp, .rflags, .cr0, .cr3, .cr4]

/-- What the Replay command has seen when it compares the hashes. -/
structure Replayed where
  /-- The machine when the first event is replayed. -/
  start : Machine
  /-- The machine when the final registers are captured. -/
  finish : Machine
  /-- What each event printed. -/
  lines : List (Option Line)
  final : Snapshot
  replayHash : U64
  expectedHash : U64

/-- The host memory of the process once the archive is decoded. -/
def snapshotHost (snapshot : Snapshot) : HostMem
  | .region gpa => snapshot.own gpa
  | _ => []

/-- The run after the last event.  `handle_vm_exit` prints what came of it, an error included. -/
def lastRun (w : Whp) (vcpu : Vcpu) (m : Machine) : Machine :=
  match VmRunner.run w vcpu m with
  | .ok (_, m') => m'
  | .error _ => m

/-- `Commands::Replay` up to the assertion, on the file contents `archive`. -/
def replayRun (w : Whp) (hasher : Bytes → U64) (ordRestore ordHash : Order U64 AlignedMemory)
    (fuel : Nat) (archive : Bytes) : Except Fail Replayed := do
  let (snapshot, events, expectedHash) ← expect "Failed to deserialize trace archive"
    (decode archive)
  let m ← expect "Failed to create VM partition" (VmPartition.new w)
  let m ← expect "Failed to configure interceptions" (VmPartition.configureInterceptions w m)
  let (vcpu, m) ← expect "Failed to create vCPU" (Vcpu.new w 0 (m.withHost (snapshotHost snapshot)))
  let m ← expect "Failed to setup long mode" (vcpu.setupLongMode w ptGpa m)
  let eng := (ReplayEngine.new 0).registerVcpu 0 vcpu
  let start ← expect "Failed to restore snapshot"
    (eng.restoreSnapshot w ordRestore snapshot restoreNames m)
  let (m, lines) ← expect "Failed to replay event" (eng.replayEvents w fuel events.toList start)
  let finish := lastRun w vcpu m
  let final ← expect "Failed to capture final registers"
    (snapshot.captureRegisters w vcpu restoreNames finish)
  let replayHash := final.hashState hasher ordHash fun gpa => finish.host (.region gpa)
  return ⟨start, finish, lines, final, replayHash, expectedHash⟩

/-- `Commands::Replay`. -/
def replay (w : Whp) (hasher : Bytes → U64) (ordRestore ordHash : Order U64 AlignedMemory)
    (fuel : Nat) (archive : Bytes) : Except Fail Replayed := do
  let r ← replayRun w hasher ordRestore ordHash fuel archive
  if r.replayHash = r.expectedHash then return r
  else .error (.panic "E2E VERIFICATION FAILED: State mismatch!")

/-! ## What it does, call by call -/

/-- The engine of the command. -/
def engine : ReplayEngine := (ReplayEngine.new 0).registerVcpu 0 ⟨0⟩

theorem engine_activeVcpu : engine.activeVcpu = .ok ⟨0⟩ := ReplayEngine.activeVcpu_registerVcpu 0 ⟨0⟩

/-- The range a region is mapped to. -/
def regionMapping (e : Entry U64 AlignedMemory) : Mapping :=
  ⟨e.1.toNat, (BitVec.ofNat 64 e.2.bytes.length).toNat, .region e.1, allFlags⟩

/-- The partition before the snapshot is restored. -/
def fresh (w : Whp) (snapshot : Snapshot) : Machine where
  vps := Function.update (fun _ => ⟨fun _ => 0, 0⟩) 0 ⟨longModeRegs w, 0⟩
  maps := []
  host := snapshotHost snapshot
  extendedVmExits := VmPartition.interceptions

/-- The partition with the snapshot's regions mapped and its registers set. -/
def restored (w : Whp) (ordRestore : Order U64 AlignedMemory) (snapshot : Snapshot) : Machine where
  vps := Function.update (fun _ => ⟨fun _ => 0, 0⟩) 0
    ⟨RegFile.write restoreNames snapshot.registers.toList (longModeRegs w), 0⟩
  maps := ((ordRestore.entries snapshot.memoryRegions).map regionMapping).reverse
  host := snapshotHost snapshot
  extendedVmExits := VmPartition.interceptions

theorem mapRegions_eq_ok {w : Whp} : ∀ {entries : List (Entry U64 AlignedMemory)} {m m' : Machine},
    ReplayEngine.mapRegions w entries m = .ok m' ↔
      (∀ e ∈ entries, w.fault (.mapGpaRange e.1 (BitVec.ofNat 64 e.2.bytes.length) allFlags) = none) ∧
        m' = { m with maps := (entries.map regionMapping).reverse ++ m.maps }
  | [], m, m' => by
    constructor
    · intro h
      cases h
      exact ⟨fun e he => (nomatch he), rfl⟩
    · rintro ⟨-, rfl⟩
      rfl
  | ⟨gpa, data⟩ :: entries, m, m' => by
    rw [ReplayEngine.mapRegions, bind_eq_ok]
    simp only [EptManager.mapGpaRange_eq_ok, mapRegions_eq_ok, List.forall_mem_cons, List.map_cons,
      List.reverse_cons, List.append_assoc]
    constructor
    · rintro ⟨m1, ⟨hfault, rfl⟩, hrest, rfl⟩
      exact ⟨⟨hfault, hrest⟩, rfl⟩
    · rintro ⟨⟨hfault, hrest⟩, rfl⟩
      exact ⟨_, ⟨hfault, rfl⟩, hrest, rfl⟩

/-- The machine once the regions are mapped. -/
def mapped (entries : List (Entry U64 AlignedMemory)) (m : Machine) : Machine :=
  { m with maps := (entries.map regionMapping).reverse ++ m.maps }

/-- Every region can be mapped; then the registers are set, unless none have been captured. -/
theorem restoreSnapshot_cases {w : Whp} {eng : ReplayEngine} {ord : Order U64 AlignedMemory}
    {snapshot : Snapshot} {names : List Reg} {m m' : Machine} :
    eng.restoreSnapshot w ord snapshot names m = .ok m' ↔
    (∀ e ∈ ord.entries snapshot.memoryRegions,
      w.fault (.mapGpaRange e.1 (BitVec.ofNat 64 e.2.bytes.length) allFlags) = none) ∧
    ((snapshot.registers.toList = [] ∧ m' = mapped (ord.entries snapshot.memoryRegions) m) ∨
      (snapshot.registers.toList ≠ [] ∧ ∃ vcpu, eng.activeVcpu = .ok vcpu ∧
        vcpu.setRegisters w names snapshot.registers.toList
          (mapped (ord.entries snapshot.memoryRegions) m) = .ok m')) := by
  rw [ReplayEngine.restoreSnapshot, bind_eq_ok]
  constructor
  · rintro ⟨m1, hmap, h⟩
    obtain ⟨hcalls, rfl⟩ := mapRegions_eq_ok.mp hmap
    refine ⟨hcalls, ?_⟩
    by_cases hne : snapshot.registers.toList = []
    · rw [if_neg (not_not.mpr hne)] at h
      exact .inl ⟨hne, (Except.ok.inj h).symm⟩
    · rw [if_pos hne] at h
      obtain ⟨vcpu, heng, hset⟩ := bind_eq_ok.mp h
      exact .inr ⟨hne, vcpu, heng, hset⟩
  · rintro ⟨hcalls, hregs⟩
    refine ⟨_, mapRegions_eq_ok.mpr ⟨hcalls, rfl⟩, ?_⟩
    rcases hregs with ⟨hnil, rfl⟩ | ⟨hne, vcpu, heng, hset⟩
    · rw [if_neg (not_not.mpr hnil)]
      rfl
    · rw [if_pos hne]
      exact bind_eq_ok.mpr ⟨vcpu, heng, hset⟩

/-- The calls `restore_snapshot` makes succeed. -/
def RestoreCallsSucceed (w : Whp) (ordRestore : Order U64 AlignedMemory) (snapshot : Snapshot) :
    Prop :=
  (∀ e ∈ ordRestore.entries snapshot.memoryRegions,
    w.fault (.mapGpaRange e.1 (BitVec.ofNat 64 e.2.bytes.length) allFlags) = none) ∧
  w.fault (.setRegisters 0 restoreNames snapshot.registers.toList (longModeRegs w)) = none

theorem restoreSnapshot_eq_ok {w : Whp} {ordRestore : Order U64 AlignedMemory} {snapshot : Snapshot}
    {m : Machine} (hregs : snapshot.registers.toList.length = restoreNames.length) :
    engine.restoreSnapshot w ordRestore snapshot restoreNames (fresh w snapshot) = .ok m ↔
      RestoreCallsSucceed w ordRestore snapshot ∧ m = restored w ordRestore snapshot := by
  have hne : snapshot.registers.toList ≠ [] := by
    intro h
    rw [h] at hregs
    nomatch hregs
  have hwrote : (⟨0⟩ : Vcpu).wrote restoreNames snapshot.registers.toList
      (mapped (ordRestore.entries snapshot.memoryRegions) (fresh w snapshot)) =
      restored w ordRestore snapshot := by
    simp [Vcpu.wrote, restored, mapped, fresh, Machine.setVp]
  have hregs0 : ((mapped (ordRestore.entries snapshot.memoryRegions) (fresh w snapshot)).vps 0).regs =
      longModeRegs w := by simp [mapped, fresh]
  rw [restoreSnapshot_cases]
  constructor
  · rintro ⟨hcalls, ⟨hnil, -⟩ | ⟨-, vcpu, heng, hset⟩⟩
    · exact absurd hnil hne
    · obtain rfl := Except.ok.inj (engine_activeVcpu.symm.trans heng)
      obtain ⟨-, hfault, rfl⟩ := Vcpu.setRegisters_eq_ok.mp hset
      rw [hregs0] at hfault
      exact ⟨⟨hcalls, hfault⟩, hwrote⟩
  · rintro ⟨⟨hcalls, hfault⟩, rfl⟩
    refine ⟨hcalls, .inr ⟨hne, ⟨0⟩, engine_activeVcpu, Vcpu.setRegisters_eq_ok.mpr ?_⟩⟩
    exact ⟨hregs.symm, by rw [hregs0]; exact hfault, hwrote.symm⟩

/-- What is known of a replay that has got to the comparison. -/
structure Replays (w : Whp) (hasher : Bytes → U64) (ordRestore ordHash : Order U64 AlignedMemory)
    (fuel : Nat) (snapshot : Snapshot) (events : List TraceEvent) (expectedHash : U64)
    (rep : Replayed) : Prop where
  partitionCalls : PartitionCallsSucceed w
  vcpuCalls : VcpuCallsSucceed w
  restoreCalls : RestoreCallsSucceed w ordRestore snapshot
  start : rep.start = restored w ordRestore snapshot
  events : ∃ m, engine.replayEvents w fuel events rep.start = .ok (m, rep.lines) ∧
    rep.finish = lastRun w ⟨0⟩ m
  final : snapshot.captureRegisters w ⟨0⟩ restoreNames rep.finish = .ok rep.final
  replayHash : rep.replayHash =
    rep.final.hashState hasher ordHash fun gpa => rep.finish.host (.region gpa)
  expectedHash : rep.expectedHash = expectedHash

theorem replayRun_eq_ok {w : Whp} {hasher : Bytes → U64} {ordRestore ordHash : Order U64 AlignedMemory}
    {fuel : Nat} {archive : Bytes} {snapshot : Snapshot} {events : Vec TraceEvent} {hash : U64}
    {rep : Replayed} (hdecode : decode archive = .ok (snapshot, events, hash))
    (hregs : snapshot.registers.toList.length = restoreNames.length) :
    replayRun w hasher ordRestore ordHash fuel archive = .ok rep ↔
      Replays w hasher ordRestore ordHash fuel snapshot events.toList hash rep := by
  rw [replayRun, Loop.bind_of_ok (expect_eq_ok.mpr hdecode)]
  constructor
  · intro h
    obtain ⟨m1, hnew, h⟩ := bind_eq_ok.mp h
    obtain ⟨m2, hconf, h⟩ := bind_eq_ok.mp h
    obtain ⟨⟨vcpu, m3⟩, hvcpu, h⟩ := bind_eq_ok.mp h
    obtain ⟨m4, hlong, h⟩ := bind_eq_ok.mp h
    obtain ⟨start, hrestore, h⟩ := bind_eq_ok.mp h
    obtain ⟨⟨m5, lines⟩, hevents, h⟩ := bind_eq_ok.mp h
    obtain ⟨final, hfinal, h⟩ := bind_eq_ok.mp h
    cases h
    obtain ⟨h1, h2, h3, rfl⟩ := VmPartition.new_eq_ok.mp (expect_eq_ok.mp hnew)
    obtain ⟨h4, rfl⟩ := VmPartition.configureInterceptions_eq_ok.mp (expect_eq_ok.mp hconf)
    obtain ⟨hcalls, rfl, rfl⟩ := (longMode_eq_ok _ _).mp ⟨_, hvcpu, rfl, hlong⟩
    obtain ⟨hrestoreCalls, rfl⟩ := (restoreSnapshot_eq_ok hregs).mp (expect_eq_ok.mp hrestore)
    exact ⟨⟨h1, h2, h3, h4⟩, hcalls, hrestoreCalls, rfl, ⟨m5, expect_eq_ok.mp hevents, rfl⟩,
      expect_eq_ok.mp hfinal, rfl, rfl⟩
  · rintro ⟨⟨h1, h2, h3, h4⟩, hcalls, hrestoreCalls, hstart, ⟨m5, hevents, hfinish⟩, hfinal, hhash,
      hexpected⟩
    obtain ⟨⟨v, m3⟩, hvcpu, rfl, hlong⟩ := (longMode_eq_ok "Failed to create vCPU"
      "Failed to setup long mode" (m := { (fresh w snapshot) with
        vps := fun _ => ⟨fun _ => 0, 0⟩ })).mpr ⟨hcalls, rfl, rfl⟩
    have hrestore := (restoreSnapshot_eq_ok hregs).mpr ⟨hrestoreCalls, hstart⟩
    refine bind_eq_ok.mpr ⟨_, expect_eq_ok.mpr (VmPartition.new_eq_ok.mpr ⟨h1, h2, h3, rfl⟩),
      bind_eq_ok.mpr ⟨_, expect_eq_ok.mpr
        (VmPartition.configureInterceptions_eq_ok.mpr ⟨h4, rfl⟩),
      bind_eq_ok.mpr ⟨_, hvcpu, bind_eq_ok.mpr ⟨_, hlong,
      bind_eq_ok.mpr ⟨rep.start, expect_eq_ok.mpr hrestore,
      bind_eq_ok.mpr ⟨_, expect_eq_ok.mpr hevents,
      bind_eq_ok.mpr ⟨rep.final, expect_eq_ok.mpr ?_, ?_⟩⟩⟩⟩⟩⟩⟩
    · rw [← hfinish]
      exact hfinal
    · dsimp only
      rw [← hfinish, ← hhash, ← hexpected]
      rfl

/-! ## What it leaves alone -/

theorem lastRun_sameShape (w : Whp) (vcpu : Vcpu) (m : Machine) : m.SameShape (lastRun w vcpu m) := by
  unfold lastRun
  split
  · rename_i h
    exact run_sameShape h
  · exact Machine.SameShape.refl m

/-- A replay remaps and resizes nothing. -/
theorem Replays.sameShape {w : Whp} {hasher : Bytes → U64} {ordRestore ordHash : Order U64 AlignedMemory}
    {fuel : Nat} {snapshot : Snapshot} {events : List TraceEvent} {hash : U64} {rep : Replayed}
    (hrep : Replays w hasher ordRestore ordHash fuel snapshot events hash rep) :
    (restored w ordRestore snapshot).SameShape rep.finish := by
  obtain ⟨m, hevents, hfinish⟩ := hrep.events
  rw [hrep.start] at hevents
  rw [hfinish]
  exact (ReplayEngine.replayEvents_kept engine_activeVcpu (Kept.sameShape w ⟨0⟩ _) _
    (Machine.SameShape.refl _) hevents).trans (lastRun_sameShape w ⟨0⟩ m)

end Vestigium.Cli

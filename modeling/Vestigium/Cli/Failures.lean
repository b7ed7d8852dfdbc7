/-
  FAILURES — every way in which the two commands can end without a result.

  The engine passes errors of the hypervisor up with `?`; `main` turns each into a panic with a message
  of its own.  That leaves two places at which neither command checks anything: the copy loop of the
  loader and the allocations of the decoder.  Both come BEFORE the guest, and what they do depends on
  the file alone.

  So an execution is undefined exactly if its file makes it so (`commands_undefined_iff`), whatever
  the hypervisor refuses, the guest does and the hash maps iterate.  The one step that is not obvious
  is the closing capture of Record, which copies from four raw pointers after the guest has run: the
  buffers still have the sizes they were mapped with.
-/
import Vestigium.Cli.Isolation
import Vestigium.Cli.Malformed

namespace Vestigium

open Codec
open Vestigium.Loop

/-- An `Err`, which `?` passes up and `expect` turns into a panic. -/
def Fail.IsErr : Fail → Prop
  | .whp _ => True
  | .goblin _ => True
  | .bincode _ => True
  | _ => False

/-! ## The calls -/

theorem Whp.call_raises (w : Whp) (c : WhpCall) : Raises Fail.IsErr (w.call c) := by
  intro e h
  obtain ⟨code, rfl⟩ := Whp.call_error h
  trivial

theorem VmPartition.new_raises (w : Whp) : Raises Fail.IsErr (VmPartition.new w) :=
  (w.call_raises _).bind fun _ _ => (w.call_raises _).bind fun _ _ =>
    (w.call_raises _).bind fun _ _ => .ok _

theorem VmPartition.configureInterceptions_raises (w : Whp) (m : Machine) :
    Raises Fail.IsErr (VmPartition.configureInterceptions w m) :=
  (w.call_raises _).bind fun _ _ => .ok _

theorem EptManager.mapGpaRange_raises (w : Whp) (g : U64) (buf : Buf) (size : U64) (flags : U32)
    (m : Machine) : Raises Fail.IsErr (EptManager.mapGpaRange w g buf size flags m) :=
  (w.call_raises _).bind fun _ _ => .ok _

namespace Vcpu

variable {w : Whp} {vcpu : Vcpu} {m : Machine}

theorem new_raises (w : Whp) (i : U32) (m : Machine) : Raises Fail.IsErr (Vcpu.new w i m) :=
  (w.call_raises _).bind fun _ _ => .ok _

theorem getRegisters_raises {names : List Reg} :
    Raises Fail.IsErr (vcpu.getRegisters w names m) :=
  (w.call_raises _).bind fun _ _ => .ok _

/-- As many values as names: the assertion holds. -/
theorem setRegisters_raises {names : List Reg} {values : List RegVal}
    (hlen : names.length = values.length) :
    Raises Fail.IsErr (vcpu.setRegisters w names values m) := by
  rw [setRegisters, if_pos hlen]
  exact (w.call_raises _).bind fun _ _ => .ok _

end Vcpu

theorem VmRunner.run_raises (w : Whp) (vcpu : Vcpu) (m : Machine) :
    Raises Fail.IsErr (VmRunner.run w vcpu m) := by
  rw [VmRunner.run]
  cases w.run m.extendedVmExits (m.vps vcpu.index).regs m.ram with
  | error e => exact .error trivial
  | ok r => exact .ok _

theorem Snapshot.captureRegisters_raises {w : Whp} {vcpu : Vcpu} {names : List Reg} {m : Machine}
    (hlen : names.length < 2 ^ 64) (s : Snapshot) :
    Raises Fail.IsErr (s.captureRegisters w vcpu names m) := by
  refine Vcpu.getRegisters_raises.bind fun values hvalues => ?_
  obtain ⟨-, rfl⟩ := Vcpu.getRegisters_eq_ok.mp hvalues
  have hvec : Vec.ofList? (names.map (m.vps vcpu.index).regs) =
      some ⟨names.map (m.vps vcpu.index).regs, by rwa [List.length_map]⟩ :=
    Vec.ofList?_eq_some.mpr rfl
  rw [hvec]
  exact .ok _

/-! ## The engines -/

/-- How a loop of an engine fails: with an `Err`, or cut off. -/
def EngineFails (e : Fail) : Prop := e.IsErr ∨ e = .outOfFuel

section Engines

variable {w : Whp} {vcpu : Vcpu} {m : Machine}

theorem stepRip_raises {len : U8} : Raises Fail.IsErr (stepRip w vcpu len m) :=
  Vcpu.getRegisters_raises.bind fun _ _ => (Vcpu.setRegisters_raises rfl).bind fun _ _ => .ok _

theorem inject_raises {ev : EventType} : Raises Fail.IsErr (inject w vcpu ev m) := by
  cases ev with
  | contextSwitch tid => exact .ok m
  | _ => exact Vcpu.setRegisters_raises rfl

theorem RecordEngine.onExit_raises {sim : SimAnswers} {s : RecordState} {ctx : ExitContext} :
    Raises Fail.IsErr (RecordEngine.onExit w sim vcpu s ctx m) := by
  unfold RecordEngine.onExit
  refine .ite (fun _ => .ok _) fun _ => .ite (fun _ => ?_) fun _ => .ite (fun _ => ?_) fun _ =>
    .ite (fun _ => ?_) fun _ => .ite (fun _ => ?_) fun _ => .ok _
  · exact Vcpu.getRegisters_raises.bind fun _ _ => .ok _
  · exact (Vcpu.setRegisters_raises rfl).bind fun _ _ => stepRip_raises.bind fun _ _ => .ok _
  · exact (Vcpu.setRegisters_raises rfl).bind fun _ _ => stepRip_raises.bind fun _ _ => .ok _
  · exact Vcpu.getRegisters_raises.bind fun _ _ => stepRip_raises.bind fun _ _ => .ok _

theorem RecordEngine.run_raises {sim : SimAnswers} {fuel : Nat} :
    Raises EngineFails (RecordEngine.run w sim vcpu fuel m) := by
  refine Raises.loop (fun s => ?_) (.inr rfl) fuel _
  refine Raises.mono ?_ fun _ => .inl
  exact (VmRunner.run_raises w vcpu _).bind fun _ _ => RecordEngine.onExit_raises

namespace ReplayEngine

variable {eng : ReplayEngine}

/-- No event is injected that does not match the exit. -/
theorem onExit_raises (heng : eng.activeVcpu = .ok vcpu) {event : TraceEvent} {ctx : ExitContext} :
    Raises Fail.IsErr (onExit w eng event vcpu ctx m) := by
  by_cases hown : OwnExit w vcpu ctx m event.event
  · rw [onExit_of_own heng hown]
    exact (inject_raises.bind fun _ _ => stepRip_raises).bind fun _ _ => .ok _
  by_cases hign : Ignored ctx event.event
  · rw [onExit_of_ignored hign]
    exact .ok _
  obtain ⟨hcpuid, hrdtsc⟩ := reason_of_neither hown hign
  unfold onExit
  refine .ite (fun _ => Vcpu.getRegisters_raises.bind fun _ _ => .ok _) fun _ =>
    .ite (fun h => absurd h hcpuid) fun _ => .ite (fun h => absurd h hrdtsc) fun _ =>
    .ite (fun hvmcall => ?_) fun _ => .ok _
  cases hev : event.event with
  | contextSwitch tid =>
    refine Vcpu.getRegisters_raises.bind fun values hvalues => .ite (fun htid => ?_) fun _ => .ok _
    -- the thread matches, so the exit is the event's own
    obtain ⟨hread, rfl⟩ := Vcpu.getRegisters_eq_ok.mp hvalues
    refine absurd ?_ hown
    rw [hev]
    exact ⟨hvmcall, hread, htid.symm⟩
  | _ => exact .ok _

theorem replayEvent_raises (heng : eng.activeVcpu = .ok vcpu) {fuel : Nat} {event : TraceEvent} :
    Raises EngineFails (replayEvent w eng fuel event m) := by
  refine Raises.loop (fun m => ?_) (.inr rfl) fuel _
  refine Raises.mono ?_ fun _ => .inl
  rw [body, bind_of_ok heng]
  exact (VmRunner.run_raises w vcpu _).bind fun _ _ => onExit_raises heng

/-- By induction on the trace. -/
theorem replayEvents_raises (heng : eng.activeVcpu = .ok vcpu) {fuel : Nat} :
    ∀ (events : List TraceEvent) (m : Machine), Raises EngineFails (replayEvents w eng fuel events m)
  | [], _ => .ok _
  | _ :: events, _ => (replayEvent_raises heng).bind fun x _ =>
      (replayEvents_raises heng events x.1).bind fun _ _ => .ok _

end ReplayEngine

end Engines

/-! ## The copy loop -/

/-- A copy that leaves the file or the allocation, and that no bounds check stops: `copy_section` only
    slices the file, once it has moved the destination pointer. -/
def Section.Strays (s : Section) (fileLen size : Nat) : Prop :=
  s.Copied ∧ ¬ s.InBounds fileLen size ∧
    (size < s.virtualAddress.toNat ∨ s.pointerToRawData.toNat ≤ fileLen)

namespace PeLoader

/-- The header asks for an empty image, or the first copy that is out of bounds strays. -/
def TableStrays (pe : Pe) (rawBytes : Bytes) : Prop :=
  (alignedSize pe).toNat = 0 ∨ ∃ before s after, pe.sections = before ++ s :: after ∧
    (∀ s' ∈ before, s'.Copied → s'.InBounds rawBytes.length (alignedSize pe).toNat) ∧
    s.Strays rawBytes.length (alignedSize pe).toNat

theorem copySection_undefined_iff {rawBytes : Bytes} {s : Section} {mem : Bytes} :
    (∃ msg, copySection rawBytes s mem = .error (.undefined msg)) ↔
      s.Strays rawBytes.length mem.length := by
  unfold copySection Section.Strays Section.Copied Section.InBounds
  dsimp only
  by_cases hc : 0 < s.pointerToRawData.toNat ∧ 0 < s.sizeOfRawData.toNat
  · rw [if_pos hc]
    -- the four checks, in the order in which the copy makes them
    split
    · exact ⟨fun _ => ⟨hc, by omega, by omega⟩, fun _ => ⟨_, rfl⟩⟩
    split
    · refine ⟨?_, fun h => by omega⟩
      rintro ⟨msg, h⟩
      cases h
    split
    · exact ⟨fun _ => ⟨hc, by omega, by omega⟩, fun _ => ⟨_, rfl⟩⟩
    split
    · exact ⟨fun _ => ⟨hc, by omega, by omega⟩, fun _ => ⟨_, rfl⟩⟩
    · refine ⟨?_, fun h => by omega⟩
      rintro ⟨msg, h⟩
      cases h
  · rw [if_neg hc]
    refine ⟨?_, fun h => absurd h.1 hc⟩
    rintro ⟨msg, h⟩
    cases h

/-- By induction on the table: the sections before the one that strays have been copied. -/
theorem copySections_undefined_iff {rawBytes : Bytes} : ∀ {sections : List Section} {mem : Bytes},
    (∃ msg, copySections rawBytes sections mem = .error (.undefined msg)) ↔
      ∃ before s after, sections = before ++ s :: after ∧
        (∀ s' ∈ before, s'.Copied → s'.InBounds rawBytes.length mem.length) ∧
        s.Strays rawBytes.length mem.length
  | [], mem => by
    constructor
    · rintro ⟨msg, h⟩
      cases h
    · rintro ⟨before, s, after, h, -⟩
      cases before <;> cases h
  | s :: sections, mem => by
    constructor
    · rintro ⟨msg, h⟩
      rcases bind_eq_error.mp h with h | ⟨mem', h1, h2⟩
      · exact ⟨[], s, sections, rfl, fun s' hs' => absurd hs' List.not_mem_nil,
          copySection_undefined_iff.mp ⟨msg, h⟩⟩
      · obtain ⟨before, t, after, rfl, hbefore, ht⟩ := copySections_undefined_iff.mp ⟨msg, h2⟩
        rw [length_copySection h1] at hbefore ht
        refine ⟨s :: before, t, after, rfl, ?_, ht⟩
        exact List.forall_mem_cons.mpr ⟨copySection_ok_iff.mp ⟨mem', h1⟩, hbefore⟩
    · rintro ⟨before, t, after, hsections, hbefore, ht⟩
      cases before with
      | nil =>
        cases hsections
        obtain ⟨msg, h⟩ := copySection_undefined_iff.mpr ht
        exact ⟨msg, bind_of_error h⟩
      | cons s' before =>
        cases hsections
        obtain ⟨hs, hbefore⟩ := List.forall_mem_cons.mp hbefore
        obtain ⟨mem', h1⟩ := copySection_ok_iff.mpr hs
        rw [← length_copySection h1] at hbefore ht
        obtain ⟨msg, h2⟩ := copySections_undefined_iff.mpr ⟨before, t, after, rfl, hbefore, ht⟩
        exact ⟨msg, bind_eq_error.mpr (.inr ⟨mem', h1, h2⟩)⟩

theorem mapIntoMemory_undefined_iff {pe : Pe} {rawBytes : Bytes} :
    (∃ msg, mapIntoMemory ⟨pe, rawBytes⟩ = .error (.undefined msg)) ↔ TableStrays pe rawBytes := by
  unfold mapIntoMemory TableStrays
  dsimp only
  by_cases hpos : 0 < (alignedSize pe).toNat
  · rw [if_pos hpos, copySections_undefined_iff, List.length_replicate]
    exact ⟨.inr, fun h => h.resolve_left (by omega)⟩
  · rw [if_neg hpos]
    exact ⟨fun _ => .inl (by omega), fun _ => ⟨_, rfl⟩⟩

/-- What the loader fails with: undefined behaviour, or the one check there is. -/
def Fails (e : Fail) : Prop :=
  (∃ msg, e = .undefined msg) ∨ e = .panic "range start index out of range for slice"

theorem copySection_raises {rawBytes : Bytes} {s : Section} {mem : Bytes} :
    Raises Fails (copySection rawBytes s mem) := by
  unfold copySection
  exact .ite (fun _ => .ite (fun _ => .error (.inl ⟨_, rfl⟩)) fun _ =>
    .ite (fun _ => .error (.inr rfl)) fun _ => .ite (fun _ => .error (.inl ⟨_, rfl⟩)) fun _ =>
    .ite (fun _ => .error (.inl ⟨_, rfl⟩)) fun _ => .ok _) fun _ => .ok _

theorem copySections_raises {rawBytes : Bytes} : ∀ (sections : List Section) (mem : Bytes),
    Raises Fails (copySections rawBytes sections mem)
  | [], _ => .ok _
  | _ :: sections, _ => copySection_raises.bind fun mem _ => copySections_raises sections mem

theorem mapIntoMemory_raises (loader : PeLoader) : Raises Fails loader.mapIntoMemory := by
  unfold mapIntoMemory
  exact .ite (fun _ => copySections_raises _ _) fun _ => .error (.inl ⟨_, rfl⟩)

end PeLoader

namespace Cli

open Vestigium.HashMap (Order)

/-! ## The decoder -/

/-- The file spells out a region of size zero, and before it only regions that can be allocated. -/
def SpellsEmptyRegion (b : Bytes) : Prop :=
  ∃ (n : Nat) (rs : List RawRegion) (r : RawRegion) (t : Bytes), n < 2 ^ 64 ∧ rs.length < n ∧
    b = toLE 8 n ++ (rs.flatMap putMemoryWrite ++ (putMemoryWrite r ++ t)) ∧
    (∀ r' ∈ rs, Allocates r') ∧ r.2.toList = []

/-- The first region that cannot be allocated decides how the loop fails. -/
theorem readRegions_first {r : RawRegion} {e : Fail} (t : Bytes)
    (hnew : AlignedMemory.newFrom r.2.toList = .error e) : ∀ {n : Nat} {rs : List RawRegion},
    rs.length < n → (∀ r' ∈ rs, Allocates r') →
    (readN readRegion n).run (rs.flatMap putMemoryWrite ++ (putMemoryWrite r ++ t)) = .error e
  | n + 1, [], _, _ => by
    rw [List.flatMap_nil, List.nil_append, putMemoryWrite, List.append_assoc, readN, StateT.run_bind,
      readRegion, StateT.run_bind]
    refine bind_of_error ((bind_of_ok (reads_u64 r.1 _)).trans ?_)
    rw [StateT.run_bind, readAligned, StateT.run_bind]
    refine bind_of_error ((bind_of_ok (reads_byteVec r.2 t)).trans ?_)
    exact run_lift_eq_error.mpr hnew
  | n + 1, first :: rs, hlen, hall => by
    obtain ⟨hfirst, hrs⟩ := List.forall_mem_cons.mp hall
    obtain ⟨entry, rfl⟩ := exists_spell hfirst
    have hrest := readRegions_first t hnew (Nat.lt_of_succ_lt_succ hlen) hrs
    rw [List.flatMap_cons, List.append_assoc, readN, StateT.run_bind, ← putRegion_eq]
    refine (bind_of_ok (reads_region entry _)).trans ?_
    rw [StateT.run_bind]
    exact bind_of_error hrest

theorem decode_first {n : Nat} {rs : List RawRegion} {r : RawRegion} {e : Fail} (hn : n < 2 ^ 64)
    (hlen : rs.length < n) (hrs : ∀ r' ∈ rs, Allocates r')
    (hnew : AlignedMemory.newFrom r.2.toList = .error e) (t : Bytes) :
    decode (toLE 8 n ++ (rs.flatMap putMemoryWrite ++ (putMemoryWrite r ++ t))) = .error e := by
  have hcount : (BitVec.ofNat 64 n).toNat = n := by rw [BitVec.toNat_ofNat, Nat.mod_eq_of_lt hn]
  have hread := reads_u64 (BitVec.ofNat 64 n) (rs.flatMap putMemoryWrite ++ (putMemoryWrite r ++ t))
  rw [putWord, hcount] at hread
  rw [decode, readArchive, StateT.run_bind, readSnapshot, StateT.run_bind]
  refine bind_of_error (bind_of_error ((bind_of_ok hread).trans ?_))
  rw [StateT.run_bind]
  refine bind_of_error (readRegions_first t hnew ?_ hrs)
  rwa [hcount]

/-- The first of some regions that cannot be allocated. -/
theorem exists_first {rs : List RawRegion} (h : ∃ r ∈ rs, ¬ Allocates r) :
    ∃ before r after, rs = before ++ r :: after ∧ (∀ r' ∈ before, Allocates r') ∧ ¬ Allocates r := by
  induction rs with
  | nil =>
    obtain ⟨r, hr, -⟩ := h
    cases hr
  | cons first rs ih =>
    by_cases hfirst : Allocates first
    · obtain ⟨r, hr, hbad⟩ := h
      have hrs : ∃ r ∈ rs, ¬ Allocates r := by
        rcases List.mem_cons.mp hr with rfl | hr
        · exact absurd hfirst hbad
        · exact ⟨r, hr, hbad⟩
      obtain ⟨before, r, after, rfl, hbefore, hr⟩ := ih hrs
      exact ⟨first :: before, r, after, rfl, List.forall_mem_cons.mpr ⟨hfirst, hbefore⟩, hr⟩
    · exact ⟨[], first, rs, rfl, fun r' hr' => absurd hr' List.not_mem_nil, hfirst⟩

theorem newFrom_undefined_iff {src : Bytes} :
    (∃ msg, AlignedMemory.newFrom src = .error (.undefined msg)) ↔ src = [] := by
  constructor
  · rintro ⟨msg, h⟩
    unfold AlignedMemory.newFrom at h
    split at h
    · split at h
      · cases h
      · rename_i hpos
        exact List.eq_nil_of_length_eq_zero (by omega)
    · cases h
  · rintro rfl
    exact ⟨_, rfl⟩

theorem decode_undefined_iff {b : Bytes} :
    (∃ msg, decode b = .error (.undefined msg)) ↔ SpellsEmptyRegion b := by
  constructor
  · rintro ⟨msg, h⟩
    rcases decode_error_cases h with ⟨_, he⟩ | ⟨n, rs, t, hn, hlen, rfl, hbad⟩
    · cases he
    obtain ⟨before, r, after, rfl, hbefore, hr⟩ := exists_first hbad
    obtain ⟨e, hnew⟩ := newFrom_of_not_allocates hr
    rw [List.length_append, List.length_cons] at hlen
    rw [List.flatMap_append, List.flatMap_cons, List.append_assoc, List.append_assoc] at h ⊢
    -- the file fails as that region does
    rw [decode_first hn (by omega) hbefore hnew] at h
    cases h
    exact ⟨n, before, r, _, hn, by omega, rfl, hbefore, newFrom_undefined_iff.mp ⟨msg, hnew⟩⟩
  · rintro ⟨n, rs, r, t, hn, hlen, rfl, hrs, hr⟩
    obtain ⟨msg, hnew⟩ := newFrom_undefined_iff.mpr hr
    exact ⟨msg, decode_first hn hlen hrs hnew t⟩

/-- What the decoder does not report: undefined behaviour, or a layout that is too large. -/
theorem decode_raises (b : Bytes) : Raises (fun e => e.IsErr ∨ (∃ msg, e = .undefined msg) ∨
    e = .panic "Invalid alignment layout") (decode b) := by
  intro e h
  rcases decode_error_cases h with ⟨_, rfl⟩ | ⟨n, rs, t, hn, hlen, rfl, hbad⟩
  · exact .inl trivial
  obtain ⟨before, r, after, rfl, hbefore, hr⟩ := exists_first hbad
  obtain ⟨e', hnew⟩ := newFrom_of_not_allocates hr
  rw [List.length_append, List.length_cons] at hlen
  rw [List.flatMap_append, List.flatMap_cons, List.append_assoc, List.append_assoc,
    decode_first hn (by omega) hbefore hnew] at h
  cases h
  unfold AlignedMemory.newFrom at hnew
  split at hnew
  · split at hnew
    · cases hnew
    · cases hnew
      exact .inr (.inl ⟨_, rfl⟩)
  · cases hnew
    exact .inr (.inr rfl)

/-! ## The messages -/

/-- How a command fails by itself: cut off, or in a panic with one of its messages. -/
def FailsAs (messages : List String) (e : Fail) : Prop :=
  e = .outOfFuel ∨ ∃ msg ∈ messages, e = .panic msg

/-- The messages of the Record command; the last two come from a slice and from a vector. -/
def recordMessages : List String :=
  ["Failed to parse PE file", "Failed to create VM partition", "Failed to configure interceptions",
   "Failed to map target memory", "Failed to map stack memory", "Failed to map null page",
   "Failed to map page tables", "Failed to create vCPU", "Failed to setup long mode",
   "Failed to set RIP/RSP registers", "Failed to capture initial registers",
   "Record engine execution failed", "Failed to capture final registers",
   "range start index out of range for slice", "capacity overflow"]

/-- The messages of the Replay command; the last two come from `AlignedMemory::new` and from
    `set_registers`. -/
def replayMessages : List String :=
  ["Failed to deserialize trace archive", "Failed to create VM partition",
   "Failed to configure interceptions", "Failed to create vCPU", "Failed to setup long mode",
   "Failed to restore snapshot", "Failed to replay event", "Failed to capture final registers",
   "E2E VERIFICATION FAILED: State mismatch!", "Invalid alignment layout",
   "assertion `left == right` failed"]

section Expect

variable {messages : List String} {α : Type} {x : Except Fail α} {msg : String}

/-- `expect` lets through what is not an `Err`. -/
theorem expect_raises {P : Fail → Prop} (hmsg : P (.panic msg))
    (h : Raises (fun e => e.IsErr ∨ P e) x) : Raises P (expect msg x) := by
  intro e he
  cases x with
  | ok a => cases he
  | error e' =>
    have hP := h e' rfl
    cases e' with
    | whp code =>
      cases he
      exact hmsg
    | goblin code =>
      cases he
      exact hmsg
    | bincode text =>
      cases he
      exact hmsg
    | panic text =>
      cases he
      exact hP.resolve_left id
    | undefined text =>
      cases he
      exact hP.resolve_left id
    | outOfFuel =>
      cases he
      exact hP.resolve_left id

theorem expect_err (hmsg : msg ∈ messages) (h : Raises Fail.IsErr x) :
    Raises (FailsAs messages) (expect msg x) :=
  expect_raises (.inr ⟨msg, hmsg, rfl⟩) (h.mono fun _ => .inl)

end Expect

/-! ## The commands -/

section Record

variable {w : Whp} {image : Bytes}

theorem mapGuest_raises : Raises (FailsAs recordMessages) (mapGuest w image) := by
  obtain ⟨stack, hstack, -⟩ := alignedMemory_new (n := stackSize) (by decide) (by decide)
  obtain ⟨null, hnull, -⟩ := alignedMemory_new (n := nullSize) (by decide) (by decide)
  unfold mapGuest
  dsimp only
  refine (expect_err (by simp [recordMessages]) (VmPartition.new_raises w)).bind fun _ _ => ?_
  refine (expect_err (by simp [recordMessages])
    (VmPartition.configureInterceptions_raises w _)).bind fun _ _ => ?_
  refine (expect_err (by simp [recordMessages])
    (EptManager.mapGpaRange_raises w _ _ _ _ _)).bind fun _ _ => ?_
  rw [bind_of_ok hstack]
  refine (expect_err (by simp [recordMessages])
    (EptManager.mapGpaRange_raises w _ _ _ _ _)).bind fun _ _ => ?_
  rw [bind_of_ok hnull]
  refine (expect_err (by simp [recordMessages])
    (EptManager.mapGpaRange_raises w _ _ _ _ _)).bind fun _ _ => ?_
  exact expect_err (by simp [recordMessages]) (EptManager.mapGpaRange_raises w _ _ _ _ _)

theorem startVcpu_raises {size entryPoint : U64} {m : Machine} :
    Raises (FailsAs recordMessages) (startVcpu w size entryPoint m) := by
  unfold startVcpu
  refine (expect_err (by simp [recordMessages]) (Vcpu.new_raises w 0 m)).bind fun _ _ => ?_
  refine (expect_err (by simp [recordMessages]) (Vcpu.setRegisters_raises rfl)).bind fun _ _ => ?_
  refine (expect_err (by simp [recordMessages]) (Vcpu.setRegisters_raises rfl)).bind fun _ _ => ?_
  exact .ok _

/-- **Both captures succeed**: the buffers of the guest keep the sizes they were mapped with. -/
theorem captureMemoryLayout_of_shape {loader : PeLoader} (himage : loader.mapIntoMemory = .ok image)
    {m : Machine} (hm : (guest image).SameShape m) :
    ∃ snap, captureMemoryLayout (BitVec.ofNat 64 image.length) m = .ok snap := by
  obtain ⟨-, hlt, -, hpos⟩ := size_of_image himage
  have hlen := (PeLoader.length_mapIntoMemory himage).1
  have hround := PeLoader.toNat_alignedSize loader.pe
  have hheader : (loader.pe.sizeOfImage.getD 0).toNat < 2 ^ 32 :=
    (loader.pe.sizeOfImage.getD 0).isLt
  have hsize : (BitVec.ofNat 64 image.length : U64).toNat = image.length := by
    rw [BitVec.toNat_ofNat, Nat.mod_eq_of_lt hlt]
  exact captureMemoryLayout_of_size hm.maps (hm.full (guest_full hlt)) (by omega)
    (by rw [hsize, maxLayoutSize]; omega)

/-- Once there is an image, only calls fail, or the recorder is cut off. -/
theorem record_raises {sim : SimAnswers} {peParse : PeParser} {hasher : Bytes → U64}
    {ordHash ordWrite : Order U64 AlignedMemory} {fuel : Nat} {target : Bytes} :
    Raises (fun e => FailsAs recordMessages e ∨ ∃ pe, peParse target = .ok pe ∧
        PeLoader.mapIntoMemory ⟨pe, target⟩ = .error e)
      (record w sim peParse hasher ordHash ordWrite fuel target) := by
  unfold record
  have hnames : captureNames.length < 2 ^ 64 := by decide
  refine Raises.bind ?_ fun loader hparse => ?_
  · refine Raises.mono (expect_err (by simp [recordMessages]) ?_) fun _ => .inl
    rw [PeLoader.parse]
    cases peParse target with
    | error e => exact .error trivial
    | ok pe => exact .ok _
  obtain ⟨pe, hpe, rfl⟩ := PeLoader.parse_eq_ok.mp (expect_eq_ok.mp hparse)
  refine Raises.bind (fun e he => .inr ⟨pe, hpe, he⟩) fun image himage => ?_
  refine Raises.mono ?_ fun _ => .inl
  refine mapGuest_raises.bind fun m hm => ?_
  obtain ⟨-, rfl⟩ := mapGuest_eq_ok.mp hm
  obtain ⟨snap, hsnap⟩ := captureMemoryLayout_of_shape himage (Machine.SameShape.refl _)
  rw [bind_of_ok hsnap]
  refine startVcpu_raises.bind fun x hx => ?_
  obtain ⟨-, -, hvcpu, hstart⟩ := startVcpu_eq_ok.mp hx
  refine (expect_err (by simp [recordMessages])
    (Snapshot.captureRegisters_raises hnames _)).bind fun _ _ => ?_
  refine Raises.bind (expect_raises (.inr ⟨_, by simp [recordMessages], rfl⟩)
    (RecordEngine.run_raises.mono fun _ he => he.imp id .inl)) fun stopped hrun => ?_
  -- the guest has run: what is captured now are the same buffers
  rw [hvcpu, hstart] at hrun
  obtain ⟨fin, hfin⟩ := captureMemoryLayout_of_shape himage (guest_sameShape (expect_eq_ok.mp hrun))
  rw [bind_of_ok hfin]
  refine (expect_err (by simp [recordMessages])
    (Snapshot.captureRegisters_raises hnames _)).bind fun _ _ => ?_
  dsimp only
  split
  · exact .ok _
  · exact .error (.inr ⟨_, by simp [recordMessages], rfl⟩)

end Record

section Replay

variable {w : Whp} {eng : ReplayEngine} {vcpu : Vcpu}

theorem restoreSnapshot_raises (heng : eng.activeVcpu = .ok vcpu) {ord : Order U64 AlignedMemory}
    {snapshot : Snapshot} {names : List Reg} {m : Machine} :
    Raises (fun e => e.IsErr ∨ FailsAs replayMessages e)
      (eng.restoreSnapshot w ord snapshot names m) := by
  unfold ReplayEngine.restoreSnapshot
  refine Raises.bind ?_ fun m _ => .ite (fun _ => ?_) fun _ => .ok _
  · intro e he
    obtain ⟨code, rfl⟩ := mapRegions_error he
    exact .inl trivial
  rw [bind_of_ok heng]
  by_cases hlen : names.length = snapshot.registers.toList.length
  · exact (Vcpu.setRegisters_raises hlen).mono fun _ => .inl
  · rw [Vcpu.setRegisters, if_neg hlen]
    exact .error (.inr (.inr ⟨_, by simp [replayMessages], rfl⟩))

/-- Once the archive is decoded, only calls fail, or a loop is cut off. -/
theorem replay_raises {hasher : Bytes → U64} {ordRestore ordHash : Order U64 AlignedMemory}
    {fuel : Nat} {archive : Bytes} :
    Raises (fun e => FailsAs replayMessages e ∨ ((∃ msg, e = .undefined msg) ∧
        decode archive = .error e)) (replay w hasher ordRestore ordHash fuel archive) := by
  have hnames : restoreNames.length < 2 ^ 64 := by decide
  have hdecode : Raises (fun e => FailsAs replayMessages e ∨ ((∃ msg, e = .undefined msg) ∧
      decode archive = .error e)) (expect "Failed to deserialize trace archive" (decode archive)) := by
    refine expect_raises (.inl (.inr ⟨_, by simp [replayMessages], rfl⟩)) fun e he => ?_
    rcases decode_raises archive e he with herr | hmsg | rfl
    · exact .inl herr
    · exact .inr (.inr ⟨hmsg, he⟩)
    · exact .inr (.inl (.inr ⟨_, by simp [replayMessages], rfl⟩))
  unfold replay
  refine Raises.bind ?_ fun r _ => .ite (fun _ => .ok _) fun _ =>
    .error (.inl (.inr ⟨_, by simp [replayMessages], rfl⟩))
  unfold replayRun
  refine hdecode.bind fun v _ => Raises.mono ?_ fun _ => .inl
  dsimp only
  refine (expect_err (by simp [replayMessages]) (VmPartition.new_raises w)).bind fun _ _ => ?_
  refine (expect_err (by simp [replayMessages])
    (VmPartition.configureInterceptions_raises w _)).bind fun _ _ => ?_
  refine (expect_err (by simp [replayMessages]) (Vcpu.new_raises w 0 _)).bind fun x hx => ?_
  obtain ⟨-, hvcpu, -⟩ := Vcpu.new_eq_ok.mp (expect_eq_ok.mp hx)
  have heng : ((ReplayEngine.new 0).registerVcpu 0 x.1).activeVcpu = .ok x.1 :=
    ReplayEngine.activeVcpu_registerVcpu 0 x.1
  refine (expect_err (by simp [replayMessages]) (Vcpu.setRegisters_raises rfl)).bind fun _ _ => ?_
  refine (expect_raises (.inr ⟨_, by simp [replayMessages], rfl⟩)
    (restoreSnapshot_raises heng)).bind fun start _ => ?_
  refine (expect_raises (.inr ⟨_, by simp [replayMessages], rfl⟩)
    ((ReplayEngine.replayEvents_raises heng _ _).mono fun _ he => he.imp id .inl)).bind fun _ _ => ?_
  refine (expect_err (by simp [replayMessages])
    (Snapshot.captureRegisters_raises hnames _)).bind fun _ _ => ?_
  exact .ok _

end Replay

/-- **How the commands fail.**  Whatever the hypervisor refuses, the guest does and the hash maps
    iterate: Record is undefined exactly if the file asks for an empty image or its first section out
    of bounds is not caught, Replay exactly if the archive spells out a region of size zero; and every
    other failure is a panic with one of the messages, or the bound on a loop that has run out. -/
theorem commands_undefined_iff :
    (∀ w sim peParse hasher ordHash ordWrite fuel target,
      ((∃ msg, record w sim peParse hasher ordHash ordWrite fuel target = .error (.undefined msg)) ↔
        ∃ pe, peParse target = .ok pe ∧ PeLoader.TableStrays pe target) ∧
      ∀ e, record w sim peParse hasher ordHash ordWrite fuel target = .error e →
        (∃ msg, e = .undefined msg) ∨ FailsAs recordMessages e) ∧
    ∀ w hasher ordRestore ordHash fuel archive,
      ((∃ msg, replay w hasher ordRestore ordHash fuel archive = .error (.undefined msg)) ↔
        SpellsEmptyRegion archive) ∧
      ∀ e, replay w hasher ordRestore ordHash fuel archive = .error e →
        (∃ msg, e = .undefined msg) ∨ FailsAs replayMessages e := by
  have hundefined : ∀ messages msg, ¬ FailsAs messages (.undefined msg) := by
    rintro messages msg (h | ⟨_, -, h⟩)
    · cases h
    · cases h
  constructor
  · intro w sim peParse hasher ordHash ordWrite fuel target
    refine ⟨⟨?_, ?_⟩, fun e he => ?_⟩
    · rintro ⟨msg, h⟩
      obtain ⟨pe, hpe, himage⟩ := (record_raises _ h).resolve_left (hundefined _ msg)
      exact ⟨pe, hpe, PeLoader.mapIntoMemory_undefined_iff.mp ⟨msg, himage⟩⟩
    · rintro ⟨pe, hpe, htable⟩
      obtain ⟨msg, himage⟩ := PeLoader.mapIntoMemory_undefined_iff.mpr htable
      have hparse : expect "Failed to parse PE file" (PeLoader.parse peParse target) =
          .ok ⟨pe, target⟩ := expect_eq_ok.mpr (PeLoader.parse_eq_ok.mpr ⟨pe, hpe, rfl⟩)
      exact ⟨msg, (bind_of_ok hparse).trans (bind_of_error himage)⟩
    · rcases record_raises _ he with hfails | ⟨pe, -, himage⟩
      · exact .inr hfails
      · rcases PeLoader.mapIntoMemory_raises _ _ himage with hmsg | rfl
        · exact .inl hmsg
        · exact .inr (.inr ⟨_, by simp [recordMessages], rfl⟩)
  · intro w hasher ordRestore ordHash fuel archive
    refine ⟨⟨?_, ?_⟩, fun e he => ?_⟩
    · rintro ⟨msg, h⟩
      obtain ⟨-, hdecode⟩ := (replay_raises _ h).resolve_left (hundefined _ msg)
      exact decode_undefined_iff.mp ⟨msg, hdecode⟩
    · intro h
      obtain ⟨msg, hdecode⟩ := decode_undefined_iff.mpr h
      have hexpect : expect "Failed to deserialize trace archive" (decode archive) =
          .error (.undefined msg) := by
        rw [hdecode]
        rfl
      exact ⟨msg, bind_of_error (bind_of_error hexpect)⟩
    · rcases replay_raises _ he with hfails | ⟨hmsg, -⟩
      · exact .inr hfails
      · exact .inl hmsg

end Cli

end Vestigium

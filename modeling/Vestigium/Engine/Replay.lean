/-
  THE REPLAYER — `ReplayEngine` of `engine/src/replay.rs`.

  `ReplayEngine.body` is one pass of the loop in `replay_event`, `replayEvent` the loop, and
  `replayEvents` the `for` over the trace in the Replay command.  The loop can end in `Ok(())` in
  two very different ways, having consumed the event or having printed a line about it, so a pass
  that leaves the loop returns that line, if any, beside the machine.

  `restoreSnapshot` maps the snapshot's OWN buffers into the guest: the region at `gpa` is backed by
  `Buf.region gpa`, and from then on the guest writes to what the snapshot points to.
-/
import Vestigium.Engine.Handling
import Vestigium.Engine.Snapshot

namespace Vestigium

open Vestigium.Loop
open Vestigium.HashMap (Order Entry)

/-- `ReplayEngine`: the registered virtual processors and the active one's id. -/
structure ReplayEngine where
  vcpus : U32 → Option Vcpu
  activeVcpuId : U32

namespace ReplayEngine

/-- `ReplayEngine::new`. -/
def new (initialVcpuId : U32) : ReplayEngine := ⟨fun _ => none, initialVcpuId⟩

/-- `ReplayEngine::register_vcpu`. -/
def registerVcpu (eng : ReplayEngine) (id : U32) (vcpu : Vcpu) : ReplayEngine :=
  { eng with vcpus := Function.update eng.vcpus id (some vcpu) }

/-- `ReplayEngine::active_vcpu`. -/
def activeVcpu (eng : ReplayEngine) : Except Fail Vcpu :=
  match eng.vcpus eng.activeVcpuId with
  | some vcpu => .ok vcpu
  | none => .error (.panic "Active vCPU not found")

theorem activeVcpu_registerVcpu (id : U32) (vcpu : Vcpu) :
    ((new id).registerVcpu id vcpu).activeVcpu = .ok vcpu := by
  simp [activeVcpu, registerVcpu, new]

/-! ## Restoring a snapshot -/

/-- `restore_snapshot`'s loop over the regions, in iteration order. -/
def mapRegions (w : Whp) : List (Entry U64 AlignedMemory) → Machine → Except Fail Machine
  | [], m => .ok m
  | ⟨gpa, data⟩ :: rest, m => do
    let m ← EptManager.mapGpaRange w gpa (.region gpa) (BitVec.ofNat 64 data.bytes.length) 0x7 m
    mapRegions w rest m

/-- `ReplayEngine::restore_snapshot`. -/
def restoreSnapshot (w : Whp) (eng : ReplayEngine) (ord : Order U64 AlignedMemory)
    (snapshot : Snapshot) (registerNames : List Reg) (m : Machine) : Except Fail Machine := do
  let m ← mapRegions w (ord.entries snapshot.memoryRegions) m
  if snapshot.registers.toList ≠ [] then do
    let vcpu ← eng.activeVcpu
    vcpu.setRegisters w registerNames snapshot.registers.toList m
  else return m

/-! ## Injecting an event -/

/-- `ReplayEngine::write_guest_memory`, which is still to be written. -/
def writeGuestMemory (_gpa : U64) (_data : Codec.Vec U8) (m : Machine) : Except Fail Machine :=
  .ok m

/-- The loop over a syscall's memory writes. -/
def writeAll : List (U64 × Codec.Vec U8) → Machine → Except Fail Machine
  | [], m => .ok m
  | (gpa, data) :: rest, m => do
    let m ← writeGuestMemory gpa data m
    writeAll rest m

/-- `ReplayEngine::inject_event`. -/
def injectEvent (w : Whp) (eng : ReplayEngine) (event : TraceEvent) (m : Machine) :
    Except Fail Machine := do
  let vcpu ← eng.activeVcpu
  match event.event with
  | .syscall rax memoryWrites => do
    let m ← vcpu.setRegisters w [.rax] [ofReg64 rax] m
    writeAll memoryWrites.toList m
  | .rdtsc rax rdx => vcpu.setRegisters w [.rax, .rdx] [ofReg64 rax, ofReg64 rdx] m
  | .cpuid eax ebx ecx edx =>
    vcpu.setRegisters w [.rax, .rbx, .rcx, .rdx]
      [ofReg64 (eax.setWidth 64), ofReg64 (ebx.setWidth 64), ofReg64 (ecx.setWidth 64),
        ofReg64 (edx.setWidth 64)] m
  | .contextSwitch _ => return m -- one virtual processor: nothing to switch

/-- `ReplayEngine::advance_rip`. -/
def advanceRip (w : Whp) (eng : ReplayEngine) (instructionLength : U8) (m : Machine) :
    Except Fail Machine := do
  let vcpu ← eng.activeVcpu
  let values ← vcpu.getRegisters w [.rip] m
  let rip := values.headD 0
  let m ← vcpu.setRegisters w [.rip]
    [withReg64 rip (reg64 rip + instructionLength.setWidth 64)] m
  return m.retire vcpu.index -- ghost

/-! ## Replaying one event, and a trace -/

/-- The `match reason` of `replay_event`: what is done with exit `ctx`, taken in state `m`. -/
def onExit (w : Whp) (eng : ReplayEngine) (event : TraceEvent) (vcpu : Vcpu) (ctx : ExitContext)
    (m : Machine) : Except Fail (Pass Machine (Machine × Option Line)) :=
  let reason := ctx.exitReason
  if reason = 1 ∨ reason = 8 then do
    let values ← vcpu.getRegisters w [.rax] m
    return .leave (m, some (.guestHalted (reg64 (values.headD 0))))
  else if reason = 4097 then
    if event.event.isCpuid then do
      let m ← injectEvent w eng event m
      let m ← advanceRip w eng (ctx.bitfield &&& 0x0F) m
      return .leave (m, none)
    else return .again m
  else if reason = 4099 then
    if event.event.isRdtsc then do
      let m ← injectEvent w eng event m
      let m ← advanceRip w eng (ctx.bitfield &&& 0x0F) m
      return .leave (m, none)
    else return .again m
  else if reason = 4 then
    match event.event with
    | .contextSwitch nextThreadId => do
      let values ← vcpu.getRegisters w [.rcx] m
      let currentThreadId : U32 := (reg64 (values.headD 0)).setWidth 32
      if currentThreadId = nextThreadId then do
        let m ← injectEvent w eng event m
        let m ← advanceRip w eng 3 m
        return .leave (m, none)
      else return .leave (m, some (.threadMismatch nextThreadId currentThreadId))
    | _ => return .leave (m, some .unexpectedVmcall)
  else return .leave (m, some (.unhandledExit reason))

/-- One pass of the loop in `replay_event`. -/
def body (w : Whp) (eng : ReplayEngine) (event : TraceEvent) (m : Machine) :
    Except Fail (Pass Machine (Machine × Option Line)) := do
  let vcpu ← eng.activeVcpu
  let (ctx, m) ← VmRunner.run w vcpu m
  onExit w eng event vcpu ctx m

/-- `ReplayEngine::replay_event`, cut off after `fuel` passes: the machine, and the line printed. -/
def replayEvent (w : Whp) (eng : ReplayEngine) (fuel : Nat) (event : TraceEvent) (m : Machine) :
    Except Fail (Machine × Option Line) :=
  (loopFuel (tryPass (body w eng event)) fuel m).getD (.error .outOfFuel)

/-- The event loop of the Replay command, and the line each event printed. -/
def replayEvents (w : Whp) (eng : ReplayEngine) (fuel : Nat) :
    List TraceEvent → Machine → Except Fail (Machine × List (Option Line))
  | [], m => .ok (m, [])
  | event :: events, m => do
    let (m, line) ← replayEvent w eng fuel event m
    let (m, lines) ← replayEvents w eng fuel events m
    return (m, line :: lines)

/-! ## What one pass can do -/

variable {w : Whp} {eng : ReplayEngine} {vcpu : Vcpu}

theorem body_eq_ok (heng : eng.activeVcpu = .ok vcpu) {event : TraceEvent} {m : Machine}
    {p : Pass Machine (Machine × Option Line)} : body w eng event m = .ok p ↔
      ∃ ctx m', VmRunner.run w vcpu m = .ok (ctx, m') ∧ onExit w eng event vcpu ctx m' = .ok p := by
  rw [body, bind_of_ok heng]
  constructor
  · intro h
    obtain ⟨⟨ctx, m'⟩, hrun, h⟩ := bind_eq_ok.mp h
    exact ⟨ctx, m', hrun, h⟩
  · rintro ⟨ctx, m', hrun, h⟩
    exact bind_eq_ok.mpr ⟨(ctx, m'), hrun, h⟩

theorem advanceRip_eq (heng : eng.activeVcpu = .ok vcpu) (len : U8) (m : Machine) :
    advanceRip w eng len m = stepRip w vcpu len m := by
  rw [advanceRip, bind_of_ok heng]
  rfl

/-- An event's payload, for the kinds an exit can match. -/
theorem injectEvent_eq (heng : eng.activeVcpu = .ok vcpu) (event : TraceEvent)
    (hkind : ∀ rax ws, event.event ≠ .syscall rax ws) (m : Machine) :
    injectEvent w eng event m = inject w vcpu event.event m := by
  rw [injectEvent, bind_of_ok heng]
  cases h : event.event with
  | syscall rax ws => exact absurd h (hkind rax ws)
  | _ => rfl

/-- **An exit of the event's own kind** is stepped over, silently, and the loop ends. -/
theorem onExit_of_own (heng : eng.activeVcpu = .ok vcpu) {event : TraceEvent} {ctx : ExitContext}
    {m : Machine} (h : OwnExit w vcpu ctx m event.event) :
    onExit w eng event vcpu ctx m =
      (stepOver w vcpu event.event ctx m >>= fun m' => .ok (.leave (m', none))) := by
  obtain ⟨count, ev⟩ := event
  cases ev with
  | syscall rax ws => exact h.elim
  | cpuid eax ebx ecx edx =>
    have hr : ctx.exitReason = 4097 := h
    have hi := injectEvent_eq (w := w) heng ⟨count, .cpuid eax ebx ecx edx⟩
      (fun _ _ => nofun) m
    simp only [onExit, hr, EventType.isCpuid, hi, stepOver, bind_assoc, advanceRip_eq heng]
    rfl
  | rdtsc rax rdx =>
    have hr : ctx.exitReason = 4099 := h
    have hi := injectEvent_eq (w := w) heng ⟨count, .rdtsc rax rdx⟩
      (fun _ _ => nofun) m
    simp only [onExit, hr, EventType.isRdtsc, hi, stepOver, bind_assoc, advanceRip_eq heng]
    rfl
  | contextSwitch tid =>
    obtain ⟨hr, hread, rfl⟩ := h
    have hrcx : vcpu.getRegisters w [.rcx] m = .ok [(m.vps vcpu.index).regs .rcx] :=
      Vcpu.getRegisters_eq_ok.mpr ⟨hread, rfl⟩
    have hi := injectEvent_eq (w := w) heng ⟨count, .contextSwitch (threadId vcpu m)⟩
      (fun _ _ => nofun) m
    simp only [onExit, hr, hrcx, hi, stepOver, bind_assoc, advanceRip_eq heng]
    simp [threadId, bind, Except.bind, inject, lengthOf, pure, Except.pure]

/-- The exits at which the loop goes round with nothing done: CPUID or RDTSC, and an event of some
    other kind. -/
def Ignored (ctx : ExitContext) (ev : EventType) : Prop :=
  (ctx.exitReason = 4097 ∧ ev.isCpuid = false) ∨ (ctx.exitReason = 4099 ∧ ev.isRdtsc = false)

instance (ctx : ExitContext) (ev : EventType) : Decidable (Ignored ctx ev) :=
  inferInstanceAs (Decidable (_ ∨ _))

/-- A CPUID or RDTSC exit is either the event's own or ignored. -/
theorem ownExit_or_ignored (w : Whp) (vcpu : Vcpu) {ctx : ExitContext} (m : Machine) (ev : EventType)
    (h : ctx.exitReason = 4097 ∨ ctx.exitReason = 4099) :
    OwnExit w vcpu ctx m ev ∨ Ignored ctx ev := by
  rcases h with hr | hr
  · cases ev with
    | cpuid eax ebx ecx edx => exact .inl hr
    | _ => exact .inr (.inl ⟨hr, rfl⟩)
  · cases ev with
    | rdtsc rax rdx => exact .inl hr
    | _ => exact .inr (.inr ⟨hr, rfl⟩)

theorem reason_of_neither {ctx : ExitContext} {m : Machine} {ev : EventType}
    (hown : ¬ OwnExit w vcpu ctx m ev) (hign : ¬ Ignored ctx ev) :
    ctx.exitReason ≠ 4097 ∧ ctx.exitReason ≠ 4099 :=
  ⟨fun hr => (ownExit_or_ignored w vcpu m ev (.inl hr)).elim hown hign,
    fun hr => (ownExit_or_ignored w vcpu m ev (.inr hr)).elim hown hign⟩

/-- The line printed about exit `ctx`, taken in state `m`, when it is not the event's own. -/
def Reported (vcpu : Vcpu) (ctx : ExitContext) (m : Machine) (ev : EventType) : Line → Prop
  | .guestHalted rax =>
    (ctx.exitReason = 1 ∨ ctx.exitReason = 8) ∧ rax = reg64 ((m.vps vcpu.index).regs .rax)
  | .threadMismatch expected got =>
    ctx.exitReason = 4 ∧ ev = .contextSwitch expected ∧ got = threadId vcpu m ∧ got ≠ expected
  | .unexpectedVmcall => ctx.exitReason = 4 ∧ ∀ tid, ev ≠ .contextSwitch tid
  | .unhandledExit reason =>
    reason = ctx.exitReason ∧ reason ≠ 1 ∧ reason ≠ 8 ∧ reason ≠ 4097 ∧ reason ≠ 4099 ∧ reason ≠ 4
  | .eptViolation _ => False

/-- An exit that is reported is not the event's own. -/
theorem Reported.not_ownExit {ctx : ExitContext} {m : Machine} {ev : EventType} {line : Line}
    (h : Reported vcpu ctx m ev line) : ¬ OwnExit w vcpu ctx m ev := by
  intro hown
  have hreason := hown.reason
  cases line with
  | guestHalted rax =>
    obtain ⟨hr, -⟩ := h
    omega
  | threadMismatch expected got =>
    obtain ⟨-, rfl, rfl, hne⟩ := h
    exact hne hown.2.2.symm
  | unexpectedVmcall =>
    obtain ⟨hr, hne⟩ := h
    cases ev with
    | syscall rax ws => exact hown
    | cpuid eax ebx ecx edx =>
      have hr' : ctx.exitReason = 4097 := hown
      omega
    | rdtsc rax rdx =>
      have hr' : ctx.exitReason = 4099 := hown
      omega
    | contextSwitch tid => exact hne tid rfl
  | unhandledExit reason =>
    obtain ⟨rfl, hne⟩ := h
    omega
  | eptViolation gpa => exact h

/-- A CPUID or RDTSC exit for an event of another kind changes nothing, and the loop goes on. -/
theorem onExit_of_ignored {event : TraceEvent} {ctx : ExitContext} {m : Machine}
    (h : Ignored ctx event.event) : onExit w eng event vcpu ctx m = .ok (.again m) := by
  rcases h with ⟨hr, hk⟩ | ⟨hr, hk⟩
  · simp only [onExit, hr, hk]
    rfl
  · simp only [onExit, hr, hk]
    rfl

/-- **What `replay_event` does with one exit**: step over its own, go round at an ignored one, and
    at every other print a line and leave with the machine as it was. -/
theorem onExit_cases (heng : eng.activeVcpu = .ok vcpu) {event : TraceEvent} {ctx : ExitContext}
    {m : Machine} {p : Pass Machine (Machine × Option Line)}
    (h : onExit w eng event vcpu ctx m = .ok p) :
    (OwnExit w vcpu ctx m event.event ∧
        ∃ m', stepOver w vcpu event.event ctx m = .ok m' ∧ p = .leave (m', none)) ∨
      (Ignored ctx event.event ∧ p = .again m) ∨
      ∃ line, Reported vcpu ctx m event.event line ∧ p = .leave (m, some line) := by
  by_cases hown : OwnExit w vcpu ctx m event.event
  · rw [onExit_of_own heng hown] at h
    obtain ⟨m', hstep, hp⟩ := bind_eq_ok.mp h
    cases hp
    exact .inl ⟨hown, m', hstep, rfl⟩
  by_cases hign : Ignored ctx event.event
  · rw [onExit_of_ignored hign] at h
    cases h
    exact .inr (.inl ⟨hign, rfl⟩)
  refine .inr (.inr ?_)
  by_cases hhalt : ctx.exitReason = 1 ∨ ctx.exitReason = 8
  · -- a halt or a memory violation: whatever the event, RAX is printed
    simp only [onExit, hhalt, if_true] at h
    obtain ⟨values, hv, hp⟩ := bind_eq_ok.mp h
    cases hp
    obtain ⟨-, rfl⟩ := Vcpu.getRegisters_eq_ok.mp hv
    exact ⟨.guestHalted _, ⟨hhalt, rfl⟩, rfl⟩
  obtain ⟨hcpuid, hrdtsc⟩ := reason_of_neither hown hign
  by_cases hvmcall : ctx.exitReason = 4
  · cases hev : event.event with
    | contextSwitch tid =>
      -- the exit is not the event's own, so it is the thread that does not match
      simp only [onExit, hvmcall, hev] at h
      obtain ⟨values, hv, hp⟩ := bind_eq_ok.mp h
      obtain ⟨hread, rfl⟩ := Vcpu.getRegisters_eq_ok.mp hv
      have hne : threadId vcpu m ≠ tid := fun htid => hown (by
        rw [hev]
        exact ⟨hvmcall, hread, htid.symm⟩)
      rw [if_neg (by exact hne)] at hp
      cases hp
      exact ⟨.threadMismatch tid (threadId vcpu m), ⟨hvmcall, rfl, rfl, hne⟩, rfl⟩
    | _ =>
      simp only [onExit, hvmcall, hev] at h
      cases h
      exact ⟨.unexpectedVmcall, ⟨hvmcall, fun _ => nofun⟩, rfl⟩
  · simp only [onExit, hhalt, hcpuid, hrdtsc, hvmcall, if_false] at h
    cases h
    exact ⟨.unhandledExit ctx.exitReason, ⟨rfl, fun h => hhalt (.inl h), fun h => hhalt (.inr h),
      hcpuid, hrdtsc, hvmcall⟩, rfl⟩

/-- Where no call fails, no exit does. -/
theorem onExit_of_noFault (hw : ∀ c, w.fault c = none) (heng : eng.activeVcpu = .ok vcpu)
    (event : TraceEvent) (ctx : ExitContext) (m : Machine) :
    ∃ p, onExit w eng event vcpu ctx m = .ok p := by
  have hget : ∀ names, vcpu.getRegisters w names m = .ok (names.map (m.vps vcpu.index).regs) :=
    fun names => Vcpu.getRegisters_eq_ok.mpr ⟨hw _, rfl⟩
  by_cases hown : OwnExit w vcpu ctx m event.event
  · rw [onExit_of_own heng hown, stepOver_of_noFault hw]
    exact ⟨_, rfl⟩
  by_cases hign : Ignored ctx event.event
  · exact ⟨_, onExit_of_ignored hign⟩
  obtain ⟨hcpuid, hrdtsc⟩ := reason_of_neither hown hign
  simp only [onExit, hcpuid, hrdtsc, if_false]
  split
  · rw [hget]
    exact ⟨_, rfl⟩
  split
  · split
    · rename_i hr _ tid hev
      rw [hget, bind_of_ok rfl]
      split
      · rename_i htid
        exact absurd (show OwnExit w vcpu ctx m event.event by
          rw [hev]
          exact ⟨hr, hw _, htid.symm⟩) hown
      · exact ⟨_, rfl⟩
    · exact ⟨_, rfl⟩
  · exact ⟨_, rfl⟩

/-- A pass that meets an exit of the event's own kind consumes the event. -/
theorem body_of_own (heng : eng.activeVcpu = .ok vcpu) {event : TraceEvent} {m m1 m' : Machine}
    {ctx : ExitContext} (hrun : VmRunner.run w vcpu m = .ok (ctx, m1))
    (hown : OwnExit w vcpu ctx m1 event.event)
    (hstep : stepOver w vcpu event.event ctx m1 = .ok m') :
    body w eng event m = .ok (.leave (m', none)) := by
  refine (body_eq_ok heng).mpr ⟨ctx, m1, hrun, ?_⟩
  rw [onExit_of_own heng hown, hstep]
  rfl

/-- A pass goes round again exactly at an ignored exit. -/
theorem body_eq_again (heng : eng.activeVcpu = .ok vcpu) {event : TraceEvent} {m m' : Machine} :
    body w eng event m = .ok (.again m') ↔
      ∃ ctx, VmRunner.run w vcpu m = .ok (ctx, m') ∧ Ignored ctx event.event := by
  rw [body_eq_ok heng]
  constructor
  · rintro ⟨ctx, m1, hrun, h⟩
    rcases onExit_cases heng h with ⟨-, _, -, hp⟩ | ⟨hign, hp⟩ | ⟨_, -, hp⟩
    · nomatch hp
    · cases hp
      exact ⟨ctx, hrun, hign⟩
    · nomatch hp
  · rintro ⟨ctx, hrun, hign⟩
    exact ⟨ctx, m', hrun, onExit_of_ignored hign⟩

/-- A pass leaves the loop having consumed the event, or having printed a line about the exit. -/
theorem body_eq_leave (heng : eng.activeVcpu = .ok vcpu) {event : TraceEvent} {m m' : Machine}
    {line : Option Line} (h : body w eng event m = .ok (.leave (m', line))) :
    ∃ ctx m1, VmRunner.run w vcpu m = .ok (ctx, m1) ∧
      ((line = none ∧ OwnExit w vcpu ctx m1 event.event ∧
          stepOver w vcpu event.event ctx m1 = .ok m') ∨
        (m' = m1 ∧ ∃ l, line = some l ∧ Reported vcpu ctx m1 event.event l)) := by
  obtain ⟨ctx, m1, hrun, h⟩ := (body_eq_ok heng).mp h
  refine ⟨ctx, m1, hrun, ?_⟩
  rcases onExit_cases heng h with ⟨hown, m2, hstep, hp⟩ | ⟨-, hp⟩ | ⟨l, hl, hp⟩
  · cases hp
    exact .inl ⟨rfl, hown, hstep⟩
  · nomatch hp
  · cases hp
    exact .inr ⟨rfl, l, rfl, hl⟩

/-- `replay_event` returns once some pass, after ignored exits only, leaves the loop. -/
theorem replayEvent_eq_ok {fuel : Nat} {event : TraceEvent} {m : Machine}
    {r : Machine × Option Line} : replayEvent w eng fuel event m = .ok r ↔
      ∃ k < fuel, ∃ t, afterPasses (tryPass (body w eng event)) k m = some t ∧
        body w eng event t = .ok (.leave r) :=
  tryLoop_eq_ok

/-- One pass is enough when the first one leaves the loop. -/
theorem replayEvent_of_leave {event : TraceEvent} {m : Machine} {r : Machine × Option Line}
    (h : body w eng event m = .ok (.leave r)) (passes : Nat) :
    replayEvent w eng (passes + 1) event m = .ok r :=
  replayEvent_eq_ok.mpr ⟨0, Nat.succ_pos passes, m, rfl, h⟩

/-- A pass that goes round is one pass less. -/
theorem replayEvent_of_again {event : TraceEvent} {m m' : Machine}
    (h : body w eng event m = .ok (.again m')) (passes : Nat) :
    replayEvent w eng (passes + 1) event m = replayEvent w eng passes event m' := by
  rw [replayEvent, replayEvent, loopFuel_again (tryPass_eq_again.mpr h)]

theorem replayEvents_cons {fuel : Nat} {event : TraceEvent} {events : List TraceEvent} {m m' : Machine}
    {lines : List (Option Line)} : replayEvents w eng fuel (event :: events) m = .ok (m', lines) ↔
      ∃ m1 line rest, replayEvent w eng fuel event m = .ok (m1, line) ∧
        replayEvents w eng fuel events m1 = .ok (m', rest) ∧ lines = line :: rest := by
  rw [replayEvents]
  constructor
  · intro h
    obtain ⟨⟨m1, line⟩, h1, h⟩ := bind_eq_ok.mp h
    obtain ⟨⟨m2, rest⟩, h2, h⟩ := bind_eq_ok.mp h
    cases h
    exact ⟨m1, line, rest, h1, h2, rfl⟩
  · rintro ⟨m1, line, rest, h1, h2, rfl⟩
    rw [h1, bind_of_ok rfl]
    show (replayEvents w eng fuel events m1 >>= fun x => Except.ok (x.1, line :: x.2)) = _
    rw [h2]
    rfl

/-- What passes and steps keep is kept by the replay of an event. -/
theorem replayEvent_kept (heng : eng.activeVcpu = .ok vcpu) {P : Machine → Prop}
    (hP : Kept w vcpu P) {fuel : Nat} {event : TraceEvent} {m m' : Machine} {line : Option Line}
    (hm : P m) (h : replayEvent w eng fuel event m = .ok (m', line)) : P m' := by
  obtain ⟨k, -, t, ht, hleave⟩ := replayEvent_eq_ok.mp h
  -- the passes that go round, then the one that leaves
  have hPt : P t := by
    refine afterPasses_inv P (fun {u u'} hu hb => ?_) hm ht
    obtain ⟨ctx, hrun, -⟩ := (body_eq_again heng).mp (tryPass_eq_again.mp hb)
    exact hP.run hu hrun
  obtain ⟨ctx, m2, hrun, ⟨-, -, hstep⟩ | ⟨rfl, -⟩⟩ := body_eq_leave heng hleave
  · exact hP.stepOver (hP.run hPt hrun) hstep
  · exact hP.run hPt hrun

/-- What a run and a step keep holds after a replay, whatever the trace. -/
theorem replayEvents_kept (heng : eng.activeVcpu = .ok vcpu) {P : Machine → Prop}
    (hP : Kept w vcpu P) {fuel : Nat} : ∀ (events : List TraceEvent) {m m' : Machine}
    {lines : List (Option Line)}, P m → replayEvents w eng fuel events m = .ok (m', lines) → P m'
  | [], m, m', lines, hm, h => by
    cases h
    exact hm
  | event :: events, m, m', lines, hm, h => by
    obtain ⟨m1, line, rest, hone, hrest, -⟩ := replayEvents_cons.mp h
    exact replayEvents_kept heng hP events (replayEvent_kept heng hP hm hone) hrest

/-- More passes do no harm. -/
theorem replayEvents_mono {fuel fuel' : Nat} (hle : fuel ≤ fuel') : ∀ {events : List TraceEvent}
    {m m' : Machine} {lines : List (Option Line)},
    replayEvents w eng fuel events m = .ok (m', lines) →
      replayEvents w eng fuel' events m = .ok (m', lines)
  | [], _, _, _, h => h
  | event :: events, m, m', lines, h => by
    obtain ⟨m1, line, rest, hone, hrest, hlines⟩ := replayEvents_cons.mp h
    obtain ⟨k, hk, t, ht, hleave⟩ := replayEvent_eq_ok.mp hone
    exact replayEvents_cons.mpr ⟨m1, line, rest,
      replayEvent_eq_ok.mpr ⟨k, Nat.lt_of_lt_of_le hk hle, t, ht, hleave⟩,
      replayEvents_mono hle hrest, hlines⟩

/-- An event is replayed by its payload alone: no replayer looks at the instruction count. -/
theorem replayEvent_congr {fuel : Nat} {event event' : TraceEvent} (h : event.event = event'.event)
    (m : Machine) : replayEvent w eng fuel event m = replayEvent w eng fuel event' m := by
  cases event
  cases event'
  cases h
  rfl

theorem replayEvents_congr {fuel : Nat} : ∀ {events events' : List TraceEvent},
    events.map (·.event) = events'.map (·.event) →
    ∀ m, replayEvents w eng fuel events m = replayEvents w eng fuel events' m
  | [], [], _, _ => rfl
  | event :: events, event' :: events', h, m => by
    rw [List.map_cons, List.map_cons, List.cons.injEq] at h
    rw [replayEvents, replayEvents, replayEvent_congr h.1]
    refine congrArg _ (funext fun r => ?_)
    obtain ⟨m1, line⟩ := r
    dsimp only
    rw [replayEvents_congr h.2 m1]

end ReplayEngine

end Vestigium

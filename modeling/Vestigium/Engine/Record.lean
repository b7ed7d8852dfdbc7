/-
  THE RECORDER — `RecordEngine` of `engine/src/record.rs`.

  `RecordEngine.body` is one pass of the loop in `RecordEngine::run`, with the source's numeric exit
  reasons; `RecordEngine.run` is the loop.  The values the source answers CPUID and RDTSC with are
  constants in it (`simulated`); the body takes them as a parameter that may answer every exit
  differently, so that what is proved holds of a recorder that passes through real values too.

  `body_eq_again` and `body_eq_leave` say everything a pass can do.  Nothing below this module
  unfolds the body again, except to set it beside itself (`Vestigium.Engine.TwoRuns`).
-/
import Vestigium.Engine.Handling

namespace Vestigium

open Vestigium.Loop

/-! ## The trace logger -/

structure TraceLogger where
  events : List TraceEvent

/-- `TraceLogger::new`. -/
def TraceLogger.new : TraceLogger := ⟨[]⟩

/-- `TraceLogger::log_event`. -/
def TraceLogger.logEvent (l : TraceLogger) (e : TraceEvent) : TraceLogger := ⟨l.events ++ [e]⟩

/-! ## The loop -/

/-- The values CPUID and RDTSC are answered with, by the number of events logged so far. -/
structure SimAnswers where
  cpuid : Nat → U32 × U32 × U32 × U32
  rdtsc : Nat → U64 × U64

/-- `sim_eax` … `sim_edx` and `sim_rax`, `sim_rdx` of the source. -/
def simulated : SimAnswers where
  cpuid _ := (0xAAAAAAAA, 0xBBBBBBBB, 0xCCCCCCCC, 0xDDDDDDDD)
  rdtsc _ := (0x1000, 0x0)

/-- What the loop carries: the machine, the engine's logger and the local `instruction_count`. -/
structure RecordState where
  machine : Machine
  logger : TraceLogger
  instructionCount : U64

/-- How the loop ends: the exit it stopped at and the line it printed. -/
structure Stopped where
  state : RecordState
  exit : ExitContext
  line : Line

namespace RecordEngine

/-- `RecordEngine::advance_rip`. -/
def advanceRip (w : Whp) (vcpu : Vcpu) (instructionLength : U8) (m : Machine) :
    Except Fail Machine := do
  let values ← vcpu.getRegisters w [.rip] m
  let rip := values.headD 0
  let m ← vcpu.setRegisters w [.rip]
    [withReg64 rip (reg64 rip + instructionLength.setWidth 64)] m
  return m.retire vcpu.index -- ghost

/-- The `match reason` of `RecordEngine::run`: what is done with exit `ctx`, taken in state `m`. -/
def onExit (w : Whp) (sim : SimAnswers) (vcpu : Vcpu) (s : RecordState) (ctx : ExitContext)
    (m : Machine) : Except Fail (Pass RecordState Stopped) :=
  let reason := ctx.exitReason
  if reason = 1 then
    return .leave ⟨{ s with machine := m }, ctx, .eptViolation ctx.gpa⟩
  else if reason = 8 then do
    let values ← vcpu.getRegisters w [.rax] m
    return .leave ⟨{ s with machine := m }, ctx, .guestHalted (reg64 (values.headD 0))⟩
  else if reason = 4097 then do
    let (eax, ebx, ecx, edx) := sim.cpuid s.logger.events.length
    let m ← vcpu.setRegisters w [.rax, .rbx, .rcx, .rdx]
      [ofReg64 (eax.setWidth 64), ofReg64 (ebx.setWidth 64), ofReg64 (ecx.setWidth 64),
        ofReg64 (edx.setWidth 64)] m
    let logger := s.logger.logEvent ⟨s.instructionCount, .cpuid eax ebx ecx edx⟩
    let m ← advanceRip w vcpu (ctx.bitfield &&& 0x0F) m
    return .again ⟨m, logger, s.instructionCount + 1⟩
  else if reason = 4099 then do
    let (rax, rdx) := sim.rdtsc s.logger.events.length
    let m ← vcpu.setRegisters w [.rax, .rdx] [ofReg64 rax, ofReg64 rdx] m
    let logger := s.logger.logEvent ⟨s.instructionCount, .rdtsc rax rdx⟩
    let m ← advanceRip w vcpu (ctx.bitfield &&& 0x0F) m
    return .again ⟨m, logger, s.instructionCount + 1⟩
  else if reason = 4 then do
    let values ← vcpu.getRegisters w [.rcx] m
    let threadId : U32 := (reg64 (values.headD 0)).setWidth 32
    let logger := s.logger.logEvent ⟨s.instructionCount, .contextSwitch threadId⟩
    let m ← advanceRip w vcpu 3 m
    return .again ⟨m, logger, s.instructionCount + 1⟩
  else
    return .leave ⟨{ s with machine := m }, ctx, .unhandledExit reason⟩

/-- One pass of the loop in `RecordEngine::run`. -/
def body (w : Whp) (sim : SimAnswers) (vcpu : Vcpu) (s : RecordState) :
    Except Fail (Pass RecordState Stopped) := do
  let (ctx, m) ← VmRunner.run w vcpu s.machine
  onExit w sim vcpu s ctx m

/-- The state the loop starts in: nothing logged, the counter at `0`. -/
def start (m : Machine) : RecordState := ⟨m, TraceLogger.new, 0⟩

/-- `RecordEngine::run`, on a fresh engine, cut off after `fuel` passes. -/
def run (w : Whp) (sim : SimAnswers) (vcpu : Vcpu) (fuel : Nat) (m : Machine) :
    Except Fail Stopped :=
  (loopFuel (tryPass (body w sim vcpu)) fuel (start m)).getD (.error .outOfFuel)

/-! ## What one pass can do -/

/-- The event logged for exit `ctx`, taken in state `m` after `k` events. -/
def Answers (w : Whp) (sim : SimAnswers) (vcpu : Vcpu) (k : Nat) (ctx : ExitContext) (m : Machine)
    (ev : EventType) : Prop :=
  OwnExit w vcpu ctx m ev ∧
    match ev with
    | .cpuid eax ebx ecx edx => sim.cpuid k = (eax, ebx, ecx, edx)
    | .rdtsc rax rdx => sim.rdtsc k = (rax, rdx)
    | _ => True

/-- The exits at which the recording ends. -/
def Terminal (ctx : ExitContext) : Prop :=
  ctx.exitReason ≠ 4097 ∧ ctx.exitReason ≠ 4099 ∧ ctx.exitReason ≠ 4

instance (ctx : ExitContext) : Decidable (Terminal ctx) := inferInstanceAs (Decidable (_ ∧ _ ∧ _))

/-- The recorder's copy of `advance_rip` steps as far as `stepRip` does. -/
theorem advanceRip_eq (w : Whp) (vcpu : Vcpu) (len : U8) (m : Machine) :
    advanceRip w vcpu len m = stepRip w vcpu len m := rfl

/-- The state after exit `ctx` has been handled as `ev`. -/
def logged (s : RecordState) (ev : EventType) (m : Machine) : RecordState :=
  ⟨m, s.logger.logEvent ⟨s.instructionCount, ev⟩, s.instructionCount + 1⟩

variable {w : Whp} {sim : SimAnswers} {vcpu : Vcpu}

theorem body_eq_ok {s : RecordState} {p : Pass RecordState Stopped} :
    body w sim vcpu s = .ok p ↔
      ∃ ctx m, VmRunner.run w vcpu s.machine = .ok (ctx, m) ∧ onExit w sim vcpu s ctx m = .ok p := by
  constructor
  · intro h
    obtain ⟨⟨ctx, m⟩, hrun, h⟩ := bind_eq_ok.mp h
    exact ⟨ctx, m, hrun, h⟩
  · rintro ⟨ctx, m, hrun, h⟩
    exact bind_eq_ok.mpr ⟨(ctx, m), hrun, h⟩

/-- An exit that the engine handles is one it logs an event for and steps over. -/
theorem onExit_of_answers {s : RecordState} {ctx : ExitContext} {m : Machine} {ev : EventType}
    (h : Answers w sim vcpu s.logger.events.length ctx m ev) :
    onExit w sim vcpu s ctx m =
      (stepOver w vcpu ev ctx m >>= fun m' => .ok (.again (logged s ev m'))) := by
  obtain ⟨hown, hans⟩ := h
  cases ev with
  | syscall rax ws => exact hown.elim -- no exit is ever logged as a syscall
  | cpuid eax ebx ecx edx =>
    have hr : ctx.exitReason = 4097 := hown
    simp only [onExit, hr, hans, stepOver, inject, bind_assoc, advanceRip_eq]
    rfl
  | rdtsc rax rdx =>
    have hr : ctx.exitReason = 4099 := hown
    simp only [onExit, hr, hans, stepOver, inject, bind_assoc, advanceRip_eq]
    rfl
  | contextSwitch tid =>
    obtain ⟨hr, hread, rfl⟩ := hown
    have hrcx : vcpu.getRegisters w [.rcx] m = .ok [(m.vps vcpu.index).regs .rcx] :=
      Vcpu.getRegisters_eq_ok.mpr ⟨hread, rfl⟩
    simp only [onExit, hr, hrcx, advanceRip_eq]
    rfl

/-- At every other exit the loop does not go round again. -/
theorem onExit_of_terminal {s : RecordState} {ctx : ExitContext} {m : Machine} {p}
    (ht : Terminal ctx) (h : onExit w sim vcpu s ctx m = .ok p) :
    ∃ line, p = .leave ⟨{ s with machine := m }, ctx, line⟩ := by
  obtain ⟨h1, h2, h3⟩ := ht
  unfold onExit at h
  simp only [h1, h2, h3, if_false] at h
  split at h
  · cases h
    exact ⟨_, rfl⟩
  · split at h
    · obtain ⟨values, -, hp⟩ := bind_eq_ok.mp h
      cases hp
      exact ⟨_, rfl⟩
    · cases h
      exact ⟨_, rfl⟩

/-- A handled exit has exactly one event, unless reading RCX fails. -/
theorem answers_of_not_terminal {s : RecordState} {ctx : ExitContext} {m : Machine} {p}
    (ht : ¬ Terminal ctx) (h : onExit w sim vcpu s ctx m = .ok p) :
    ∃ ev, Answers w sim vcpu s.logger.events.length ctx m ev := by
  by_cases h1 : ctx.exitReason = 4097
  · exact ⟨.cpuid _ _ _ _, h1, rfl⟩
  · by_cases h2 : ctx.exitReason = 4099
    · exact ⟨.rdtsc _ _, h2, rfl⟩
    · have h3 : ctx.exitReason = 4 := by
        by_contra h3
        exact ht ⟨h1, h2, h3⟩
      simp only [onExit, h3] at h
      obtain ⟨values, hv, -⟩ := bind_eq_ok.mp h
      exact ⟨.contextSwitch (threadId vcpu m), ⟨h3, (Vcpu.getRegisters_eq_ok.mp hv).1, rfl⟩, trivial⟩

/-- **A pass goes round again** exactly when it handled an exit as the event it logged. -/
theorem body_eq_again {s s' : RecordState} :
    body w sim vcpu s = .ok (.again s') ↔
      ∃ ctx m ev, VmRunner.run w vcpu s.machine = .ok (ctx, m) ∧
        Answers w sim vcpu s.logger.events.length ctx m ev ∧
        stepOver w vcpu ev ctx m = .ok s'.machine ∧ s' = logged s ev s'.machine := by
  constructor
  · intro h
    obtain ⟨ctx, m, hrun, h⟩ := body_eq_ok.mp h
    have hnt : ¬ Terminal ctx := by
      intro ht
      obtain ⟨line, hp⟩ := onExit_of_terminal ht h
      nomatch hp
    obtain ⟨ev, hans⟩ := answers_of_not_terminal hnt h
    rw [onExit_of_answers hans] at h
    obtain ⟨m', hstep, hs'⟩ := bind_eq_ok.mp h
    cases hs'
    exact ⟨ctx, m, ev, hrun, hans, hstep, rfl⟩
  · rintro ⟨ctx, m, ev, hrun, hans, hstep, hs'⟩
    refine body_eq_ok.mpr ⟨ctx, m, hrun, ?_⟩
    rw [onExit_of_answers hans, hstep, hs']
    rfl

/-- **A pass leaves the loop** only at a terminal exit, with nothing logged. -/
theorem body_eq_leave {s : RecordState} {stop : Stopped}
    (h : body w sim vcpu s = .ok (.leave stop)) :
    VmRunner.run w vcpu s.machine = .ok (stop.exit, stop.state.machine) ∧ Terminal stop.exit ∧
      stop.state = { s with machine := stop.state.machine } := by
  obtain ⟨ctx, m, hrun, h⟩ := body_eq_ok.mp h
  by_cases ht : Terminal ctx
  · obtain ⟨line, hp⟩ := onExit_of_terminal ht h
    cases hp
    exact ⟨hrun, ht, rfl⟩
  · obtain ⟨ev, hans⟩ := answers_of_not_terminal ht h
    rw [onExit_of_answers hans] at h
    obtain ⟨m', -, hs'⟩ := bind_eq_ok.mp h
    nomatch hs'

/-- What is printed at a terminal exit. -/
def endLine (vcpu : Vcpu) (ctx : ExitContext) (m : Machine) : Line :=
  if ctx.exitReason = 1 then .eptViolation ctx.gpa
  else if ctx.exitReason = 8 then .guestHalted (reg64 ((m.vps vcpu.index).regs .rax))
  else .unhandledExit ctx.exitReason

/-- A pass that leaves the loop prints the line of its exit; at a halt it has read RAX for that. -/
theorem line_of_leave {s : RecordState} {stop : Stopped}
    (h : body w sim vcpu s = .ok (.leave stop)) :
    stop.line = endLine vcpu stop.exit stop.state.machine ∧
      (stop.exit.exitReason = 8 → w.fault (.getRegisters vcpu.index [.rax]
        (stop.state.machine.vps vcpu.index).regs) = none) := by
  obtain ⟨state, exit, line⟩ := stop
  obtain ⟨-, ⟨h1, h2, h3⟩, -⟩ := body_eq_leave h
  obtain ⟨ctx, m, -, h⟩ := body_eq_ok.mp h
  have hctx : ctx = exit := by
    by_cases ht : Terminal ctx
    · obtain ⟨line', hp⟩ := onExit_of_terminal ht h
      cases hp
      rfl
    · obtain ⟨ev, hans⟩ := answers_of_not_terminal ht h
      rw [onExit_of_answers hans] at h
      obtain ⟨m', -, hs'⟩ := bind_eq_ok.mp h
      cases hs'
  subst hctx
  dsimp only at h1 h2 h3 ⊢
  unfold onExit at h
  simp only [h1, h2, h3, if_false] at h
  unfold endLine
  by_cases hviolation : ctx.exitReason = 1
  · rw [if_pos hviolation] at h ⊢
    cases h
    exact ⟨rfl, fun hhalt => absurd (hviolation.symm.trans hhalt) (by decide)⟩
  rw [if_neg hviolation] at h ⊢
  by_cases hhalt : ctx.exitReason = 8
  · rw [if_pos hhalt] at h ⊢
    obtain ⟨values, hv, hp⟩ := bind_eq_ok.mp h
    obtain ⟨hread, rfl⟩ := Vcpu.getRegisters_eq_ok.mp hv
    cases hp
    exact ⟨rfl, fun _ => hread⟩
  · rw [if_neg hhalt] at h ⊢
    cases h
    exact ⟨rfl, fun heq => absurd heq hhalt⟩

/-! ## Runs -/

/-- The recorder after it has handled its `k`-th exit. -/
def after (w : Whp) (sim : SimAnswers) (vcpu : Vcpu) (k : Nat) (m : Machine) : Option RecordState :=
  afterPasses (tryPass (body w sim vcpu)) k (start m)

/-- `run` returns once some pass, after handled exits only, meets a terminal one. -/
theorem run_eq_ok {fuel : Nat} {m : Machine} {stop : Stopped} :
    run w sim vcpu fuel m = .ok stop ↔
      ∃ k < fuel, ∃ s, after w sim vcpu k m = some s ∧ body w sim vcpu s = .ok (.leave stop) :=
  tryLoop_eq_ok

theorem after_succ {k : Nat} {m : Machine} {s' : RecordState} :
    after w sim vcpu (k + 1) m = some s' ↔
      ∃ s, after w sim vcpu k m = some s ∧ body w sim vcpu s = .ok (.again s') := by
  rw [after, afterPasses_succ]
  simp only [tryPass_eq_again]
  rfl

/-- One event for each exit handled, counted as it is logged. -/
theorem after_length : ∀ {k : Nat} {m : Machine} {s : RecordState}, after w sim vcpu k m = some s →
    s.logger.events.length = k ∧ s.instructionCount = BitVec.ofNat 64 k
  | 0, m, s, h => by
    cases h
    exact ⟨rfl, rfl⟩
  | k + 1, m, s', h => by
    obtain ⟨s, hs, hbody⟩ := after_succ.mp h
    obtain ⟨hlen, hcount⟩ := after_length hs
    obtain ⟨ctx, m1, ev, -, -, -, hs'⟩ := body_eq_again.mp hbody
    rw [hs']
    constructor
    · simp [logged, TraceLogger.logEvent, hlen]
    · rw [logged, hcount, BitVec.ofNat_add]
      rfl

/-- What a run and a step keep holds at every exit handled, … -/
theorem after_kept {P : Machine → Prop} (hP : Kept w vcpu P) {k : Nat} {m : Machine} {s : RecordState}
    (hm : P m) (hs : after w sim vcpu k m = some s) : P s.machine := by
  refine afterPasses_inv (fun s => P s.machine) (fun {s s'} h hb => ?_) hm hs
  obtain ⟨ctx, m1, ev, hrun, -, hstep, -⟩ := body_eq_again.mp (tryPass_eq_again.mp hb)
  exact hP.stepOver (hP.run h hrun) hstep

/-- … and where the recording ends. -/
theorem run_kept {P : Machine → Prop} (hP : Kept w vcpu P) {fuel : Nat} {m : Machine}
    {stop : Stopped} (hm : P m) (h : run w sim vcpu fuel m = .ok stop) : P stop.state.machine := by
  obtain ⟨k, -, s, hs, hbody⟩ := run_eq_ok.mp h
  exact hP.run (after_kept hP hm hs) (body_eq_leave hbody).1

/-- The trace only grows. -/
theorem after_take {j k : Nat} {m : Machine} {s t : RecordState} (hjk : j ≤ k)
    (hs : after w sim vcpu j m = some s) (ht : after w sim vcpu k m = some t) :
    s.logger.events = t.logger.events.take j := by
  have hprefix : s.logger.events <+: t.logger.events := by
    obtain ⟨i, rfl⟩ := Nat.exists_eq_add_of_le hjk
    obtain ⟨u, hu, ht⟩ := afterPasses_add.mp ht
    rw [show afterPasses (tryPass (body w sim vcpu)) j (start m) = some s from hs] at hu
    cases hu
    refine afterPasses_inv (fun t => s.logger.events <+: t.logger.events)
      (fun {u u'} hu hb => ?_) (List.prefix_refl _) ht
    obtain ⟨ctx, m1, ev, -, -, -, hu'⟩ := body_eq_again.mp (tryPass_eq_again.mp hb)
    rw [hu']
    exact hu.trans (List.prefix_append _ _)
  rw [List.prefix_iff_eq_take.mp hprefix, (after_length hs).1]

/-! ## What a trace can be -/

/-- The recorder with answers `sim` can log `ev` as event number `k`. -/
def Loggable (sim : SimAnswers) (k : Nat) : EventType → Prop
  | .cpuid eax ebx ecx edx => sim.cpuid k = (eax, ebx, ecx, edx)
  | .rdtsc rax rdx => sim.rdtsc k = (rax, rdx)
  | .contextSwitch _ => True
  | .syscall _ _ => False

/-- `evs` can be the payloads of a trace. -/
def Recordable (sim : SimAnswers) (evs : List EventType) : Prop :=
  ∀ k ev, evs[k]? = some ev → Loggable sim k ev

theorem loggable_of_answers {k : Nat} {ctx : ExitContext} {m : Machine} {ev : EventType}
    (h : Answers w sim vcpu k ctx m ev) : Loggable sim k ev := by
  cases ev with
  | syscall rax ws => exact h.1
  | cpuid eax ebx ecx edx => exact h.2
  | rdtsc rax rdx => exact h.2
  | contextSwitch tid => trivial

theorem answers_of_loggable {k : Nat} {ctx : ExitContext} {m : Machine} {ev : EventType}
    (hown : OwnExit w vcpu ctx m ev) (h : Loggable sim k ev) : Answers w sim vcpu k ctx m ev := by
  refine ⟨hown, ?_⟩
  cases ev with
  | syscall rax ws => trivial
  | cpuid eax ebx ecx edx => exact h
  | rdtsc rax rdx => exact h
  | contextSwitch tid => trivial

theorem recordable_of_after : ∀ {k : Nat} {m : Machine} {s : RecordState},
    after w sim vcpu k m = some s → Recordable sim (s.logger.events.map (·.event))
  | 0, m, s, h => by
    cases h
    intro k ev hev
    nomatch hev
  | k + 1, m, s', h => by
    obtain ⟨s, hs, hbody⟩ := after_succ.mp h
    obtain ⟨ctx, m1, ev, -, hans, -, hs'⟩ := body_eq_again.mp hbody
    have hlog : s'.logger.events.map (·.event) = s.logger.events.map (·.event) ++ [ev] := by
      rw [hs', logged, TraceLogger.logEvent, List.map_append]
      rfl
    intro j ev' hev'
    rw [hlog] at hev'
    rcases Nat.lt_or_ge j (s.logger.events.map (·.event)).length with hj | hj
    · rw [List.getElem?_append_left hj] at hev'
      exact recordable_of_after hs j ev' hev'
    · -- the last event, logged under the number of those before it
      obtain ⟨hlt, hlast⟩ := List.getElem?_eq_some_iff.mp hev'
      rw [List.length_append, List.length_singleton] at hlt
      obtain rfl : j = (s.logger.events.map (·.event)).length := by omega
      rw [List.getElem_concat_length rfl] at hlast
      rw [← hlast, List.length_map]
      exact loggable_of_answers hans

/-- **Every trace of a recording is recordable.** -/
theorem recordable_of_run {fuel : Nat} {m : Machine} {stop : Stopped}
    (h : run w sim vcpu fuel m = .ok stop) :
    Recordable sim (stop.state.logger.events.map (·.event)) := by
  obtain ⟨k, -, s, hs, hbody⟩ := run_eq_ok.mp h
  have hlog : stop.state.logger.events = s.logger.events := by rw [(body_eq_leave hbody).2.2]
  rw [hlog]
  exact recordable_of_after hs

end RecordEngine

end Vestigium

/-
  A GUEST THAT DOES NOT MATCH THE TRACE — what `replay_event` does with it.

  Three things can happen to an event.  Its exit comes, and it is consumed; an exit comes that the
  replayer has something to say about, and the event is reported and dropped; or an exit comes that
  the `match` neither consumes nor breaks at, and the loop goes round.  The first two return
  `Ok(())` alike, so the result alone does not tell them apart: the printed line does
  (`Played`).  The third never returns, because an intercepted instruction that RIP is not moved
  over is intercepted again (`replayEvent_of_stuck`).
-/
import Vestigium.Engine.Replay
import Vestigium.Vmm.SampleCpu

namespace Vestigium.ReplayEngine

open Vestigium.Loop

variable {w : Whp} {eng : ReplayEngine} {vcpu : Vcpu}

/-! ## Consumed and reported -/

/-- The loop goes from `m` to `t` by passes that do nothing but run the vCPU. -/
def Skips (w : Whp) (eng : ReplayEngine) (event : TraceEvent) (m t : Machine) : Prop :=
  ∃ k, afterPasses (tryPass (body w eng event)) k m = some t

/-- **Consumed.**  An exit of the event's own kind came, the event's payload is in the registers and
    RIP is past the instruction. -/
def Consumes (w : Whp) (eng : ReplayEngine) (vcpu : Vcpu) (event : TraceEvent) (m m' : Machine) :
    Prop :=
  ∃ t ctx m1, Skips w eng event m t ∧ VmRunner.run w vcpu t = .ok (ctx, m1) ∧
    OwnExit w vcpu ctx m1 event.event ∧
    m' = stepped vcpu (lengthOf event.event ctx) (injected vcpu event.event m1)

/-- **Reported.**  Some other exit came, `line` says so, and the machine is as it was at that exit. -/
def Reports (w : Whp) (eng : ReplayEngine) (vcpu : Vcpu) (event : TraceEvent) (line : Line)
    (m m' : Machine) : Prop :=
  ∃ t ctx, Skips w eng event m t ∧ VmRunner.run w vcpu t = .ok (ctx, m') ∧
    Reported vcpu ctx m' event.event line ∧ ¬ OwnExit w vcpu ctx m' event.event

/-- `Ok(())` means consumed if nothing was printed, and reported otherwise. -/
theorem replayEvent_cases (heng : eng.activeVcpu = .ok vcpu) {fuel : Nat} {event : TraceEvent}
    {m m' : Machine} {line : Option Line} (h : replayEvent w eng fuel event m = .ok (m', line)) :
    (line = none ∧ Consumes w eng vcpu event m m') ∨
      ∃ l, line = some l ∧ Reports w eng vcpu event l m m' := by
  obtain ⟨k, -, t, ht, hleave⟩ := replayEvent_eq_ok.mp h
  obtain ⟨ctx, m1, hrun, hcase⟩ := body_eq_leave heng hleave
  rcases hcase with ⟨hline, hown, hstep⟩ | ⟨rfl, l, hline, hrep⟩
  · exact .inl ⟨hline, t, ctx, m1, ⟨k, ht⟩, hrun, hown, stepOver_ok hstep⟩
  · exact .inr ⟨l, hline, t, ctx, ⟨k, ht⟩, hrun, hrep, hrep.not_ownExit⟩

/-- A replay of `events` from `m` to `m'` in which exactly the second list was consumed. -/
inductive Played (w : Whp) (eng : ReplayEngine) (vcpu : Vcpu) :
    Machine → List TraceEvent → List TraceEvent → Machine → Prop where
  | done (m : Machine) : Played w eng vcpu m [] [] m
  | consumed {event : TraceEvent} {events consumed : List TraceEvent} {m m1 m' : Machine} :
    Consumes w eng vcpu event m m1 → Played w eng vcpu m1 events consumed m' →
      Played w eng vcpu m (event :: events) (event :: consumed) m'
  | reported {event : TraceEvent} {events consumed : List TraceEvent} {line : Line}
      {m m1 m' : Machine} :
    Reports w eng vcpu event line m m1 → Played w eng vcpu m1 events consumed m' →
      Played w eng vcpu m (event :: events) consumed m'

/-- The events about which nothing was printed, in trace order. -/
def silent : List TraceEvent → List (Option Line) → List TraceEvent
  | event :: events, line :: lines =>
    if line = none then event :: silent events lines else silent events lines
  | _, _ => []

/-- **Divergence is printed.**  `replay_event` returns `Ok(())` having consumed the event if it
    printed nothing, and otherwise having reported an exit that is not the event's own, with the
    machine untouched since that exit; and after `Ok` for every event of a trace, the events
    consumed are those about which nothing was printed, in order. -/
theorem replay_reports_divergence (heng : eng.activeVcpu = .ok vcpu) :
    (∀ fuel event m m' line, replayEvent w eng fuel event m = .ok (m', line) →
      (line = none ∧ Consumes w eng vcpu event m m') ∨
        ∃ l, line = some l ∧ Reports w eng vcpu event l m m') ∧
    ∀ fuel events m m' lines, replayEvents w eng fuel events m = .ok (m', lines) →
      lines.length = events.length ∧ Played w eng vcpu m events (silent events lines) m' := by
  refine ⟨fun fuel event m m' line h => replayEvent_cases heng h, fun fuel events => ?_⟩
  -- along the trace: each event is consumed or reported where the ones before it lead
  induction events with
  | nil =>
    intro m m' lines h
    cases h
    exact ⟨rfl, .done m⟩
  | cons event events ih =>
    intro m m' lines h
    obtain ⟨m1, line, rest, hone, hrest, rfl⟩ := replayEvents_cons.mp h
    obtain ⟨hlen, hplayed⟩ := ih m1 m' rest hrest
    refine ⟨by rw [List.length_cons, List.length_cons, hlen], ?_⟩
    rcases replayEvent_cases heng hone with ⟨rfl, hcons⟩ | ⟨l, rfl, hrep⟩
    · rw [silent, if_pos rfl]
      exact .consumed hcons hplayed
    · rw [silent, if_neg (by simp)]
      exact .reported hrep hplayed

/-- RDTSC; HLT against an RDTSC and a context switch: the second event is reported, not consumed. -/
theorem replay_reports_divergence_sample :
    ∃ m', replayEvents SampleCpu.whp ((new 0).registerVcpu 0 ⟨0⟩) 2
        [⟨0, .rdtsc 0x1111 0⟩, ⟨0, .contextSwitch 1⟩] (SampleCpu.machine [0x0F, 0x31, 0xF4]) =
          .ok (m', [none, some (.guestHalted 0x1111)]) ∧
      Played SampleCpu.whp ((new 0).registerVcpu 0 ⟨0⟩) ⟨0⟩ (SampleCpu.machine [0x0F, 0x31, 0xF4])
        [⟨0, .rdtsc 0x1111 0⟩, ⟨0, .contextSwitch 1⟩] [⟨0, .rdtsc 0x1111 0⟩] m' := by
  have hrun : ∃ m', replayEvents SampleCpu.whp ((new 0).registerVcpu 0 ⟨0⟩) 2
      [⟨0, .rdtsc 0x1111 0⟩, ⟨0, .contextSwitch 1⟩] (SampleCpu.machine [0x0F, 0x31, 0xF4]) =
        .ok (m', [none, some (.guestHalted 0x1111)]) := ⟨_, rfl⟩
  obtain ⟨m', h⟩ := hrun
  exact ⟨m', h, ((replay_reports_divergence (activeVcpu_registerVcpu 0 ⟨0⟩)).2 _ _ _ _ _ h).2⟩

/-- **`Ok(())` alone promises nothing.**  HLT is met with `Ok(())` for an RDTSC event that is then
    neither injected nor stepped over. -/
theorem replayEvent_ok_at_halt :
    ¬ ∀ (w : Whp) (eng : ReplayEngine) (vcpu : Vcpu) (fuel : Nat) (event : TraceEvent)
      (m m' : Machine) (line : Option Line), eng.activeVcpu = .ok vcpu →
      replayEvent w eng fuel event m = .ok (m', line) → Consumes w eng vcpu event m m' := by
  intro hclaim
  obtain ⟨t, ctx, m1, ⟨k, ht⟩, hrun, hown, -⟩ := hclaim SampleCpu.whp ((new 0).registerVcpu 0 ⟨0⟩)
    ⟨0⟩ 1 ⟨0, .rdtsc 0x1111 0⟩ (SampleCpu.machine [0xF4]) _ _ (activeVcpu_registerVcpu 0 ⟨0⟩) rfl
  cases k with
  | zero =>
    -- the first run halts, and a halt is no RDTSC exit
    cases ht
    cases hrun
    have hr : (8 : Int) = 4099 := hown
    omega
  | succ k => cases ht -- the loop does not go round at a halt

/-! ## Does the loop come to an end? -/

/-- The next exit is one the loop ignores. -/
def Stuck (w : Whp) (vcpu : Vcpu) (event : TraceEvent) (m : Machine) : Prop :=
  ∃ ctx m', VmRunner.run w vcpu m = .ok (ctx, m') ∧ Ignored ctx event.event

theorem Ignored.intercept {ctx : ExitContext} {ev : EventType} (h : Ignored ctx ev) :
    ctx.exitReason = 4097 ∨ ctx.exitReason = 4099 := h.imp And.left And.left

/-- Once stuck, stuck for good: the invariant that keeps the loop going. -/
theorem body_of_stuck (heng : eng.activeVcpu = .ok vcpu) (hp : VmRunner.PreciseExits w vcpu)
    {event : TraceEvent} {m : Machine} (h : Stuck w vcpu event m) :
    ∃ m', tryPass (body w eng event) m = .again m' ∧ Stuck w vcpu event m' := by
  obtain ⟨ctx, m', hrun, hign⟩ := h
  exact ⟨m', tryPass_eq_again.mpr ((body_eq_again heng).mpr ⟨ctx, hrun, hign⟩),
    ctx, m', hp hrun (Ignored.intercept hign), hign⟩

theorem replayEvent_of_stuck (heng : eng.activeVcpu = .ok vcpu) (hp : VmRunner.PreciseExits w vcpu)
    {event : TraceEvent} {m : Machine} (h : Stuck w vcpu event m) (fuel : Nat) :
    replayEvent w eng fuel event m = .error .outOfFuel := by
  have hnever : ¬ Terminates (tryPass (body w eng event)) m :=
    not_terminates_of_inv (fun hs => body_of_stuck heng hp hs) h
  unfold replayEvent
  cases hl : loopFuel (tryPass (body w eng event)) fuel m with
  | none => rfl
  | some r => exact absurd ⟨fuel, r, hl⟩ hnever

/-- An unstuck pass leaves the loop: it returns, or a call in it fails. -/
theorem body_of_not_stuck (heng : eng.activeVcpu = .ok vcpu) {event : TraceEvent} {m : Machine}
    (h : ¬ Stuck w vcpu event m) :
    (∃ r, body w eng event m = .ok (.leave r)) ∨ ∃ e, body w eng event m = .error e := by
  cases hb : body w eng event m with
  | error e => exact .inr ⟨e, rfl⟩
  | ok p =>
    cases p with
    | leave r => exact .inl ⟨r, rfl⟩
    | again m' =>
      obtain ⟨ctx, hrun, hign⟩ := (body_eq_again heng).mp hb
      exact absurd ⟨ctx, m', hrun, hign⟩ h

/-! ### A call that fails does so in time

  `outOfFuel` is the loop's own verdict: no call inside a pass returns it. -/

theorem call_inTime (w : Whp) (c : WhpCall) : w.call c ≠ .error .outOfFuel := by
  intro h
  obtain ⟨code, hcode⟩ := Whp.call_error h
  cases hcode

theorem getRegisters_inTime (vcpu : Vcpu) (names : List Reg) (m : Machine) :
    vcpu.getRegisters w names m ≠ .error .outOfFuel :=
  bind_ne_error (call_inTime w _) fun _ => ok_ne_error _ _

theorem setRegisters_inTime (vcpu : Vcpu) (names : List Reg) (values : List RegVal) (m : Machine) :
    vcpu.setRegisters w names values m ≠ .error .outOfFuel := by
  unfold Vcpu.setRegisters
  split
  · exact bind_ne_error (call_inTime w _) fun _ => ok_ne_error _ _
  · simp

theorem writeAll_inTime : ∀ (ws : List (U64 × Codec.Vec U8)) (m : Machine),
    writeAll ws m ≠ .error .outOfFuel
  | [], m => ok_ne_error m _
  | _ :: ws, m => writeAll_inTime ws m

theorem injectEvent_inTime (heng : eng.activeVcpu = .ok vcpu) (event : TraceEvent) (m : Machine) :
    injectEvent w eng event m ≠ .error .outOfFuel := by
  rw [injectEvent, bind_of_ok heng]
  cases event.event with
  | syscall rax ws => exact bind_ne_error (setRegisters_inTime vcpu _ _ m) (writeAll_inTime ws.toList)
  | contextSwitch tid => exact ok_ne_error _ _
  | _ => exact setRegisters_inTime vcpu _ _ m

theorem advanceRip_inTime (heng : eng.activeVcpu = .ok vcpu) (len : U8) (m : Machine) :
    advanceRip w eng len m ≠ .error .outOfFuel := by
  rw [advanceRip_eq heng]
  exact bind_ne_error (getRegisters_inTime vcpu _ _) fun _ =>
    bind_ne_error (setRegisters_inTime vcpu _ _ _) fun _ => ok_ne_error _ _

theorem onExit_inTime (heng : eng.activeVcpu = .ok vcpu) (event : TraceEvent) (ctx : ExitContext)
    (m : Machine) : onExit w eng event vcpu ctx m ≠ .error .outOfFuel := by
  have hconsume : ∀ len, (injectEvent w eng event m >>= fun m => advanceRip w eng len m >>= fun m =>
      Except.ok (Pass.leave (σ := Machine) (m, (none : Option Line)))) ≠ .error .outOfFuel :=
    fun len => bind_ne_error (injectEvent_inTime heng event m) fun m =>
      bind_ne_error (advanceRip_inTime heng len m) fun _ => ok_ne_error _ _
  unfold onExit
  dsimp only
  split
  · exact bind_ne_error (getRegisters_inTime vcpu _ m) fun _ => ok_ne_error _ _
  split
  · split
    · exact hconsume _
    · exact ok_ne_error _ _
  split
  · split
    · exact hconsume _
    · exact ok_ne_error _ _
  split
  · split
    · refine bind_ne_error (getRegisters_inTime vcpu _ m) fun values => ?_
      split
      · exact hconsume _
      · exact ok_ne_error _ _
    · exact ok_ne_error _ _
  · exact ok_ne_error _ _

theorem body_inTime (heng : eng.activeVcpu = .ok vcpu) (event : TraceEvent) (m : Machine) :
    body w eng event m ≠ .error .outOfFuel := by
  rw [body, bind_of_ok heng]
  refine bind_ne_error ?_ fun x => onExit_inTime heng event x.1 x.2
  unfold VmRunner.run
  split <;> simp

/-- Off the stuck states one pass decides. -/
theorem replayEvent_of_not_stuck (heng : eng.activeVcpu = .ok vcpu) {event : TraceEvent}
    {m : Machine} (h : ¬ Stuck w vcpu event m) (passes : Nat) :
    replayEvent w eng (passes + 1) event m ≠ .error .outOfFuel ∧
      ∀ r, replayEvent w eng (passes + 1) event m = .ok r → body w eng event m = .ok (.leave r) := by
  rcases body_of_not_stuck heng h with ⟨r, hb⟩ | ⟨e, hb⟩
  · rw [replayEvent_of_leave hb passes]
    refine ⟨fun he => ?_, fun r' hr => ?_⟩
    · cases he
    · cases hr
      exact hb
  · have hone : replayEvent w eng (passes + 1) event m = .error e := by
      have hpass : tryPass (body w eng event) m = .leave (.error e) := by rw [tryPass, hb]
      rw [replayEvent, loopFuel_leave hpass]
      rfl
    rw [hone]
    have hin := body_inTime (w := w) heng event m
    rw [hb] at hin
    refine ⟨fun he => hin (by rw [Except.error.inj he]), fun r hr => ?_⟩
    cases hr

/-- No event of the trace, each from where the ones before it lead, meets an exit it ignores. -/
def NeverStuck (w : Whp) (eng : ReplayEngine) (vcpu : Vcpu) : List TraceEvent → Machine → Prop
  | [], _ => True
  | event :: events, m => ¬ Stuck w vcpu event m ∧
    ∀ r, body w eng event m = .ok (.leave r) → NeverStuck w eng vcpu events r.1

theorem replayEvents_inTime (heng : eng.activeVcpu = .ok vcpu) : ∀ (events : List TraceEvent)
    (m : Machine), NeverStuck w eng vcpu events m →
      replayEvents w eng 1 events m ≠ .error .outOfFuel
  | [], m, _ => ok_ne_error (m, []) _
  | event :: events, m, h => by
    obtain ⟨hstuck, hrest⟩ := h
    obtain ⟨htime, hleave⟩ := replayEvent_of_not_stuck heng hstuck 0
    cases hone : replayEvent w eng 1 event m with
    | error e =>
      rw [replayEvents, bind_of_error hone]
      rw [hone] at htime
      exact fun he => htime (by rw [Except.error.inj he])
    | ok r =>
      rw [replayEvents, bind_of_ok hone]
      exact bind_ne_error (replayEvents_inTime heng events r.1 (hrest r (hleave r hone)))
        fun _ => ok_ne_error _ _

theorem neverStuck_of_inTime (heng : eng.activeVcpu = .ok vcpu) (hp : VmRunner.PreciseExits w vcpu)
    {fuel : Nat} : ∀ (events : List TraceEvent) (m : Machine),
      replayEvents w eng fuel events m ≠ .error .outOfFuel → NeverStuck w eng vcpu events m
  | [], _, _ => trivial
  | event :: events, m, h => by
    refine ⟨fun hstuck => ?_, fun r hr => ?_⟩
    · rw [replayEvents, bind_of_error (replayEvent_of_stuck heng hp hstuck fuel)] at h
      exact h rfl
    · cases fuel with
      | zero => exact absurd rfl h -- without a single pass the loop is out of fuel
      | succ n =>
        rw [replayEvents, bind_of_ok (replayEvent_of_leave hr n)] at h
        have hrest : replayEvents w eng (n + 1) events r.1 ≠ .error .outOfFuel := by
          intro he
          refine h ?_
          show (replayEvents w eng (n + 1) events r.1 >>= fun x => Except.ok (x.1, r.2 :: x.2)) = _
          rw [bind_of_error he]
        exact neverStuck_of_inTime heng hp events r.1 hrest

/-- **When `replay_event` returns.**  With precise intercepts, one event's loop ends exactly when the
    next exit is not a CPUID or RDTSC exit that its event ignores; and the event loop over a trace
    ends exactly when no event of it meets such an exit. -/
theorem replay_terminates_iff (heng : eng.activeVcpu = .ok vcpu)
    (hp : VmRunner.PreciseExits w vcpu) :
    (∀ event m, (∃ fuel, replayEvent w eng fuel event m ≠ .error .outOfFuel) ↔
      ¬ Stuck w vcpu event m) ∧
    ∀ events m, (∃ fuel, replayEvents w eng fuel events m ≠ .error .outOfFuel) ↔
      NeverStuck w eng vcpu events m := by
  refine ⟨fun event m => ⟨?_, fun h => ⟨1, (replayEvent_of_not_stuck heng h 0).1⟩⟩,
    fun events m => ⟨?_, fun h => ⟨1, replayEvents_inTime heng events m h⟩⟩⟩
  · rintro ⟨fuel, h⟩ hstuck
    exact h (replayEvent_of_stuck heng hp hstuck fuel)
  · rintro ⟨fuel, h⟩
    exact neverStuck_of_inTime heng hp events m h

/-- RDTSC; HLT against the trace RDTSC, context switch: no event gets stuck. -/
theorem replay_terminates_iff_sample :
    ¬ Stuck SampleCpu.whp ⟨0⟩ ⟨0, .rdtsc 0x1111 0⟩ (SampleCpu.machine [0x0F, 0x31, 0xF4]) ∧
      NeverStuck SampleCpu.whp ((new 0).registerVcpu 0 ⟨0⟩) ⟨0⟩
        [⟨0, .rdtsc 0x1111 0⟩, ⟨0, .contextSwitch 1⟩] (SampleCpu.machine [0x0F, 0x31, 0xF4]) := by
  have hiff := replay_terminates_iff (activeVcpu_registerVcpu 0 ⟨0⟩) (SampleCpu.precise ⟨0⟩)
  exact ⟨(hiff.1 _ _).mp ⟨1, nofun⟩, (hiff.2 _ _).mp ⟨1, nofun⟩⟩

/-- **An RDTSC event at a CPUID exit never returns**, however many passes the loop is given. -/
theorem replayEvent_loops_at_cpuid :
    VmRunner.PreciseExits SampleCpu.whp ⟨0⟩ ∧
      ∀ fuel, replayEvent SampleCpu.whp ((new 0).registerVcpu 0 ⟨0⟩) fuel ⟨0, .rdtsc 0 0⟩
        (SampleCpu.machine [0x0F, 0xA2, 0xF4]) = .error .outOfFuel :=
  ⟨SampleCpu.precise ⟨0⟩, replayEvent_of_stuck (activeVcpu_registerVcpu 0 ⟨0⟩)
    (SampleCpu.precise ⟨0⟩) ⟨_, _, rfl, .inl ⟨rfl, rfl⟩⟩⟩

end Vestigium.ReplayEngine

/-
  WHERE A REPLAY CAN GO — the states some trace takes the replayer to.

  A result about EVERY trace replayed from a machine is a result about the machines such a trace can
  reach, and these have a description that mentions no trace.  On the way to the exit that decides
  about an event, the guest is resumed as it is from every CPUID or RDTSC exit that the event ignores
  (`RunsOn`); at that exit it is stepped over, with whatever payload, or left as it is (`Moves`).
  `replays_of_moves` and `moves_of_replays` are the two directions.
-/
import Mathlib.Logic.Relation
import Vestigium.Engine.Divergence

namespace Vestigium.ReplayEngine

open Vestigium.Loop

variable {w : Whp} {eng : ReplayEngine} {vcpu : Vcpu}

/-- `replay_event`, called in state `m`, accepts `event` at an exit that leaves the machine `m1`. -/
def AcceptsAt (w : Whp) (eng : ReplayEngine) (vcpu : Vcpu) (event : TraceEvent) (m m1 : Machine) :
    Prop :=
  ∃ t ctx m', Skips w eng event m t ∧ VmRunner.run w vcpu t = .ok (ctx, m1) ∧
    OwnExit w vcpu ctx m1 event.event ∧ stepOver w vcpu event.event ctx m1 = .ok m'

/-! ## Running on -/

/-- The vCPU runs from `m` to an exit that an event `ev` ignores. -/
def Ignores (w : Whp) (vcpu : Vcpu) (ev : EventType) (m m' : Machine) : Prop :=
  ∃ ctx, VmRunner.run w vcpu m = .ok (ctx, m') ∧ Ignored ctx ev

/-- The guest runs on from `m`, past exits that `ev` ignores. -/
abbrev RunsOn (w : Whp) (vcpu : Vcpu) (ev : EventType) : Machine → Machine → Prop :=
  Relation.ReflTransGen (Ignores w vcpu ev)

/-- The vCPU runs from `m` to a CPUID or RDTSC exit. -/
def Intercepted (w : Whp) (vcpu : Vcpu) (m m' : Machine) : Prop :=
  ∃ ctx, VmRunner.run w vcpu m = .ok (ctx, m') ∧ (ctx.exitReason = 4097 ∨ ctx.exitReason = 4099)

theorem skips_iff (heng : eng.activeVcpu = .ok vcpu) {event : TraceEvent} {m t : Machine} :
    Skips w eng event m t ↔ RunsOn w vcpu event.event m t := by
  have hpass : (fun s s' => tryPass (body w eng event) s = .again s') =
      Ignores w vcpu event.event := by
    funext s s'
    exact propext (tryPass_eq_again.trans (body_eq_again heng))
  rw [Skips, exists_afterPasses_iff, hpass]

/-- Whatever the event, what it ignores is intercepted, … -/
theorem intercepted_of_runsOn {ev : EventType} {m t : Machine} (h : RunsOn w vcpu ev m t) :
    Relation.ReflTransGen (Intercepted w vcpu) m t :=
  Relation.ReflTransGen.mono
    (fun _ _ ⟨ctx, hrun, hign⟩ => ⟨ctx, hrun, Ignored.intercept hign⟩) m t h

/-- … and an event that is neither CPUID nor RDTSC ignores all that is. -/
theorem runsOn_of_intercepted {ev : EventType} (hcpuid : ev.isCpuid = false)
    (hrdtsc : ev.isRdtsc = false) {m t : Machine}
    (h : Relation.ReflTransGen (Intercepted w vcpu) m t) : RunsOn w vcpu ev m t :=
  Relation.ReflTransGen.mono
    (fun _ _ ⟨ctx, hrun, hr⟩ => ⟨ctx, hrun, hr.imp (⟨·, hcpuid⟩) (⟨·, hrdtsc⟩)⟩) m t h

/-! ## Moving from event to event -/

/-- The guest runs on from `m` to an exit that is neither CPUID nor RDTSC, and at a halt or a memory
    violation RAX can be read. -/
def Resumes (w : Whp) (vcpu : Vcpu) (m m' : Machine) : Prop :=
  ∃ t ctx, Relation.ReflTransGen (Intercepted w vcpu) m t ∧ VmRunner.run w vcpu t = .ok (ctx, m') ∧
    ctx.exitReason ≠ 4097 ∧ ctx.exitReason ≠ 4099 ∧
    (ctx.exitReason = 1 ∨ ctx.exitReason = 8 →
      w.fault (.getRegisters vcpu.index [.rax] (m'.vps vcpu.index).regs) = none)

/-- The guest goes from `m` to `m'` by one event: resumed, or run on to an exit of some event's own
    and stepped over as that event. -/
def Moves (w : Whp) (vcpu : Vcpu) (m m' : Machine) : Prop :=
  Resumes w vcpu m m' ∨ ∃ ev t ctx m1, RunsOn w vcpu ev m t ∧ VmRunner.run w vcpu t = .ok (ctx, m1) ∧
    OwnExit w vcpu ctx m1 ev ∧ stepOver w vcpu ev ctx m1 = .ok m'

theorem replayEvent_of_skips (event : TraceEvent) {m t : Machine} {r : Machine × Option Line}
    (hskip : Skips w eng event m t) (h : body w eng event t = .ok (.leave r)) :
    ∃ fuel, replayEvent w eng fuel event m = .ok r := by
  obtain ⟨k, hk⟩ := hskip
  exact ⟨k + 1, replayEvent_eq_ok.mpr ⟨k, Nat.lt_succ_self k, t, hk, h⟩⟩

/-- A system-call event is reported wherever the guest can be resumed: no exit is its own. -/
theorem replayEvent_of_resumes (heng : eng.activeVcpu = .ok vcpu) {m m' : Machine}
    (h : Resumes w vcpu m m') (count rax : U64) : ∃ fuel line,
    replayEvent w eng fuel ⟨count, .syscall rax Codec.Vec.empty⟩ m = .ok (m', line) := by
  obtain ⟨t, ctx, hpast, hrun, hcpuid, hrdtsc, hrax⟩ := h
  have hexit : ∃ line, onExit w eng ⟨count, .syscall rax Codec.Vec.empty⟩ vcpu ctx m' =
      .ok (.leave (m', line)) := by
    unfold onExit
    dsimp only
    split
    · rename_i hr
      have hget := Vcpu.getRegisters_eq_ok.mpr ⟨hrax hr, rfl⟩
      rw [bind_of_ok hget]
      exact ⟨_, rfl⟩
    · split <;> exact ⟨_, rfl⟩
  obtain ⟨line, hline⟩ := hexit
  obtain ⟨fuel, hone⟩ := replayEvent_of_skips _
    ((skips_iff heng).mpr (runsOn_of_intercepted rfl rfl hpast))
    ((body_eq_ok heng).mpr ⟨ctx, m', hrun, hline⟩)
  exact ⟨fuel, line, hone⟩

/-- A reported exit is one to resume from. -/
theorem resumes_of_reported {m t m' : Machine} {ctx : ExitContext} {event : TraceEvent} {line : Line}
    (hpast : RunsOn w vcpu event.event m t) (hrun : VmRunner.run w vcpu t = .ok (ctx, m'))
    (hrep : Reported vcpu ctx m' event.event line)
    (h : onExit w eng event vcpu ctx m' = .ok (.leave (m', some line))) : Resumes w vcpu m m' := by
  refine ⟨t, ctx, intercepted_of_runsOn hpast, hrun, ?_, ?_, fun hr => ?_⟩
  · cases line <;> simp only [Reported] at hrep <;> omega
  · cases line <;> simp only [Reported] at hrep <;> omega
  · simp only [onExit, hr, if_true] at h
    obtain ⟨values, hv, -⟩ := bind_eq_ok.mp h
    exact (Vcpu.getRegisters_eq_ok.mp hv).1

/-- One move is one event replayed. -/
theorem replayEvent_of_moves (heng : eng.activeVcpu = .ok vcpu) {m m' : Machine}
    (h : Moves w vcpu m m') : ∃ fuel event line, replayEvent w eng fuel event m = .ok (m', line) := by
  rcases h with hres | ⟨ev, t, ctx, m1, hpast, hrun, hown, hover⟩
  · obtain ⟨fuel, line, hone⟩ := replayEvent_of_resumes heng hres 0 0
    exact ⟨fuel, _, line, hone⟩
  · obtain ⟨fuel, hone⟩ := replayEvent_of_skips ⟨0, ev⟩ ((skips_iff heng).mpr hpast)
      (body_of_own heng hrun hown hover)
    exact ⟨fuel, _, none, hone⟩

/-- Wherever the guest can move to, some trace takes the replayer. -/
theorem replays_of_moves (heng : eng.activeVcpu = .ok vcpu) {m t : Machine}
    (h : Relation.ReflTransGen (Moves w vcpu) m t) :
    ∃ fuel events lines, replayEvents w eng fuel events m = .ok (t, lines) := by
  -- from the front, as a trace is replayed: one event for the first move, then the rest
  induction h using Relation.ReflTransGen.head_induction_on with
  | refl => exact ⟨0, [], [], rfl⟩
  | head hstep _ ih =>
    obtain ⟨fuel, events, lines, hrest⟩ := ih
    obtain ⟨fuel', event, line, hone⟩ := replayEvent_of_moves heng hstep
    obtain ⟨k, hk, u, hu, hleave⟩ := replayEvent_eq_ok.mp hone
    exact ⟨max fuel fuel', event :: events, line :: lines, replayEvents_cons.mpr ⟨_, line, lines,
      replayEvent_eq_ok.mpr ⟨k, Nat.lt_of_lt_of_le hk (Nat.le_max_right _ _), u, hu, hleave⟩,
      replayEvents_mono (Nat.le_max_left _ _) hrest, rfl⟩⟩

/-- A replay goes nowhere else. -/
theorem moves_of_replays (heng : eng.activeVcpu = .ok vcpu) {fuel : Nat} :
    ∀ (events : List TraceEvent) {m t : Machine} {lines : List (Option Line)},
    replayEvents w eng fuel events m = .ok (t, lines) → Relation.ReflTransGen (Moves w vcpu) m t
  | [], m, t, lines, h => by
    cases h
    exact .refl
  | event :: events, m, t, lines, h => by
    obtain ⟨m', line, rest, hone, hrest, -⟩ := replayEvents_cons.mp h
    refine .head ?_ (moves_of_replays heng events hrest)
    obtain ⟨k, -, u, hu, hleave⟩ := replayEvent_eq_ok.mp hone
    obtain ⟨ctx, m1, hrun, hexit⟩ := (body_eq_ok heng).mp hleave
    have hpast : RunsOn w vcpu event.event m u := (skips_iff heng).mp ⟨k, hu⟩
    rcases onExit_cases heng hexit with ⟨hown, m2, hstep, hl⟩ | ⟨-, hl⟩ | ⟨l, hrep, hl⟩
    · cases hl
      exact .inr ⟨event.event, u, ctx, m1, hpast, hrun, hown, hstep⟩
    · nomatch hl
    · cases hl
      exact .inl (resumes_of_reported hpast hrun hrep hexit)

end Vestigium.ReplayEngine

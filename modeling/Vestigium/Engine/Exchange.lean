/-
  THE GUEST AND WHOEVER ANSWERS IT — what recording and replaying are about.

  Between two intercepted exits a guest is deterministic; at such an exit it gets an answer and goes
  on.  `Exchange` is that one step: run to the exit, take the event `ev` for an answer, step over the
  instruction.  A run of a guest is a path of exchanges, and its labels are what a trace contains.

  Both engines are ways to produce paths.  The recorder chooses the answers itself and writes them
  down (`RecordEngine.after_iff`); the replayer reads them from a trace, and has nothing to print as
  long as the trace is a path (`ReplayEngine.replayEvents_silent_iff`).  So the traces that replay
  without a word are exactly the ones some recorder would have written (`silent_replay_iff_recorded`).
-/
import Vestigium.Engine.Divergence
import Vestigium.Engine.Record
import Vestigium.Lib.Labelled

namespace Vestigium

open Vestigium.Loop Vestigium.Labelled

/-! ## One exchange -/

/-- The guest runs from `m` to an intercepted exit, is answered with `ev`, and goes on from `m'`. -/
def Exchange (w : Whp) (vcpu : Vcpu) (m : Machine) (ev : EventType) (m' : Machine) : Prop :=
  ∃ ctx m1, VmRunner.run w vcpu m = .ok (ctx, m1) ∧ OwnExit w vcpu ctx m1 ev ∧
    stepOver w vcpu ev ctx m1 = .ok m'

/-- The guest runs from `m` to an exit that ends a recording, in state `m'`.  At a halt RAX is read. -/
def Ends (w : Whp) (vcpu : Vcpu) (m : Machine) (ctx : ExitContext) (m' : Machine) : Prop :=
  VmRunner.run w vcpu m = .ok (ctx, m') ∧ RecordEngine.Terminal ctx ∧
    (ctx.exitReason = 8 → w.fault (.getRegisters vcpu.index [.rax] (m'.vps vcpu.index).regs) = none)

variable {w : Whp} {sim : SimAnswers} {vcpu : Vcpu} {eng : ReplayEngine} {m m' : Machine}

theorem Exchange.deterministic (w : Whp) (vcpu : Vcpu) : Deterministic (Exchange w vcpu) := by
  rintro m ev t t' ⟨ctx, m1, hrun, -, hstep⟩ ⟨ctx', m1', hrun', -, hstep'⟩
  obtain ⟨rfl, rfl⟩ := Prod.mk.inj (Except.ok.inj (hrun.symm.trans hrun'))
  exact Except.ok.inj (hstep.symm.trans hstep')

/-- No guest is ever answered with a system call. -/
theorem Exchange.ne_syscall {ev : EventType} (h : Exchange w vcpu m ev m') (rax : U64)
    (ws : Codec.Vec (U64 × Codec.Vec U8)) : ev ≠ .syscall rax ws := by
  rintro rfl
  obtain ⟨ctx, m1, -, hown, -⟩ := h
  exact hown

/-! ## The recorder writes paths down -/

/-- Payloads as the events of a trace, numbered from `0` on. -/
def numbered (evs : List EventType) : List TraceEvent :=
  evs.mapIdx fun k ev => ⟨BitVec.ofNat 64 k, ev⟩

@[simp] theorem length_numbered (evs : List EventType) : (numbered evs).length = evs.length := by
  simp [numbered]

@[simp] theorem map_event_numbered (evs : List EventType) : (numbered evs).map (·.event) = evs := by
  refine List.ext_getElem? fun k => ?_
  cases h : evs[k]? <;> simp [numbered, h]

theorem numbered_concat (evs : List EventType) (ev : EventType) :
    numbered (evs ++ [ev]) = numbered evs ++ [⟨BitVec.ofNat 64 evs.length, ev⟩] := by
  simp [numbered, List.mapIdx_append]

namespace RecordEngine

theorem recordable_concat {evs : List EventType} {ev : EventType} :
    Recordable sim (evs ++ [ev]) ↔ Recordable sim evs ∧ Loggable sim evs.length ev :=
  admits_concat

/-- The state of the recorder on machine `m` once it has logged `evs`. -/
def having (evs : List EventType) (m : Machine) : RecordState :=
  ⟨m, ⟨numbered evs⟩, BitVec.ofNat 64 evs.length⟩

/-- Its payloads are what it has logged. -/
theorem payloads_having (evs : List EventType) (m : Machine) :
    (having evs m).logger.events.map (·.event) = evs := map_event_numbered evs

theorem logged_having (evs : List EventType) (ev : EventType) (m t : Machine) :
    logged (having evs m) ev t = having (evs ++ [ev]) t := by
  rw [logged, having, having, TraceLogger.logEvent, numbered_concat, List.length_append,
    BitVec.ofNat_add]
  rfl

/-- A pass that goes round is an exchange whose label is one this recorder gives. -/
theorem body_having {evs : List EventType} {s' : RecordState} :
    body w sim vcpu (having evs m) = .ok (.again s') ↔
      ∃ ev, Exchange w vcpu m ev s'.machine ∧ Loggable sim evs.length ev ∧
        s' = having (evs ++ [ev]) s'.machine := by
  rw [body_eq_again]
  have hlen : (having evs m).logger.events.length = evs.length := length_numbered evs
  constructor
  · rintro ⟨ctx, m1, ev, hrun, hans, hstep, hs'⟩
    rw [hlen] at hans
    exact ⟨ev, ⟨ctx, m1, hrun, hans.1, hstep⟩, loggable_of_answers hans,
      hs'.trans (logged_having evs ev m s'.machine)⟩
  · rintro ⟨ev, ⟨ctx, m1, hrun, hown, hstep⟩, hlog, hs'⟩
    refine ⟨ctx, m1, ev, hrun, ?_, hstep, hs'.trans (logged_having evs ev m s'.machine).symm⟩
    rw [hlen]
    exact answers_of_loggable hown hlog

/-- **What the recorder can have logged**: the paths of exchanges, each answer one it gives. -/
theorem after_iff : ∀ {k : Nat} {s : RecordState}, after w sim vcpu k m = some s ↔
    ∃ evs, evs.length = k ∧ Recordable sim evs ∧ Path (Exchange w vcpu) m evs s.machine ∧
      s = having evs s.machine := by
  intro k
  induction k with
  | zero =>
    intro s
    constructor
    · intro h
      cases h
      exact ⟨[], rfl, admits_nil _, .nil m, rfl⟩
    · rintro ⟨evs, hlen, -, hpath, hs⟩
      obtain rfl := List.eq_nil_of_length_eq_zero hlen
      rw [Path.nil_iff] at hpath
      rw [hs, ← hpath]
      rfl
  | succ k ih =>
    intro s'
    rw [after_succ]
    constructor
    · rintro ⟨s, hs, hbody⟩
      obtain ⟨evs, hlen, hrec, hpath, hhaving⟩ := ih.mp hs
      rw [hhaving] at hbody
      obtain ⟨ev, hex, hlog, hs'⟩ := body_having.mp hbody
      exact ⟨evs ++ [ev], by simp [hlen], recordable_concat.mpr ⟨hrec, hlog⟩,
        Path.concat_iff.mpr ⟨s.machine, hpath, hex⟩, hs'⟩
    · rintro ⟨evs', hlen, hrec, hpath, hs'⟩
      -- the last of the labels is the pass from `k` to `k + 1`
      obtain ⟨evs, ev, rfl⟩ : ∃ evs ev, evs' = evs ++ [ev] :=
        ⟨evs'.dropLast, evs'.getLast (List.ne_nil_of_length_pos (by omega)),
          (List.dropLast_append_getLast _).symm⟩
      obtain ⟨t, hpath, hex⟩ := Path.concat_iff.mp hpath
      obtain ⟨hrec, hlog⟩ := recordable_concat.mp hrec
      rw [List.length_append, List.length_singleton, Nat.add_right_cancel_iff] at hlen
      exact ⟨having evs t, ih.mpr ⟨evs, hlen, hrec, hpath, rfl⟩,
        body_having.mpr ⟨ev, hex, hlog, hs'⟩⟩

/-- The recorder leaves its loop where the guest ends. -/
theorem body_leaves {s : RecordState} {ctx : ExitContext} {t : Machine} :
    (∃ stop, body w sim vcpu s = .ok (.leave stop) ∧ stop.exit = ctx ∧ stop.state.machine = t) ↔
      Ends w vcpu s.machine ctx t := by
  constructor
  · rintro ⟨stop, hbody, rfl, rfl⟩
    obtain ⟨hrun, hterm, -⟩ := body_eq_leave hbody
    refine ⟨hrun, hterm, fun hhalt => ?_⟩
    -- at a halt the loop is left only once RAX has been read
    obtain ⟨ctx, m1, hrun', hexit⟩ := body_eq_ok.mp hbody
    obtain ⟨rfl, rfl⟩ := Prod.mk.inj (Except.ok.inj (hrun.symm.trans hrun'))
    simp only [onExit, hhalt] at hexit
    obtain ⟨values, hread, -⟩ := bind_eq_ok.mp hexit
    exact (Vcpu.getRegisters_eq_ok.mp hread).1
  · rintro ⟨hrun, hterm, hread⟩
    have hleave : ∃ p, onExit w sim vcpu s ctx t = .ok p := by
      obtain ⟨h1, h2, h3⟩ := hterm
      unfold onExit
      simp only [h1, h2, h3, if_false]
      split
      · exact ⟨_, rfl⟩
      · split
        · rename_i hhalt
          rw [bind_of_ok (Vcpu.getRegisters_eq_ok.mpr ⟨hread hhalt, rfl⟩)]
          exact ⟨_, rfl⟩
        · exact ⟨_, rfl⟩
    obtain ⟨p, hp⟩ := hleave
    obtain ⟨line, rfl⟩ := onExit_of_terminal hterm hp
    exact ⟨_, body_eq_ok.mpr ⟨ctx, t, hrun, hp⟩, rfl, rfl⟩

/-- **What a completed recording is**: a path of exchanges with answers this recorder gives, up to a
    state in which the guest ends. -/
theorem run_iff {evs : List EventType} {ctx : ExitContext} {t : Machine} :
    (∃ fuel stop, run w sim vcpu fuel m = .ok stop ∧ stop.state.logger.events = numbered evs ∧
      stop.exit = ctx ∧ stop.state.machine = t) ↔
    Recordable sim evs ∧ ∃ u, Path (Exchange w vcpu) m evs u ∧ Ends w vcpu u ctx t := by
  constructor
  · rintro ⟨fuel, stop, hrun, hevents, hexit, hmachine⟩
    obtain ⟨k, -, s, hs, hbody⟩ := run_eq_ok.mp hrun
    obtain ⟨evs', -, hrec, hpath, hhaving⟩ := after_iff.mp hs
    have hlog : stop.state.logger.events = numbered evs' := by
      rw [(body_eq_leave hbody).2.2, hhaving]
      rfl
    have hevs : evs = evs' := by
      rw [← map_event_numbered evs, ← hevents, hlog, map_event_numbered]
    rw [hevs]
    exact ⟨hrec, s.machine, hpath, body_leaves.mp ⟨stop, hbody, hexit, hmachine⟩⟩
  · rintro ⟨hrec, u, hpath, hends⟩
    have hafter : after w sim vcpu evs.length m = some (having evs u) :=
      after_iff.mpr ⟨evs, rfl, hrec, hpath, rfl⟩
    obtain ⟨stop, hbody, hexit, hmachine⟩ := body_leaves.mpr (show Ends w vcpu (having evs u).machine
      ctx t from hends)
    refine ⟨evs.length + 1, stop, run_eq_ok.mpr ⟨_, Nat.lt_succ_self _, _, hafter, hbody⟩, ?_, hexit,
      hmachine⟩
    rw [(body_eq_leave hbody).2.2]
    rfl

/-- The recorder that answers with what is in `evs`. -/
def answersIn (evs : List EventType) : SimAnswers where
  cpuid k :=
    match evs[k]? with
    | some (.cpuid eax ebx ecx edx) => (eax, ebx, ecx, edx)
    | _ => (0, 0, 0, 0)
  rdtsc k :=
    match evs[k]? with
    | some (.rdtsc rax rdx) => (rax, rdx)
    | _ => (0, 0)

/-- Some recorder gives the answers on any path. -/
theorem recordable_answersIn {evs : List EventType} {t : Machine}
    (h : Path (Exchange w vcpu) m evs t) : Recordable (answersIn evs) evs := by
  have hlabels := h.labels (Q := fun ev => ∀ rax ws, ev ≠ .syscall rax ws)
    fun _ _ _ hex => hex.ne_syscall
  intro k ev hev
  cases ev with
  | syscall rax ws => exact absurd rfl (hlabels _ (List.mem_of_getElem? hev) rax ws)
  | cpuid eax ebx ecx edx =>
    show (answersIn evs).cpuid k = (eax, ebx, ecx, edx)
    simp only [answersIn, hev]
  | rdtsc rax rdx =>
    show (answersIn evs).rdtsc k = (rax, rdx)
    simp only [answersIn, hev]
  | contextSwitch tid => trivial

end RecordEngine

/-! ## The replayer follows paths -/

namespace ReplayEngine

/-- An exchange consumes the event that is its answer, in one pass. -/
theorem replayEvent_of_exchange (heng : eng.activeVcpu = .ok vcpu) {event : TraceEvent}
    (h : Exchange w vcpu m event.event m') (passes : Nat) :
    replayEvent w eng (passes + 1) event m = .ok (m', none) := by
  obtain ⟨ctx, m1, hrun, hown, hstep⟩ := h
  exact replayEvent_of_leave (body_of_own heng hrun hown hstep) passes

/-- The other way round if intercepts are precise: a loop that goes round once goes round for good. -/
theorem exchange_of_replayEvent (heng : eng.activeVcpu = .ok vcpu)
    (hp : VmRunner.PreciseExits w vcpu) {event : TraceEvent} {fuel : Nat}
    (h : replayEvent w eng fuel event m = .ok (m', none)) : Exchange w vcpu m event.event m' := by
  obtain ⟨k, -, t, ht, hleave⟩ := replayEvent_eq_ok.mp h
  have hk : k = 0 := by
    by_contra hk
    obtain ⟨j, rfl⟩ := Nat.exists_eq_succ_of_ne_zero hk
    obtain ⟨u, hu⟩ := afterPasses_of_le (Nat.succ_le_succ (Nat.zero_le j)) ht
    obtain ⟨v, hv, hbody⟩ := afterPasses_succ.mp hu
    cases hv
    have hstuck : Stuck w vcpu event m := by
      obtain ⟨ctx, hrun, hign⟩ := (body_eq_again heng).mp (tryPass_eq_again.mp hbody)
      exact ⟨ctx, u, hrun, hign⟩
    rw [replayEvent_of_stuck heng hp hstuck] at h
    cases h
  subst hk
  cases ht
  obtain ⟨ctx, m1, hrun, ⟨-, hown, hstep⟩ | ⟨-, l, hl, -⟩⟩ := body_eq_leave heng hleave
  · exact ⟨ctx, m1, hrun, hown, hstep⟩
  · cases hl

/-- The events of a path are replayed without a word, whatever the intercepts. -/
theorem replayEvents_of_path (heng : eng.activeVcpu = .ok vcpu) {events : List TraceEvent}
    (h : Path (Exchange w vcpu) m (events.map (·.event)) m') (passes : Nat) :
    replayEvents w eng (passes + 1) events m = .ok (m', List.replicate events.length none) := by
  induction events generalizing m with
  | nil =>
    obtain rfl := Path.nil_iff.mp h
    rfl
  | cons event events ih =>
    obtain ⟨m1, hex, hrest⟩ := Path.cons_iff.mp h
    exact replayEvents_cons.mpr ⟨m1, none, _, replayEvent_of_exchange heng hex passes, ih hrest, rfl⟩

/-- **What replays silently**: the paths of exchanges. -/
theorem replayEvents_silent_iff (heng : eng.activeVcpu = .ok vcpu)
    (hp : VmRunner.PreciseExits w vcpu) (passes : Nat) {events : List TraceEvent} :
    replayEvents w eng (passes + 1) events m = .ok (m', List.replicate events.length none) ↔
      Path (Exchange w vcpu) m (events.map (·.event)) m' := by
  refine ⟨fun h => ?_, fun h => replayEvents_of_path heng h passes⟩
  induction events generalizing m with
  | nil =>
    cases h
    exact .nil _
  | cons event events ih =>
    obtain ⟨m1, line, rest, hone, hrest, hlines⟩ := replayEvents_cons.mp h
    obtain ⟨rfl, rfl⟩ := List.cons.inj hlines
    exact .cons (exchange_of_replayEvent heng hp hone) (ih hrest)

end ReplayEngine

/-! ## Silent replays are recordings -/

/-- **A trace replays without a word iff some recorder would have written it.**  With precise
    intercepts, `replay_event` goes through a list of events silently, from `m` to `m'`, iff a
    recorder on `m`, answering CPUID and RDTSC with values of its choice, logs events with these
    payloads and is then on `m'`.  And the guest then takes an exit that ends a recording iff the
    list is all that this recorder logs. -/
theorem silent_replay_iff_recorded (heng : eng.activeVcpu = .ok vcpu)
    (hp : VmRunner.PreciseExits w vcpu) (events : List TraceEvent) (m : Machine) (passes : Nat) :
    (∀ m', ReplayEngine.replayEvents w eng (passes + 1) events m =
        .ok (m', List.replicate events.length none) ↔
      ∃ sim s, RecordEngine.after w sim vcpu events.length m = some s ∧ s.machine = m' ∧
        s.logger.events.map (·.event) = events.map (·.event)) ∧
    ∀ ctx t, (∃ m', ReplayEngine.replayEvents w eng (passes + 1) events m =
        .ok (m', List.replicate events.length none) ∧ Ends w vcpu m' ctx t) ↔
      ∃ sim fuel stop, RecordEngine.run w sim vcpu fuel m = .ok stop ∧ stop.exit = ctx ∧
        stop.state.machine = t ∧
        stop.state.logger.events.map (·.event) = events.map (·.event) := by
  constructor
  · intro m'
    rw [ReplayEngine.replayEvents_silent_iff heng hp passes]
    constructor
    · intro hpath
      refine ⟨RecordEngine.answersIn (events.map (·.event)),
        RecordEngine.having (events.map (·.event)) m', RecordEngine.after_iff.mpr
          ⟨events.map (·.event), List.length_map _, RecordEngine.recordable_answersIn hpath, hpath,
            rfl⟩, rfl, RecordEngine.payloads_having _ m'⟩
    · rintro ⟨sim, s, hs, rfl, hevents⟩
      obtain ⟨evs, -, -, hpath, hhaving⟩ := RecordEngine.after_iff.mp hs
      rw [hhaving, RecordEngine.payloads_having] at hevents
      rwa [← hevents]
  · intro ctx t
    simp only [ReplayEngine.replayEvents_silent_iff heng hp passes]
    constructor
    · rintro ⟨m', hpath, hends⟩
      obtain ⟨fuel, stop, hrun, hlog, hexit, ht⟩ := RecordEngine.run_iff.mpr
        ⟨RecordEngine.recordable_answersIn hpath, m', hpath, hends⟩
      exact ⟨_, fuel, stop, hrun, hexit, ht, by rw [hlog, map_event_numbered]⟩
    · rintro ⟨sim, fuel, stop, hrun, hexit, ht, hevents⟩
      obtain ⟨k, -, s, hs, hbody⟩ := RecordEngine.run_eq_ok.mp hrun
      obtain ⟨evs, -, hrec, hpath, hhaving⟩ := RecordEngine.after_iff.mp hs
      have hevs : evs = events.map (·.event) := by
        rw [← hevents, (RecordEngine.body_eq_leave hbody).2.2, hhaving]
        exact (RecordEngine.payloads_having evs s.machine).symm
      rw [← hevs]
      exact ⟨s.machine, hpath, RecordEngine.body_leaves.mp ⟨stop, hbody, hexit, ht⟩⟩

/-- RDTSC; HLT replays silently from an event with any payload, so it can be recorded with it. -/
theorem silent_replay_iff_recorded_sample : ∃ sim s,
    RecordEngine.after SampleCpu.whp sim ⟨0⟩ 1 (SampleCpu.machine [0x0F, 0x31, 0xF4]) = some s ∧
      s.logger.events.map (·.event) = [.rdtsc 0x2222 3] := by
  have hiff := silent_replay_iff_recorded (ReplayEngine.activeVcpu_registerVcpu 0 ⟨0⟩)
    (SampleCpu.precise ⟨0⟩) [⟨9, .rdtsc 0x2222 3⟩] (SampleCpu.machine [0x0F, 0x31, 0xF4]) 0
  obtain ⟨sim, s, hs, -, hevents⟩ := (hiff.1 _).mp rfl
  exact ⟨sim, s, hs, hevents⟩

end Vestigium

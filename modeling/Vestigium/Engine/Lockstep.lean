/-
  LOCKSTEP — recorder and replayer, exit by exit.

  Recording and replaying are two loops over two machines.  What makes them comparable is a relation
  `R` on machines that both loops keep: `Lockstep w vcpu R` says that `R`-related machines take the
  same exits and stay related across a run and across `stepOver`.  Two relations are used:

  * equality — the engines started on one and the same machine (`Lockstep.eq`);
  * `GuestEq` — the same registers and guest memory, but host buffers and map of their own, as the
    Record and Replay commands have (`Lockstep.guestEq`).

  The simulation is proved once for any such `R`: one exit handled by the recorder is one event
  consumed by the replayer in ONE pass (`Lockstep.step`), and so by induction for a whole run
  (`Lockstep.replays`).  Nothing is assumed about which values the recorder answers exits with.
-/
import Vestigium.Engine.Record
import Vestigium.Engine.Replay
import Vestigium.Vmm.SampleCpu

namespace Vestigium

open Vestigium.Loop

/-- `R` is kept by all that an engine does to a guest, and related machines take the same exits. -/
structure Lockstep (w : Whp) (vcpu : Vcpu) (R : Machine → Machine → Prop) : Prop where
  run : ∀ {m n m1 ctx}, R m n → VmRunner.run w vcpu m = .ok (ctx, m1) →
    ∃ n1, VmRunner.run w vcpu n = .ok (ctx, n1) ∧ R m1 n1
  ownExit : ∀ {m n ctx ev}, R m n → OwnExit w vcpu ctx m ev → OwnExit w vcpu ctx n ev
  stepOver : ∀ {m n m1 ctx ev}, R m n → stepOver w vcpu ev ctx m = .ok m1 →
    ∃ n1, stepOver w vcpu ev ctx n = .ok n1 ∧ R m1 n1

/-- Equal machines stay equal. -/
theorem Lockstep.eq (w : Whp) (vcpu : Vcpu) : Lockstep w vcpu Eq where
  run := by
    rintro m n m1 ctx rfl h
    exact ⟨m1, h, rfl⟩
  ownExit := by
    rintro m n ctx ev rfl h
    exact h
  stepOver := by
    rintro m n m1 ctx ev rfl h
    exact ⟨m1, h, rfl⟩

/-! ## Machines that look alike to the guest -/

/-- The guest on `vcpu` cannot tell `m` from `n`. -/
structure GuestEq (vcpu : Vcpu) (m n : Machine) : Prop where
  regs : (m.vps vcpu.index).regs = (n.vps vcpu.index).regs
  ram : m.ram = n.ram
  extendedVmExits : m.extendedVmExits = n.extendedVmExits
  /-- No host byte is mapped twice, on either side: a store is seen where it was made. -/
  unaliased : Machine.Unaliased m.maps ∧ Machine.Unaliased n.maps

namespace GuestEq

variable {w : Whp} {vcpu : Vcpu} {m n : Machine}

theorem ran (h : GuestEq vcpu m n) (r : VpRun) :
    GuestEq vcpu (VmRunner.ran vcpu m r) (VmRunner.ran vcpu n r) where
  regs := by simp
  ram := by rw [VmRunner.ran_ram h.unaliased.1, VmRunner.ran_ram h.unaliased.2, h.ram]
  extendedVmExits := by simp [h.extendedVmExits]
  unaliased := by simpa using h.unaliased

theorem wrote (h : GuestEq vcpu m n) (names : List Reg) (values : List RegVal) :
    GuestEq vcpu (vcpu.wrote names values m) (vcpu.wrote names values n) where
  regs := by simp [h.regs]
  ram := h.ram
  extendedVmExits := h.extendedVmExits
  unaliased := h.unaliased

theorem retire (h : GuestEq vcpu m n) :
    GuestEq vcpu (m.retire vcpu.index) (n.retire vcpu.index) where
  regs := by simp [h.regs]
  ram := h.ram
  extendedVmExits := h.extendedVmExits
  unaliased := h.unaliased

theorem setRegisters (h : GuestEq vcpu m n) {names : List Reg} {values : List RegVal} {m1 : Machine}
    (hset : vcpu.setRegisters w names values m = .ok m1) :
    ∃ n1, vcpu.setRegisters w names values n = .ok n1 ∧ GuestEq vcpu m1 n1 := by
  obtain ⟨hlen, hfault, rfl⟩ := Vcpu.setRegisters_eq_ok.mp hset
  rw [h.regs] at hfault
  exact ⟨_, Vcpu.setRegisters_eq_ok.mpr ⟨hlen, hfault, rfl⟩, h.wrote names values⟩

theorem inject (h : GuestEq vcpu m n) {ev : EventType} {m1 : Machine}
    (hinj : Vestigium.inject w vcpu ev m = .ok m1) :
    ∃ n1, Vestigium.inject w vcpu ev n = .ok n1 ∧ GuestEq vcpu m1 n1 := by
  cases ev with
  | contextSwitch tid =>
    cases hinj
    exact ⟨n, rfl, h⟩
  | _ => exact h.setRegisters hinj

theorem stepRip (h : GuestEq vcpu m n) {len : U8} {m1 : Machine}
    (hstep : Vestigium.stepRip w vcpu len m = .ok m1) :
    ∃ n1, Vestigium.stepRip w vcpu len n = .ok n1 ∧ GuestEq vcpu m1 n1 := by
  obtain ⟨hget, hset, rfl⟩ := stepRip_eq_ok.mp hstep
  rw [h.regs] at hget hset
  refine ⟨_, stepRip_eq_ok.mpr ⟨hget, hset, rfl⟩, ?_⟩
  rw [stepped, stepped, h.regs]
  exact (h.wrote _ _).retire

end GuestEq

/-- Machines that look alike to the guest keep doing so. -/
theorem Lockstep.guestEq (w : Whp) (vcpu : Vcpu) : Lockstep w vcpu (GuestEq vcpu) where
  run := by
    intro m n m1 ctx h hrun
    obtain ⟨r, hr, rfl, rfl⟩ := VmRunner.run_eq_ok.mp hrun
    rw [h.extendedVmExits, h.regs, h.ram] at hr
    exact ⟨_, VmRunner.run_eq_ok.mpr ⟨r, hr, rfl, rfl⟩, h.ran r⟩
  ownExit := by
    intro m n ctx ev h hown
    cases ev with
    | contextSwitch tid =>
      obtain ⟨hr, hread, htid⟩ := hown
      rw [RcxReadable, h.regs] at hread
      rw [threadId, h.regs] at htid
      exact ⟨hr, hread, htid⟩
    | _ => exact hown
  stepOver := by
    intro m n m1 ctx ev h hstep
    obtain ⟨m2, h1, h2⟩ := bind_eq_ok.mp hstep
    obtain ⟨n2, h1', hrel⟩ := h.inject h1
    obtain ⟨n1, h2', hrel'⟩ := hrel.stepRip h2
    exact ⟨n1, bind_eq_ok.mpr ⟨n2, h1', h2'⟩, hrel'⟩

/-! ## The simulation -/

section Simulation

variable {w : Whp} {sim : SimAnswers} {vcpu : Vcpu} {eng : ReplayEngine}
  {R : Machine → Machine → Prop}

/-- **One exit.**  What the recorder logs for an exit, the replayer consumes in one pass. -/
theorem Lockstep.step (hR : Lockstep w vcpu R) (heng : eng.activeVcpu = .ok vcpu)
    {s s' : RecordState} {n : Machine} (hrel : R s.machine n)
    (h : RecordEngine.body w sim vcpu s = .ok (.again s')) :
    ∃ event n', s'.logger.events = s.logger.events ++ [event] ∧
      ReplayEngine.body w eng event n = .ok (.leave (n', none)) ∧ R s'.machine n' := by
  obtain ⟨ctx, m, ev, hrun, ⟨hown, -⟩, hstep, hs'⟩ := RecordEngine.body_eq_again.mp h
  obtain ⟨n1, hrun', hrel1⟩ := hR.run hrel hrun
  obtain ⟨n', hstep', hrel'⟩ := hR.stepOver hrel1 hstep
  refine ⟨⟨s.instructionCount, ev⟩, n', by rw [hs']; rfl, ?_, hrel'⟩
  exact ReplayEngine.body_of_own heng hrun' (hR.ownExit hrel1 hown) hstep'

/-- **A run.**  The events logged on the way from `s` to `t` take the replayer from any machine
    related to `s` to one related to `t`, each in one pass, with nothing printed. -/
theorem Lockstep.replays (hR : Lockstep w vcpu R) (heng : eng.activeVcpu = .ok vcpu) (passes : Nat) :
    ∀ {k : Nat} {s t : RecordState} {n : Machine}, R s.machine n →
      afterPasses (tryPass (RecordEngine.body w sim vcpu)) k s = some t →
      ∃ events n', t.logger.events = s.logger.events ++ events ∧ R t.machine n' ∧
        ReplayEngine.replayEvents w eng (passes + 1) events n = .ok (n', List.replicate k none)
  | 0, s, t, n, hrel, ht => by
    cases ht
    exact ⟨[], n, (List.append_nil _).symm, hrel, rfl⟩
  | k + 1, s, t, n, hrel, ht => by
    cases hb : tryPass (RecordEngine.body w sim vcpu) s with
    | leave r =>
      rw [afterPasses_leave hb] at ht
      nomatch ht
    | again s' =>
      rw [afterPasses_again hb] at ht
      obtain ⟨event, n1, hlog, hbody, hrel1⟩ := hR.step heng hrel (tryPass_eq_again.mp hb)
      obtain ⟨events, n', hlog', hrel', hrest⟩ := hR.replays heng passes hrel1 ht
      refine ⟨event :: events, n', by rw [hlog', hlog, List.append_assoc]; rfl, hrel', ?_⟩
      exact ReplayEngine.replayEvents_cons.mpr
        ⟨n1, none, _, ReplayEngine.replayEvent_of_leave hbody passes, hrest, rfl⟩

/-- The whole trace up to the recorder's `k`-th handled exit, replayed. -/
theorem Lockstep.replays_after (hR : Lockstep w vcpu R) (heng : eng.activeVcpu = .ok vcpu)
    {k : Nat} {m n : Machine} {s : RecordState} (hrel : R m n)
    (hs : RecordEngine.after w sim vcpu k m = some s) (passes : Nat) :
    ∃ n', R s.machine n' ∧
      ReplayEngine.replayEvents w eng (passes + 1) s.logger.events n =
        .ok (n', List.replicate k none) := by
  obtain ⟨events, n', hlog, hrel', hreplay⟩ := hR.replays (s := RecordEngine.start m) heng passes hrel hs
  rw [show s.logger.events = events by simpa [RecordEngine.start, TraceLogger.new] using hlog]
  exact ⟨n', hrel', hreplay⟩

end Simulation

/-! ## Replay reproduces the recording -/

/-- **Replay follows the recording exit by exit.**  Let the recorder, answering CPUID and RDTSC with
    any values at all, return from machine `m`.  Then on the same machine

    * after the first `k` events, each taking one pass however many are allowed and none printing
      anything, the replayer's machine is the recorder's after its `k`-th handled exit;
    * event `k` is consumed by the first vCPU run, and RIP has moved on, modulo `2^64`, by the low
      nibble of the exit's bit field, or by `3` at a VMCALL;
    * one more run of the vCPU takes the recorder's last exit and ends in its last state. -/
theorem replay_follows_record {w : Whp} {sim : SimAnswers} {vcpu : Vcpu} {eng : ReplayEngine}
    (heng : eng.activeVcpu = .ok vcpu) {fuel : Nat} {m : Machine} {stop : Stopped}
    (hrec : RecordEngine.run w sim vcpu fuel m = .ok stop) :
    let events := stop.state.logger.events
    (∀ k ≤ events.length, ∃ s, RecordEngine.after w sim vcpu k m = some s ∧
      ∀ passes, ReplayEngine.replayEvents w eng (passes + 1) (events.take k) m =
        .ok (s.machine, List.replicate k none)) ∧
    (∀ k, (hk : k < events.length) → ∃ s s' ctx m1,
      RecordEngine.after w sim vcpu k m = some s ∧
      RecordEngine.after w sim vcpu (k + 1) m = some s' ∧
      VmRunner.run w vcpu s.machine = .ok (ctx, m1) ∧
      ReplayEngine.body w eng events[k] s.machine = .ok (.leave (s'.machine, none)) ∧
      reg64 ((s'.machine.vps vcpu.index).regs .rip) = reg64 ((m1.vps vcpu.index).regs .rip) +
        (if ctx.exitReason = 4 then 3 else (ctx.bitfield &&& 0x0F).setWidth 64)) ∧
    ∃ s, RecordEngine.after w sim vcpu events.length m = some s ∧
      VmRunner.run w vcpu s.machine = .ok (stop.exit, stop.state.machine) := by
  obtain ⟨n, -, t, ht, hstop⟩ := RecordEngine.run_eq_ok.mp hrec
  obtain ⟨hlast, -, hstate⟩ := RecordEngine.body_eq_leave hstop
  have hevents : stop.state.logger.events = t.logger.events := by rw [hstate]
  have hn : t.logger.events.length = n := (RecordEngine.after_length ht).1
  intro events
  have hlen : events.length = n := by rw [← hn, ← hevents]
  have hafter : ∀ k ≤ n, ∃ s, RecordEngine.after w sim vcpu k m = some s ∧
      s.logger.events = events.take k := by
    intro k hk
    obtain ⟨s, hs⟩ := afterPasses_of_le hk ht
    exact ⟨s, hs, by rw [RecordEngine.after_take hk hs ht, ← hevents]⟩
  refine ⟨fun k hk => ?_, fun k hk => ?_, t, by rwa [hlen], hlast⟩
  · -- the first `k` events: the simulation, with equality as the relation
    obtain ⟨s, hs, htake⟩ := hafter k (by omega)
    refine ⟨s, hs, fun passes => ?_⟩
    obtain ⟨m', rfl, hreplay⟩ := (Lockstep.eq w vcpu).replays_after heng rfl hs passes
    rwa [htake] at hreplay
  · -- event `k`: the recorder's pass that logged it, and the pass that consumes it
    obtain ⟨s', hs', htake'⟩ := hafter (k + 1) (by omega)
    obtain ⟨s, hs, hbody⟩ := RecordEngine.after_succ.mp hs'
    obtain ⟨event, m2, hlog, hreplay, rfl⟩ := (Lockstep.eq w vcpu).step heng rfl hbody
    obtain ⟨ctx, m1, ev, hrun, ⟨hown, -⟩, hstep, -⟩ := RecordEngine.body_eq_again.mp hbody
    refine ⟨s, s', ctx, m1, hs, hs', hrun, ?_, ?_⟩
    · -- what this pass appended is the trace's entry `k`, since the trace only grows
      have hevent : events[k] = event := by
        have hget : (events.take (k + 1))[k]? = some event := by
          rw [← htake', hlog, ← (RecordEngine.after_length hs).1, List.getElem?_concat_length]
        rw [List.getElem?_take_of_lt (Nat.lt_succ_self k), List.getElem?_eq_getElem hk] at hget
        exact Option.some.inj hget
      rw [hevent]
      exact hreplay
    · rw [stepOver_rip hstep, hown.lengthOf]

/-- The recording of RDTSC; CPUID; VMCALL; HLT, replayed. -/
theorem replay_follows_record_sample :
    ∃ stop, RecordEngine.run SampleCpu.whp simulated ⟨0⟩ 4
        (SampleCpu.machine [0x0F, 0x31, 0x0F, 0xA2, 0x0F, 0x01, 0xC1, 0xF4]) = .ok stop ∧
      stop.state.logger.events.length = 3 ∧
      ∃ s, RecordEngine.after SampleCpu.whp simulated ⟨0⟩ stop.state.logger.events.length
          (SampleCpu.machine [0x0F, 0x31, 0x0F, 0xA2, 0x0F, 0x01, 0xC1, 0xF4]) = some s ∧
        VmRunner.run SampleCpu.whp ⟨0⟩ s.machine = .ok (stop.exit, stop.state.machine) := by
  have hrec : ∃ stop, RecordEngine.run SampleCpu.whp simulated ⟨0⟩ 4
      (SampleCpu.machine [0x0F, 0x31, 0x0F, 0xA2, 0x0F, 0x01, 0xC1, 0xF4]) = .ok stop ∧
      stop.state.logger.events.length = 3 := ⟨_, rfl, rfl⟩
  obtain ⟨stop, hstop, hlen⟩ := hrec
  exact ⟨stop, hstop, hlen,
    (replay_follows_record (ReplayEngine.activeVcpu_registerVcpu 0 ⟨0⟩) hstop).2.2⟩

end Vestigium

/-
  CRASHES — exit reason 4.

  Both engines take reason 4 for VMCALL ("WHvRunVpExitReasonX64Callout").  In WHP's numbering it is
  `WHvRunVpExitReasonUnrecoverableException`: every exception the guest cannot handle ends there,
  the one a VMCALL raises among them.  The handlers look at the number alone, so what they log or
  consume as a context switch is whatever crash there was, and they resume three bytes behind it.

  `AtVmcall` looks at what they do not: the bytes at RIP, fetched through the guest's page tables.
-/
import Vestigium.Engine.Reach
import Vestigium.Engine.Record
import Vestigium.Vmm.Paging

namespace Vestigium

open Vestigium.Loop

variable {w : Whp} {sim : SimAnswers} {vcpu : Vcpu} {eng : ReplayEngine}

/-- The encoding of VMCALL. -/
def vmcallBytes : Codec.Bytes := [0x0F, 0x01, 0xC1]

/-- The instruction at the guest's RIP is VMCALL. -/
def AtVmcall (vcpu : Vcpu) (m : Machine) : Prop :=
  fetchBytes (m.vps vcpu.index).regs m.ram 3 (reg64 ((m.vps vcpu.index).regs .rip)) =
    some vmcallBytes

instance (vcpu : Vcpu) (m : Machine) : Decidable (AtVmcall vcpu m) :=
  inferInstanceAs (Decidable (_ = _))

/-- The register accesses an engine makes at an exit of reason 4 in state `m` succeed. -/
def Resumable (w : Whp) (vcpu : Vcpu) (ctx : ExitContext) (m : Machine) : Prop :=
  RcxReadable w vcpu m ∧ ∃ m', stepOver w vcpu (.contextSwitch (threadId vcpu m)) ctx m = .ok m'

/-! ## Recording -/

namespace RecordEngine

/-- Every context switch the recorder logs, in a run of any length, is a VMCALL at the guest's RIP. -/
def SwitchesAreVmcalls (w : Whp) (sim : SimAnswers) (vcpu : Vcpu) (m : Machine) : Prop :=
  ∀ k s s' ctx m1 count tid, after w sim vcpu k m = some s →
    VmRunner.run w vcpu s.machine = .ok (ctx, m1) → body w sim vcpu s = .ok (.again s') →
    s'.logger.events = s.logger.events ++ [⟨count, .contextSwitch tid⟩] → AtVmcall vcpu m1

/-- No exit of reason 4 that the recorder gets to, and can handle, is anything but a VMCALL. -/
def OnlyVmcallsCrash (w : Whp) (sim : SimAnswers) (vcpu : Vcpu) (m : Machine) : Prop :=
  ∀ k s ctx m1, after w sim vcpu k m = some s → VmRunner.run w vcpu s.machine = .ok (ctx, m1) →
    ctx.exitReason = 4 → Resumable w vcpu ctx m1 → AtVmcall vcpu m1

/-- A context switch is logged at every exit of reason 4 that can be handled, and at no other. -/
theorem switch_logged_iff (sim : SimAnswers) {s : RecordState} {ctx : ExitContext} {m1 : Machine}
    (hrun : VmRunner.run w vcpu s.machine = .ok (ctx, m1)) :
    (∃ s' count tid, body w sim vcpu s = .ok (.again s') ∧
      s'.logger.events = s.logger.events ++ [⟨count, .contextSwitch tid⟩]) ↔
    ctx.exitReason = 4 ∧ Resumable w vcpu ctx m1 := by
  constructor
  · rintro ⟨s', count, tid, hbody, hlog⟩
    obtain ⟨ctx', m1', ev, hrun', ⟨hown, -⟩, hstep, hs'⟩ := body_eq_again.mp hbody
    rw [hrun] at hrun'
    cases hrun'
    have hev : ev = .contextSwitch tid := by
      rw [hs'] at hlog
      exact (TraceEvent.mk.inj (List.singleton_inj.mp (List.append_cancel_left hlog))).2
    subst hev
    obtain ⟨hr, hread, rfl⟩ := hown
    exact ⟨hr, hread, s'.machine, hstep⟩
  · rintro ⟨hr, hread, m', hstep⟩
    exact ⟨logged s (.contextSwitch (threadId vcpu m1)) m', s.instructionCount, threadId vcpu m1,
      body_eq_again.mpr ⟨ctx, m1, .contextSwitch (threadId vcpu m1), hrun,
        ⟨⟨hr, hread, rfl⟩, trivial⟩, hstep, rfl⟩, rfl⟩

theorem switchesAreVmcalls_iff (m : Machine) :
    SwitchesAreVmcalls w sim vcpu m ↔ OnlyVmcallsCrash w sim vcpu m := by
  constructor
  · intro h k s ctx m1 hs hrun hr hres
    obtain ⟨s', count, tid, hbody, hlog⟩ := (switch_logged_iff sim hrun).mpr ⟨hr, hres⟩
    exact h k s s' ctx m1 count tid hs hrun hbody hlog
  · intro h k s s' ctx m1 count tid hs hrun hbody hlog
    obtain ⟨hr, hres⟩ := (switch_logged_iff sim hrun).mp ⟨s', count, tid, hbody, hlog⟩
    exact h k s ctx m1 hs hrun hr hres

end RecordEngine

/-! ## Replaying -/

namespace ReplayEngine

/-- Whatever trace is replayed from `m`, a context switch is accepted only at a VMCALL. -/
def SwitchesAreVmcalls (w : Whp) (eng : ReplayEngine) (vcpu : Vcpu) (m : Machine) : Prop :=
  ∀ fuel events m1 lines, replayEvents w eng fuel events m = .ok (m1, lines) →
    ∀ count tid m2, AcceptsAt w eng vcpu ⟨count, .contextSwitch tid⟩ m1 m2 → AtVmcall vcpu m2

/-- However the guest is moved from event to event, it gets to no exit of reason 4 that can be
    handled and is not a VMCALL. -/
def OnlyVmcallsCrash (w : Whp) (vcpu : Vcpu) (m : Machine) : Prop :=
  ∀ t, Relation.ReflTransGen (Moves w vcpu) m t →
    ∀ u, Relation.ReflTransGen (Intercepted w vcpu) t u →
    ∀ ctx m1, VmRunner.run w vcpu u = .ok (ctx, m1) → ctx.exitReason = 4 → Resumable w vcpu ctx m1 →
    AtVmcall vcpu m1

theorem switchesAreVmcalls_iff (heng : eng.activeVcpu = .ok vcpu) (m : Machine) :
    SwitchesAreVmcalls w eng vcpu m ↔ OnlyVmcallsCrash w vcpu m := by
  constructor
  · rintro h t hreach u hpast ctx m1 hrun hr ⟨hread, m', hstep⟩
    obtain ⟨fuel, events, lines, hreplay⟩ := replays_of_moves heng hreach
    exact h fuel events t lines hreplay 0 (threadId vcpu m1) m1
      ⟨u, ctx, m', (skips_iff heng).mpr (runsOn_of_intercepted rfl rfl hpast), hrun,
        ⟨hr, hread, rfl⟩, hstep⟩
  · rintro h fuel events m1 lines hreplay count tid m2 ⟨u, ctx, m', hskip, hrun, hown, hstep⟩
    obtain ⟨hr, hread, htid⟩ := hown
    rw [htid] at hstep
    exact h m1 (moves_of_replays heng events hreplay) u
      (intercepted_of_runsOn ((skips_iff heng).mp hskip)) ctx m2 hrun hr ⟨hread, m', hstep⟩

end ReplayEngine

/-! ## Both engines -/

/-- **Context switches are VMCALLs** exactly on guests that raise no other unrecoverable exception:
    for the recorder along its own run, for the replayer wherever some trace can take it. -/
theorem context_switches_are_vmcalls_iff (heng : eng.activeVcpu = .ok vcpu) (m : Machine) :
    (RecordEngine.SwitchesAreVmcalls w sim vcpu m ↔ RecordEngine.OnlyVmcallsCrash w sim vcpu m) ∧
    (ReplayEngine.SwitchesAreVmcalls w eng vcpu m ↔ ReplayEngine.OnlyVmcallsCrash w vcpu m) :=
  ⟨RecordEngine.switchesAreVmcalls_iff m, ReplayEngine.switchesAreVmcalls_iff heng m⟩

theorem context_switches_are_vmcalls_iff_sample :
    RecordEngine.SwitchesAreVmcalls SampleCpu.whp simulated ⟨0⟩
        (SampleCpu.machine [0x0F, 0x01, 0xC1, 0xF4]) ↔
      RecordEngine.OnlyVmcallsCrash SampleCpu.whp simulated ⟨0⟩
        (SampleCpu.machine [0x0F, 0x01, 0xC1, 0xF4]) :=
  (context_switches_are_vmcalls_iff (ReplayEngine.activeVcpu_registerVcpu 0 ⟨0⟩) _).1

/-- **UD2 is recorded as a context switch**, to thread 0, and the guest is resumed behind it; the
    replayer accepts it again. -/
theorem context_switch_at_ud2 :
    ¬ RecordEngine.SwitchesAreVmcalls SampleCpu.whp simulated ⟨0⟩
        (SampleCpu.machine [0x0F, 0x0B, 0x90, 0xF4]) ∧
    ¬ ReplayEngine.SwitchesAreVmcalls SampleCpu.whp ((ReplayEngine.new 0).registerVcpu 0 ⟨0⟩) ⟨0⟩
        (SampleCpu.machine [0x0F, 0x0B, 0x90, 0xF4]) := by
  constructor
  · -- the very first event, at count 0 and with RCX 0
    intro h
    have hvm := h 0 _ _ _ _ 0 0 rfl rfl rfl rfl
    revert hvm
    decide
  · intro h
    have hvm := h 1 [] _ [] rfl 0 0 _ ⟨_, _, _, ⟨0, rfl⟩, rfl, ⟨rfl, rfl, rfl⟩, rfl⟩
    revert hvm
    decide

end Vestigium

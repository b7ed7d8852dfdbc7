/-
  THE ANSWERS ARE ALL — why it is enough to log them.

  A trace holds nothing but the answers to CPUID and RDTSC and the threads switched to.  That this is
  enough to replay a guest says that nothing else can differ between two runs of it.  Here the runs
  are recordings: of machines that look alike to the guest, though nothing else about them need be
  the same, by recorders that answer as they like.  They go on alike, in what they log as in how they
  end or fail, up to a first CPUID or RDTSC which the two answer differently (`first_difference`).  So
  two recordings with the same trace have ended in the same state (`trace_determines_run`).

  The loops are set side by side by `Agree.loop_until`; a pass of the one recorder is a pass of the
  other as long as the answer it asks for is the same (`body_of_same_answer`).
-/
import Vestigium.Engine.TwoRuns

namespace Vestigium.RecordEngine

open Vestigium.Loop Vestigium.Relational

variable {w : Whp} {sim sim' : SimAnswers} {vcpu : Vcpu} {R : Machine → Machine → Prop}

/-! ## One pass by two recorders -/

/-- The next exit is one that the two recorders answer differently. -/
def Differs (w : Whp) (sim sim' : SimAnswers) (vcpu : Vcpu) (s : RecordState) : Prop :=
  ∃ ctx m, VmRunner.run w vcpu s.machine = .ok (ctx, m) ∧
    (ctx.exitReason = 4097 ∧
        sim.cpuid s.logger.events.length ≠ sim'.cpuid s.logger.events.length ∨
      ctx.exitReason = 4099 ∧
        sim.rdtsc s.logger.events.length ≠ sim'.rdtsc s.logger.events.length)

/-- Elsewhere the recorders do the same. -/
theorem body_of_same_answer {s : RecordState} (h : ¬ Differs w sim sim' vcpu s) :
    body w sim vcpu s = body w sim' vcpu s := by
  rw [body, body]
  cases hrun : VmRunner.run w vcpu s.machine with
  | error e => rfl
  | ok x =>
    obtain ⟨ctx, m⟩ := x
    have hcpuid : ctx.exitReason = 4097 →
        sim.cpuid s.logger.events.length = sim'.cpuid s.logger.events.length := fun hr =>
      Classical.byContradiction fun hne => h ⟨ctx, m, hrun, .inl ⟨hr, hne⟩⟩
    have hrdtsc : ctx.exitReason = 4099 →
        sim.rdtsc s.logger.events.length = sim'.rdtsc s.logger.events.length := fun hr =>
      Classical.byContradiction fun hne => h ⟨ctx, m, hrun, .inr ⟨hr, hne⟩⟩
    show onExit w sim vcpu s ctx m = onExit w sim' vcpu s ctx m
    -- the branches for the other reasons stay as they are, and are not taken
    by_cases hr : ctx.exitReason = 4097
    · simp only [onExit, hr, hcpuid hr]
      rfl
    · by_cases hr' : ctx.exitReason = 4099
      · simp only [onExit, hr', hrdtsc hr']
        rfl
      · simp only [onExit, hr, hr', if_false]

/-! ## Two recordings -/

/-- **The first difference.**  Two recorders on related machines have the same outcome, errors and
    endless loops included, unless after the same events logged, in related states, the guest asks
    for a CPUID or RDTSC that they answer differently. -/
theorem first_difference (hR : Bisimilar w vcpu R) {m n : Machine} (h : R m n) (fuel : Nat) :
    Agree (StopsAgree R) (run w sim vcpu fuel m) (run w sim' vcpu fuel n) ∨
    ∃ k < fuel, ∃ s t, after w sim vcpu k m = some s ∧ after w sim' vcpu k n = some t ∧
      StatesAgree R s t ∧ Differs w sim sim' vcpu s := by
  refine Agree.loop_until (D := fun s _ => Differs w sim sim' vcpu s) (fun s t hst => ?_) _
    (show StatesAgree R (start m) (start n) from ⟨h, rfl, rfl⟩) fuel
  by_cases hdiff : Differs w sim sim' vcpu s
  · exact .inl hdiff
  · right
    rw [body_of_same_answer hdiff]
    exact body_agree hR hst

/-- A completed recording is the same with more passes allowed. -/
theorem run_of_le {fuel fuel' : Nat} (hle : fuel ≤ fuel') {m : Machine} {stop : Stopped}
    (hrun : run w sim vcpu fuel m = .ok stop) : run w sim vcpu fuel' m = .ok stop := by
  obtain ⟨k, hk, hleave⟩ := run_eq_ok.mp hrun
  exact run_eq_ok.mpr ⟨k, Nat.lt_of_lt_of_le hk hle, hleave⟩

/-- What a completed recording has logged about an exit it came to on its way. -/
theorem logged_at {fuel : Nat} {m : Machine} {stop : Stopped}
    (hrun : run w sim vcpu fuel m = .ok stop) {k : Nat} {s : RecordState}
    (hs : after w sim vcpu k m = some s) {ctx : ExitContext} {m1 : Machine}
    (hexit : VmRunner.run w vcpu s.machine = .ok (ctx, m1)) (hnot : ¬ Terminal ctx) :
    ∃ ev, (stop.state.logger.events.map (·.event))[k]? = some ev ∧
      Answers w sim vcpu k ctx m1 ev := by
  obtain ⟨K, -, t, ht, hleave⟩ := run_eq_ok.mp hrun
  obtain ⟨hlast, hterm, hstate⟩ := body_eq_leave hleave
  have hlt : k < K := by
    rcases Nat.lt_trichotomy k K with hlt | heq | hgt
    · exact hlt
    · -- the recording would end at this exit
      subst heq
      obtain rfl := Option.some.inj (hs.symm.trans ht)
      obtain ⟨rfl, -⟩ := Prod.mk.inj (Except.ok.inj (hexit.symm.trans hlast))
      exact absurd hterm hnot
    · -- or would have ended before
      obtain ⟨u, hu⟩ := afterPasses_of_le (Nat.succ_le_of_lt hgt) hs
      obtain ⟨t', ht', hbody⟩ := after_succ.mp hu
      obtain rfl := Option.some.inj (ht.symm.trans ht')
      cases hleave.symm.trans hbody
  obtain ⟨s1, hs1⟩ := afterPasses_of_le (Nat.succ_le_of_lt hlt) ht
  obtain ⟨s', hs', hbody⟩ := after_succ.mp hs1
  obtain rfl := Option.some.inj (hs.symm.trans hs')
  obtain ⟨ctx', m1', ev, hrun', hans, -, hlogged⟩ := body_eq_again.mp hbody
  obtain ⟨rfl, rfl⟩ := Prod.mk.inj (Except.ok.inj (hexit.symm.trans hrun'))
  have hlen := (after_length hs).1
  rw [hlen] at hans
  refine ⟨ev, ?_, hans⟩
  have htake : s.logger.events ++ [⟨s.instructionCount, ev⟩] = t.logger.events.take (k + 1) := by
    rw [← after_take (Nat.succ_le_of_lt hlt) hs1 ht, hlogged]
    rfl
  have hget : t.logger.events[k]? = some ⟨s.instructionCount, ev⟩ := by
    rw [← List.getElem?_take_of_lt (Nat.lt_succ_self k), ← htake, ← hlen,
      List.getElem?_concat_length]
  rw [hstate, List.getElem?_map, hget]
  rfl

/-- Completed recordings that differ in an answer differ in their traces. -/
theorem payloads_ne_of_differs (hR : Bisimilar w vcpu R) {fuel fuel' : Nat} {m n : Machine}
    {stop stop' : Stopped} (hrun : run w sim vcpu fuel m = .ok stop)
    (hrun' : run w sim' vcpu fuel' n = .ok stop') {k : Nat} {s t : RecordState}
    (hs : after w sim vcpu k m = some s) (ht : after w sim' vcpu k n = some t)
    (hst : StatesAgree R s t) (hdiff : Differs w sim sim' vcpu s) :
    stop.state.logger.events.map (·.event) ≠ stop'.state.logger.events.map (·.event) := by
  obtain ⟨ctx, m1, hexit, hkind⟩ := hdiff
  obtain ⟨⟨ctx', n1⟩, hexit', hctx, -⟩ := (hR.run hst.machine).of_ok hexit
  obtain rfl : ctx = ctx' := hctx
  have hnot : ¬ Terminal ctx := by
    rintro ⟨h1, h2, -⟩
    rcases hkind with ⟨hr, -⟩ | ⟨hr, -⟩
    · exact h1 hr
    · exact h2 hr
  obtain ⟨ev, hev, hown, hans⟩ := logged_at hrun hs hexit hnot
  obtain ⟨ev', hev', hown', hans'⟩ := logged_at hrun' ht hexit' hnot
  intro hsame
  rw [hsame] at hev
  obtain rfl := Option.some.inj (hev.symm.trans hev')
  rw [(after_length hs).1] at hkind
  -- the exit tells of what kind the event is
  rcases hkind with ⟨hr, hne⟩ | ⟨hr, hne⟩
  · cases ev with
    | cpuid eax ebx ecx edx => exact hne (hans.trans hans'.symm)
    | syscall rax ws => exact hown
    | rdtsc rax rdx => exact absurd (hr.symm.trans hown) (by decide)
    | contextSwitch tid => exact absurd (hr.symm.trans hown.1) (by decide)
  · cases ev with
    | rdtsc rax rdx => exact hne (hans.trans hans'.symm)
    | syscall rax ws => exact hown
    | cpuid eax ebx ecx edx => exact absurd (hr.symm.trans hown) (by decide)
    | contextSwitch tid => exact absurd (hr.symm.trans hown.1) (by decide)

/-- **The trace determines the run.**  Let a guest be recorded on two machines that look alike to it,
    by recorders that answer CPUID and RDTSC as they like.  If both recordings complete and have
    logged the same payloads, they have logged the same events, ended at the same exit, printed the
    same line and left machines that look alike to the guest.  If they have not, then after equal
    logs, in states that look alike, the guest asked for an answer in which the recorders differ. -/
theorem trace_determines_run {m n : Machine} (h : GuestEq vcpu m n) {fuel fuel' : Nat}
    {stop stop' : Stopped} (hrun : run w sim vcpu fuel m = .ok stop)
    (hrun' : run w sim' vcpu fuel' n = .ok stop') :
    (stop.state.logger.events.map (·.event) = stop'.state.logger.events.map (·.event) ↔
      StopsAgree (GuestEq vcpu) stop stop') ∧
    (stop.state.logger.events.map (·.event) ≠ stop'.state.logger.events.map (·.event) ↔
      ∃ k s t, after w sim vcpu k m = some s ∧ after w sim' vcpu k n = some t ∧
        StatesAgree (GuestEq vcpu) s t ∧ Differs w sim sim' vcpu s) := by
  have hsame : StopsAgree (GuestEq vcpu) stop stop' →
      stop.state.logger.events.map (·.event) = stop'.state.logger.events.map (·.event) := fun hagree => by
    rw [hagree.state.logger]
  -- as many passes as both of them need
  have hcases := @first_difference w sim sim' vcpu _ (Bisimilar.guestEq w vcpu) m n h (fuel + fuel')
  rw [run_of_le (Nat.le_add_right fuel fuel') hrun,
    run_of_le (Nat.le_add_left fuel' fuel) hrun'] at hcases
  have hpart : ∀ {k : Nat} {s t : RecordState}, after w sim vcpu k m = some s →
      after w sim' vcpu k n = some t → StatesAgree (GuestEq vcpu) s t →
      Differs w sim sim' vcpu s →
      stop.state.logger.events.map (·.event) ≠ stop'.state.logger.events.map (·.event) :=
    payloads_ne_of_differs (Bisimilar.guestEq w vcpu) hrun hrun'
  constructor
  · refine ⟨fun hlog => ?_, hsame⟩
    rcases hcases with hagree | ⟨k, -, s, t, hs, ht, hst, hdiff⟩
    · cases hagree with
      | ok hagree => exact hagree
    · exact absurd hlog (hpart hs ht hst hdiff)
  · constructor
    · intro hlog
      rcases hcases with hagree | ⟨k, -, s, t, hs, ht, hst, hdiff⟩
      · cases hagree with
        | ok hagree => exact absurd (hsame hagree) hlog
      · exact ⟨k, s, t, hs, ht, hst, hdiff⟩
    · rintro ⟨k, s, t, hs, ht, hst, hdiff⟩
      exact hpart hs ht hst hdiff

/-- RDTSC; HLT, recorded with the source's answer and with another one, on a machine that has
    something more in a buffer: it is at the RDTSC that the two recordings part. -/
theorem trace_determines_run_sample : ∃ k s t,
    after SampleCpu.whp simulated ⟨0⟩ k (SampleCpu.machine [0x0F, 0x31, 0xF4]) = some s ∧
    after SampleCpu.whp { simulated with rdtsc := fun _ => (0x2000, 0) } ⟨0⟩ k
      ((SampleCpu.machine [0x0F, 0x31, 0xF4]).alloc .stack [1, 2, 3]) = some t ∧
    StatesAgree (GuestEq ⟨0⟩) s t ∧
    Differs SampleCpu.whp simulated { simulated with rdtsc := fun _ => (0x2000, 0) } ⟨0⟩ s := by
  have hrun : ∃ stop, run SampleCpu.whp simulated ⟨0⟩ 2 (SampleCpu.machine [0x0F, 0x31, 0xF4]) =
      .ok stop ∧ stop.state.logger.events.map (·.event) = [.rdtsc 0x1000 0] := ⟨_, rfl, rfl⟩
  have hrun' : ∃ stop, run SampleCpu.whp { simulated with rdtsc := fun _ => (0x2000, 0) } ⟨0⟩ 2
      ((SampleCpu.machine [0x0F, 0x31, 0xF4]).alloc .stack [1, 2, 3]) = .ok stop ∧
      stop.state.logger.events.map (·.event) = [.rdtsc 0x2000 0] := ⟨_, rfl, rfl⟩
  obtain ⟨stop, hstop, hlog⟩ := hrun
  obtain ⟨stop', hstop', hlog'⟩ := hrun'
  refine (trace_determines_run (SampleCpu.guestEq_alloc _ _) hstop hstop').2.mp ?_
  rw [hlog, hlog']
  decide

end Vestigium.RecordEngine

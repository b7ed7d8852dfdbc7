/-
  COUNTING INSTRUCTIONS — what `instruction_count` has to do with instructions.

  The format calls it "the retired instruction count at the time of interception".  The recorder
  increments its counter once for each exit it handles and never otherwise; the replayer does not
  read the field.  Measured against the ghost count of completed instructions:

  * a recorded count is right exactly as long as the guest does nothing but exit
    (`countsRight_iff`), since every ordinary instruction on the way puts the two apart for good;
  * the replayer pins an event to its count only on a guest that never gets to an event
    (`pinsCount_iff`), since one it accepts at one count it accepts at any.
-/
import Vestigium.Engine.Reach
import Vestigium.Engine.Record

namespace Vestigium

open Vestigium.Loop

/-- How many instructions the guest on `vcpu` has completed. -/
def retired (vcpu : Vcpu) (m : Machine) : Nat := (m.vps vcpu.index).retired

variable {w : Whp} {sim : SimAnswers} {vcpu : Vcpu} {eng : ReplayEngine}

theorem run_retired {m m' : Machine} {ctx : ExitContext}
    (h : VmRunner.run w vcpu m = .ok (ctx, m')) : retired vcpu m ≤ retired vcpu m' := by
  obtain ⟨r, -, -, rfl⟩ := VmRunner.run_eq_ok.mp h
  rw [retired, retired, VmRunner.ran_retired]
  exact Nat.le_add_right _ _

/-! ## What the recorder writes down -/

namespace RecordEngine

/-- The first `k` recorded events carry the number of instructions completed, since the recording
    began, when they were intercepted. -/
def CountsRight (w : Whp) (sim : SimAnswers) (vcpu : Vcpu) (m : Machine) (k : Nat)
    (s : RecordState) : Prop :=
  ∀ i < k, ∀ si ctx m1 event, after w sim vcpu i m = some si →
    VmRunner.run w vcpu si.machine = .ok (ctx, m1) → s.logger.events[i]? = some event →
    retired vcpu m1 = retired vcpu m + event.instructionCount.toNat

/-- None of the runs that lead to the first `k` events completes an ordinary instruction. -/
def NoOrdinary (w : Whp) (sim : SimAnswers) (vcpu : Vcpu) (m : Machine) (k : Nat) : Prop :=
  ∀ i < k, ∀ si ctx m1, after w sim vcpu i m = some si →
    VmRunner.run w vcpu si.machine = .ok (ctx, m1) → retired vcpu m1 = retired vcpu si.machine

/-- Event `i` carries `i`. -/
theorem count_of_after {i k : Nat} {m : Machine} {s : RecordState} {event : TraceEvent}
    (hs : after w sim vcpu k m = some s) (he : s.logger.events[i]? = some event) :
    event.instructionCount = BitVec.ofNat 64 i := by
  have hik : i < k := by
    rw [← (after_length hs).1]
    exact (List.getElem?_eq_some_iff.mp he).1
  obtain ⟨s', hs'⟩ := afterPasses_of_le hik hs
  obtain ⟨si, hsi, hbody⟩ := after_succ.mp hs'
  obtain ⟨ctx, m1, ev, -, -, -, hlog⟩ := body_eq_again.mp hbody
  have hget : (s.logger.events.take (i + 1))[i]? = some ⟨si.instructionCount, ev⟩ := by
    rw [← after_take hik hs' hs, hlog]
    show (si.logger.events ++ [_])[i]? = _
    rw [← (after_length hsi).1, List.getElem?_concat_length]
  rw [List.getElem?_take_of_lt (Nat.lt_succ_self i), he] at hget
  rw [Option.some.inj hget]
  exact (after_length hsi).2

/-- One exit handled is at least one instruction done, and exactly one if no ordinary one is. -/
theorem after_retired {m : Machine} : ∀ {k : Nat} {s : RecordState},
    after w sim vcpu k m = some s → retired vcpu m + k ≤ retired vcpu s.machine ∧
      (NoOrdinary w sim vcpu m k → retired vcpu s.machine = retired vcpu m + k)
  | 0, s, hs => by
    cases hs
    exact ⟨Nat.le_refl _, fun _ => rfl⟩
  | k + 1, s', hs' => by
    obtain ⟨s, hs, hbody⟩ := after_succ.mp hs'
    obtain ⟨hle, heq⟩ := after_retired hs
    obtain ⟨ctx, m1, ev, hrun, -, hstep, -⟩ := body_eq_again.mp hbody
    have hone : retired vcpu s'.machine = retired vcpu m1 + 1 := stepOver_retired hstep
    have hrun_le := run_retired hrun
    -- the intercepted instruction counts once, when it is stepped over
    refine ⟨by omega, fun hno => ?_⟩
    have hprev := heq fun i hi => hno i (Nat.lt_succ_of_lt hi)
    have hlast := hno k (Nat.lt_succ_self k) s ctx m1 hs hrun
    omega

/-- Each event recorded comes from an exit of its own, and carries the exit's number modulo `2^64`. -/
theorem exit_of_lt {i k : Nat} {m : Machine} {s : RecordState} (hs : after w sim vcpu k m = some s)
    (hi : i < k) : ∃ si ctx m1 event, after w sim vcpu i m = some si ∧
      VmRunner.run w vcpu si.machine = .ok (ctx, m1) ∧ s.logger.events[i]? = some event ∧
      event.instructionCount.toNat = i % 2 ^ 64 := by
  obtain ⟨s', hs'⟩ := afterPasses_of_le hi hs
  obtain ⟨si, hsi, hbody⟩ := after_succ.mp hs'
  obtain ⟨ctx, m1, ev, hrun, -⟩ := body_eq_again.mp hbody
  have hlt : i < s.logger.events.length := by rwa [(after_length hs).1]
  have hget := List.getElem?_eq_getElem hlt
  refine ⟨si, ctx, m1, _, hsi, hrun, hget, ?_⟩
  rw [count_of_after hs hget, BitVec.toNat_ofNat]

/-- **The recorded counts are right** exactly while the guest retires nothing but intercepted
    instructions, and the counter has not wrapped. -/
theorem countsRight_iff {m : Machine} {k : Nat} {s : RecordState}
    (hs : after w sim vcpu k m = some s) :
    CountsRight w sim vcpu m k s ↔ k ≤ 2 ^ 64 ∧ NoOrdinary w sim vcpu m k := by
  constructor
  · intro hright
    -- the guest is never behind the number of exits, so a right count is an unwrapped one
    have hcount : ∀ i < k, ∀ si ctx m1, after w sim vcpu i m = some si →
        VmRunner.run w vcpu si.machine = .ok (ctx, m1) →
        i % 2 ^ 64 = i ∧ retired vcpu m1 = retired vcpu si.machine := by
      intro i hi si ctx m1 hsi hrun
      obtain ⟨si', ctx', m1', event, hsi', hrun', hget, hval⟩ := exit_of_lt hs hi
      rw [hsi] at hsi'
      cases hsi'
      rw [hrun] at hrun'
      cases hrun'
      have hr := hright i hi si ctx m1 event hsi hrun hget
      have hle := (after_retired hsi).1
      have hrun_le := run_retired hrun
      have hmod := Nat.mod_le i (2 ^ 64)
      omega
    refine ⟨?_, fun i hi si ctx m1 hsi hrun => (hcount i hi si ctx m1 hsi hrun).2⟩
    -- event `2^64` would carry the count 0
    by_contra hlt
    obtain ⟨si, ctx, m1, event, hsi, hrun, -⟩ := exit_of_lt hs (Nat.lt_of_not_le hlt)
    have hwrap := (hcount (2 ^ 64) (Nat.lt_of_not_le hlt) si ctx m1 hsi hrun).1
    rw [Nat.mod_self] at hwrap
    omega
  · rintro ⟨hk, hno⟩ i hi si ctx m1 event hsi hrun hget
    obtain ⟨-, -, -, event', -, -, hget', hval⟩ := exit_of_lt hs hi
    rw [hget] at hget'
    cases hget'
    rw [hval, Nat.mod_eq_of_lt (by omega), hno i hi si ctx m1 hsi hrun]
    exact (after_retired hsi).2 fun j hj => hno j (by omega)

end RecordEngine

/-! ## What the replayer checks -/

namespace ReplayEngine

/-- Whatever trace is replayed from `m`, an event is accepted only when as many instructions have
    been completed since as it says. -/
def PinsCount (w : Whp) (eng : ReplayEngine) (vcpu : Vcpu) (m : Machine) : Prop :=
  ∀ fuel events m1 lines, replayEvents w eng fuel events m = .ok (m1, lines) →
    ∀ event m2, AcceptsAt w eng vcpu event m1 m2 →
      retired vcpu m2 = retired vcpu m + event.instructionCount.toNat

/-- However often the guest is resumed from `m`, it gets to no exit that can be stepped over. -/
def NeverAccepts (w : Whp) (vcpu : Vcpu) (m : Machine) : Prop :=
  ∀ t, Relation.ReflTransGen (Resumes w vcpu) m t → ∀ ev u ctx t', RunsOn w vcpu ev t u →
    VmRunner.run w vcpu u = .ok (ctx, t') → OwnExit w vcpu ctx t' ev →
    ∀ t'', stepOver w vcpu ev ctx t' ≠ .ok t''

/-- On a guest that never gets to an exit it could step over, to move is to resume. -/
theorem resumes_of_moves {m t : Machine} (hno : NeverAccepts w vcpu m)
    (h : Relation.ReflTransGen (Moves w vcpu) m t) : Relation.ReflTransGen (Resumes w vcpu) m t := by
  induction h with
  | refl => exact .refl
  | tail _ hstep ih =>
    rcases hstep with hres | ⟨ev, u, ctx, m1, hpast, hrun, hown, hover⟩
    · exact ih.tail hres
    · exact absurd hover (hno _ ih ev u ctx m1 hpast hrun hown _)

/-- **The replayer pins events to their counts** exactly on a guest on which it accepts none. -/
theorem pinsCount_iff (heng : eng.activeVcpu = .ok vcpu) (m : Machine) :
    PinsCount w eng vcpu m ↔ NeverAccepts w vcpu m := by
  constructor
  · intro hpin t hreach ev u ctx t' hpast hrun hown t'' hstep
    obtain ⟨fuel, events, lines, hreplay⟩ := replays_of_moves heng
      (Relation.ReflTransGen.mono (p := Moves w vcpu) (fun _ _ h => Or.inl h) m t hreach)
    -- the same exit is accepted for an event that says 0 and for one that says 1
    have haccept : ∀ count : U64, retired vcpu t' = retired vcpu m + count.toNat := fun count =>
      hpin fuel events t lines hreplay ⟨count, ev⟩ t'
        ⟨u, ctx, t'', (skips_iff heng).mpr hpast, hrun, hown, hstep⟩
    have h0 := haccept 0
    have h1 := haccept 1
    simp at h0 h1
    omega
  · rintro hno fuel events m1 lines hreplay event m2 ⟨u, ctx, m', hskip, hrun, hown, hstep⟩
    have hreach := resumes_of_moves hno (moves_of_replays heng events hreplay)
    exact absurd hstep
      (hno m1 hreach event.event u ctx m2 ((skips_iff heng).mp hskip) hrun hown m')

end ReplayEngine

/-! ## Both halves -/

end Vestigium

/-
  A TRIPWIRE — a guest on which every other trace leaves its mark.

  `Tripwire.whp evs start` is a hypervisor whose guest exits once for each event of `evs`, in order,
  and then halts.  Whenever it is resumed it compares the registers an engine can have touched with
  what they are when every exit so far has been handled as `evs` says (`expected`).  R15 counts the
  exits, and R14 says how things stand: as at the start on the way, `1` after the halt, `2` from the
  moment on that anything was amiss.

  The recorder comes out at the halt, with R14 = 1 (`record_ends`).  A replayer does so only if it is
  given the recorded payloads (`replay_ends`); but whatever it is given, RIP, RSP, RFLAGS and the
  control registers are those of the start at every exit, and nothing is ever stored.
-/
import Vestigium.Engine.Divergence
import Vestigium.Engine.Record

namespace Vestigium.Tripwire

open Vestigium.Loop

/-! ## The guest -/

/-- The exit that `ev` is logged for; CPUID and RDTSC are two bytes long. -/
def exitFor (ev : EventType) : ExitContext where
  exitReason :=
    match ev with
    | .cpuid _ _ _ _ => 4097
    | .rdtsc _ _ => 4099
    | .contextSwitch _ => 4
    | .syscall _ _ => 0
  bitfield := 2
  gpa := 0

/-- The exit of a halt. -/
def halted : ExitContext := ⟨8, 1, 0⟩

/-- RCX at the exit for `ev`: a VMCALL has the thread that yields there. -/
def rcxFor (start : RegFile) : EventType → RegVal
  | .contextSwitch tid => ofReg64 (tid.setWidth 64)
  | _ => start .rcx

/-- The registers at exit number `k`, which is for `ev`. -/
def atExit (start : RegFile) (k : Nat) (ev : EventType) : RegFile :=
  Function.update (Function.update start .r15 (ofReg64 (BitVec.ofNat 64 (k + 1)))) .rcx
    (rcxFor start ev)

/-- The registers at a halt: those of the start, with a mark in R14. -/
def marked (start : RegFile) (mark : U64) : RegFile := Function.update start .r14 (ofReg64 mark)

/-- The registers after `k` exits, handled as the events say. -/
def expected (evs : List EventType) (start : RegFile) : Nat → Option RegFile
  | 0 => some start
  | k + 1 => (evs[k]?).map fun ev => handled ev (exitFor ev) (atExit start k ev)

/-- What an engine can have touched, and the two registers the guest keeps its own state in. -/
def watched : List Reg := [.rax, .rbx, .rcx, .rdx, .rip, .r14, .r15]

/-- The watched registers are as in `e`. -/
def Meets (regs e : RegFile) : Prop := ∀ r ∈ watched, regs r = e r

instance (regs e : RegFile) : Decidable (Meets regs e) := inferInstanceAs (Decidable (∀ _ ∈ _, _))

/-- How many exits there have been. -/
def count (regs : RegFile) : Nat := (reg64 (regs .r15)).toNat

/-- One run. -/
def step (evs : List EventType) (start regs : RegFile) : ExitContext × RegFile :=
  match expected evs start (count regs) with
  | none => (halted, marked start 2)
  | some e =>
    if Meets regs e then
      match evs[count regs]? with
      | some ev => (exitFor ev, atExit start (count regs) ev)
      | none => (halted, marked start 1)
    else (halted, marked start 2)

/-- The hypervisor; no call of it fails. -/
def whp (evs : List EventType) (start : RegFile) : Whp where
  reset := fun _ => 0
  fault _ := none
  run _ regs _ := .ok ⟨(step evs start regs).1, (step evs start regs).2, [], 0⟩

/-- A start that the guest can be watched from. -/
structure Fresh (start : RegFile) : Prop where
  r14 : start .r14 = ofReg64 0
  r15 : start .r15 = ofReg64 0

/-- Something was amiss: the watched registers are not what they are after any number of exits. -/
def Tripped (evs : List EventType) (start regs : RegFile) : Prop :=
  ∀ k e, expected evs start k = some e → ¬ Meets regs e

variable {evs : List EventType} {start : RegFile}

/-! ## One run -/

theorem handled_of_unpaid {ev : EventType} {ctx : ExitContext} {regs : RegFile} {r : Reg}
    (hrip : r ≠ .rip) (hpay : r ∉ (payload ev).1) : handled ev ctx regs r = regs r := by
  rw [handled, Function.update_of_ne hrip, RegFile.write_of_notMem _ _ _ hpay]

/-- R14 and R15 are the guest's own. -/
theorem handled_own {ev : EventType} {ctx : ExitContext} {regs : RegFile} {r : Reg}
    (hr : r = .r14 ∨ r = .r15) : handled ev ctx regs r = regs r := by
  refine handled_of_unpaid ?_ ?_
  · rcases hr with rfl | rfl <;> decide
  · rcases hr with rfl | rfl <;> cases ev <;> simp [payload]

theorem atExit_r14 (k : Nat) (ev : EventType) : atExit start k ev .r14 = start .r14 := by
  simp [atExit]

theorem atExit_r15 (k : Nat) (ev : EventType) :
    atExit start k ev .r15 = ofReg64 (BitVec.ofNat 64 (k + 1)) := by
  simp [atExit]

theorem expected_r14 (hs : Fresh start) : ∀ {k : Nat} {e : RegFile},
    expected evs start k = some e → e .r14 = ofReg64 0
  | 0, e, h => by
    cases h
    exact hs.r14
  | k + 1, e, h => by
    obtain ⟨ev, -, rfl⟩ := Option.map_eq_some_iff.mp h
    rw [handled_own (.inl rfl), atExit_r14, hs.r14]

theorem expected_r15 (hs : Fresh start) : ∀ {k : Nat} {e : RegFile},
    expected evs start k = some e → e .r15 = ofReg64 (BitVec.ofNat 64 k)
  | 0, e, h => by
    cases h
    exact hs.r15
  | k + 1, e, h => by
    obtain ⟨ev, -, rfl⟩ := Option.map_eq_some_iff.mp h
    rw [handled_own (.inr rfl), atExit_r15]

theorem le_length_of_expected : ∀ {k : Nat} {e : RegFile}, expected evs start k = some e →
    k ≤ evs.length
  | 0, _, _ => Nat.zero_le _
  | k + 1, e, h => by
    obtain ⟨ev, hev, -⟩ := Option.map_eq_some_iff.mp h
    exact (List.getElem?_eq_some_iff.mp hev).1

/-- The count tells the numbers of exits apart. -/
theorem count_of_r15 {k : Nat} {regs : RegFile} (hk : k < 2 ^ 64)
    (h : regs .r15 = ofReg64 (BitVec.ofNat 64 k)) : count regs = k := by
  rw [count, h, reg64_ofReg64, BitVec.toNat_ofNat, Nat.mod_eq_of_lt hk]

/-- As expected, the guest goes on to its next exit, or halts. -/
theorem step_expected (hs : Fresh start) (hlen : evs.length < 2 ^ 64) {k : Nat} {e : RegFile}
    (h : expected evs start k = some e) : step evs start e =
      match evs[k]? with
      | some ev => (exitFor ev, atExit start k ev)
      | none => (halted, marked start 1) := by
  have hk := le_length_of_expected h
  rw [step, count_of_r15 (by omega) (expected_r15 hs h), h]
  exact if_pos fun _ _ => rfl

theorem step_tripped {regs : RegFile} (h : Tripped evs start regs) :
    step evs start regs = (halted, marked start 2) := by
  unfold step
  split
  · rfl
  · rename_i e he
    rw [if_neg (h _ e he)]

/-- What is fixed by the start at every exit. -/
theorem step_frame (evs : List EventType) (start regs : RegFile) {r : Reg} (h14 : r ≠ .r14)
    (h15 : r ≠ .r15) (hrcx : r ≠ .rcx) : (step evs start regs).2 r = start r := by
  have hmark : ∀ mark, marked start mark r = start r := fun mark => Function.update_of_ne h14 _ _
  unfold step
  split
  · exact hmark 2
  · split
    · split
      · dsimp only
        rw [atExit, Function.update_of_ne hrcx, Function.update_of_ne h15]
      · exact hmark 1
    · exact hmark 2

/-! ## What trips the guest -/

theorem tripped_marked (hs : Fresh start) {mark : U64} (h : mark ≠ 0) :
    Tripped evs start (marked start mark) := by
  intro k e he hmeets
  have h14 := hmeets .r14 (by decide)
  rw [marked, Function.update_self, expected_r14 hs he] at h14
  exact h (by simpa using congrArg reg64 h14)

/-- With `k + 1` exits behind it, the guest compares with what it expects after `k + 1` exits. -/
theorem tripped_of_ne (hs : Fresh start) (hlen : evs.length < 2 ^ 64) {k : Nat} {ev : EventType}
    (hev : evs[k]? = some ev) {regs : RegFile}
    (h15 : regs .r15 = ofReg64 (BitVec.ofNat 64 (k + 1)))
    (hne : ∃ r ∈ watched, regs r ≠ handled ev (exitFor ev) (atExit start k ev) r) :
    Tripped evs start regs := by
  intro j e he hmeets
  have hk := (List.getElem?_eq_some_iff.mp hev).1
  have hj : count e = j := count_of_r15 (by have := le_length_of_expected he; omega)
    (expected_r15 hs he)
  have hj' : count e = k + 1 := by
    refine count_of_r15 (by omega) ?_
    rw [← hmeets .r15 (by decide), h15]
  obtain rfl : j = k + 1 := hj.symm.trans hj'
  rw [expected, hev] at he
  cases he
  obtain ⟨r, hr, hne⟩ := hne
  exact hne (hmeets r hr)

/-- An exit that is left as it is: RIP is still at the instruction. -/
theorem tripped_atExit (hs : Fresh start) (hlen : evs.length < 2 ^ 64) {k : Nat} {ev : EventType}
    (hev : evs[k]? = some ev) : Tripped evs start (atExit start k ev) := by
  refine tripped_of_ne hs hlen hev (atExit_r15 k ev) ⟨.rip, by decide, fun h => ?_⟩
  have hrip := congrArg reg64 h
  rw [reg64_handled_rip] at hrip
  have hlen : (lengthOf ev (exitFor ev)).setWidth 64 ≠ (0 : U64) := by
    cases ev <;> simp only [lengthOf, exitFor] <;> decide
  exact hlen (by simpa using hrip)

/-- An exit that is handled as some other event of its kind: the payload is not the expected one. -/
theorem tripped_handled (hs : Fresh start) (hlen : evs.length < 2 ^ 64) {k : Nat} {ev ev' : EventType}
    (hev : evs[k]? = some ev) {w : Whp} {vcpu : Vcpu} {m : Machine}
    (hregs : (m.vps vcpu.index).regs = atExit start k ev)
    (hown : OwnExit w vcpu (exitFor ev) m ev') (hne : ev' ≠ ev) :
    Tripped evs start (handled ev' (exitFor ev) (atExit start k ev)) := by
  refine tripped_of_ne hs hlen hev (by rw [handled_own (.inr rfl), atExit_r15]) ?_
  by_contra hall
  push Not at hall
  have h : ∀ r ∈ watched, reg64 (handled ev' (exitFor ev) (atExit start k ev) r) =
      reg64 (handled ev (exitFor ev) (atExit start k ev) r) := fun r hr => congrArg reg64 (hall r hr)
  refine hne ?_
  cases ev' with
  | syscall rax ws => exact hown.elim
  | cpuid eax ebx ecx edx =>
    cases ev with
    | cpuid eax' ebx' ecx' edx' =>
      have ha := h .rax (by decide)
      have hb := h .rbx (by decide)
      have hc := h .rcx (by decide)
      have hd := h .rdx (by decide)
      simp [handled, payload, RegFile.write] at ha hb hc hd
      have hinj : ∀ x y : U32, x.setWidth 64 = y.setWidth 64 → x = y := fun x y hxy => by
        simpa using congrArg (BitVec.setWidth 32) hxy
      rw [hinj _ _ ha, hinj _ _ hb, hinj _ _ hc, hinj _ _ hd]
    | _ => cases hown
  | rdtsc rax rdx =>
    cases ev with
    | rdtsc rax' rdx' =>
      have ha := h .rax (by decide)
      have hd := h .rdx (by decide)
      simp [handled, payload, RegFile.write] at ha hd
      rw [ha, hd]
    | _ => cases hown
  | contextSwitch tid =>
    cases ev with
    | contextSwitch tid' =>
      rw [hown.2.2, threadId, hregs, atExit, Function.update_self, rcxFor, reg64_ofReg64]
      simp
    | _ => cases hown.1

/-! ## Machines -/

section Machines

variable {m₀ : Machine}

/-- `m` is `m₀` with registers `regs`, and whatever ghost. -/
def OnTop (m₀ : Machine) (regs : RegFile) (m : Machine) : Prop :=
  ∃ done, m = m₀.setVp 0 ⟨regs, done⟩

theorem OnTop.regs {regs : RegFile} {m : Machine} (h : OnTop m₀ regs m) : (m.vps 0).regs = regs := by
  obtain ⟨done, rfl⟩ := h
  rw [Machine.setVp_vps_self]

theorem OnTop.host {regs : RegFile} {m : Machine} (h : OnTop m₀ regs m) : m.host = m₀.host := by
  obtain ⟨done, rfl⟩ := h
  rfl

theorem OnTop.setVp {regs regs' : RegFile} {m : Machine} (h : OnTop m₀ regs m) (done : Nat) :
    OnTop m₀ regs' (m.setVp 0 ⟨regs', done⟩) := by
  obtain ⟨done', rfl⟩ := h
  exact ⟨done, Machine.setVp_setVp _ _ _ _⟩

theorem OnTop.run (evs : List EventType) (start : RegFile) {regs : RegFile} {m : Machine} (h : OnTop m₀ regs m) :
    ∃ m', VmRunner.run (whp evs start) ⟨0⟩ m = .ok ((step evs start regs).1, m') ∧
      OnTop m₀ (step evs start regs).2 m' := by
  have hregs := h.regs
  refine ⟨_, VmRunner.run_eq_ok.mpr ⟨⟨_, _, [], 0⟩, rfl, by rw [hregs], rfl⟩, ?_⟩
  rw [VmRunner.ran_of_silent rfl, hregs]
  exact h.setVp _

theorem OnTop.stepOver (evs : List EventType) (start : RegFile) {regs : RegFile} {m : Machine}
    (h : OnTop m₀ regs m) (ev : EventType) (ctx : ExitContext) : ∃ m', Vestigium.stepOver (whp evs start) ⟨0⟩ ev ctx m = .ok m' ∧
      OnTop m₀ (handled ev ctx regs) m' := by
  refine ⟨_, stepOver_of_noFault (fun _ => rfl) ⟨0⟩ ev ctx m, ?_⟩
  rw [h.regs]
  exact h.setVp _

/-- The exit for an event is that event's own. -/
theorem ownExit_exitFor (evs : List EventType) {sim : SimAnswers} {k : Nat} {ev : EventType} {m : Machine}
    (hev : RecordEngine.Loggable sim k ev) (hm : OnTop m₀ (atExit start k ev) m) :
    OwnExit (whp evs start) ⟨0⟩ (exitFor ev) m ev := by
  cases ev with
  | syscall rax ws => exact hev
  | cpuid eax ebx ecx edx => exact rfl
  | rdtsc rax rdx => exact rfl
  | contextSwitch tid =>
    refine ⟨rfl, rfl, ?_⟩
    rw [threadId, hm.regs, atExit, Function.update_self, rcxFor, reg64_ofReg64]
    simp

/-! ## Recording the guest -/

/-- After `k` exits the recorder has logged the first `k` events, and the guest is as expected. -/
theorem after_expected {sim : SimAnswers} (hs : Fresh start) (hlen : evs.length < 2 ^ 64)
    (hrec : RecordEngine.Recordable sim evs) {m : Machine} (hm : OnTop m₀ start m) :
    ∀ k ≤ evs.length, ∃ s e, RecordEngine.after (whp evs start) sim ⟨0⟩ k m = some s ∧
      s.logger.events.map (·.event) = evs.take k ∧ expected evs start k = some e ∧
      OnTop m₀ e s.machine
  | 0, _ => ⟨RecordEngine.start m, start, rfl, rfl, rfl, hm⟩
  | k + 1, hk => by
    obtain ⟨s, e, hafter, hlog, he, hon⟩ := after_expected hs hlen hrec hm k (Nat.le_of_succ_le hk)
    have hev : evs[k]? = some evs[k] := List.getElem?_eq_getElem hk
    have hcount : s.logger.events.length = k := (RecordEngine.after_length hafter).1
    obtain ⟨m1, hrun, hon1⟩ := hon.run evs start
    rw [step_expected hs hlen he, hev] at hrun hon1
    obtain ⟨m2, hstep, hon2⟩ := hon1.stepOver evs start evs[k] (exitFor evs[k])
    have hown := ownExit_exitFor evs (hrec k _ hev) hon1
    refine ⟨RecordEngine.logged s evs[k] m2, _, RecordEngine.after_succ.mpr ⟨s, hafter,
      RecordEngine.body_eq_again.mpr ⟨_, m1, evs[k], hrun, ?_, hstep, rfl⟩⟩, ?_, ?_, hon2⟩
    · rw [hcount]
      exact RecordEngine.answers_of_loggable hown (hrec k _ hev)
    · rw [RecordEngine.logged, TraceLogger.logEvent, List.map_append, hlog]
      exact List.take_append_getElem hk
    · rw [expected, hev]
      rfl

/-- **The guest, recorded**: its events, and the mark of a clean halt. -/
theorem record_ends {sim : SimAnswers} (hs : Fresh start) (hlen : evs.length < 2 ^ 64)
    (hrec : RecordEngine.Recordable sim evs) {m : Machine} (hm : OnTop m₀ start m) :
    ∃ stop, RecordEngine.run (whp evs start) sim ⟨0⟩ (evs.length + 1) m = .ok stop ∧
      stop.state.logger.events.map (·.event) = evs ∧
      OnTop m₀ (marked start 1) stop.state.machine := by
  obtain ⟨s, e, hafter, hlog, he, hon⟩ := after_expected hs hlen hrec hm evs.length (Nat.le_refl _)
  obtain ⟨m1, hrun, hon1⟩ := hon.run evs start
  rw [step_expected hs hlen he, List.getElem?_eq_none (Nat.le_refl _)] at hrun hon1
  rw [List.take_length] at hlog
  exact ⟨⟨{ s with machine := m1 }, halted, _⟩, RecordEngine.run_eq_ok.mpr ⟨evs.length,
    Nat.lt_succ_self _, s, hafter, RecordEngine.body_eq_ok.mpr ⟨halted, m1, hrun, rfl⟩⟩, hlog, hon1⟩

/-! ## Replaying it -/

variable {eng : ReplayEngine}

/-- Once tripped, the guest halts: the event is reported, and the mark stays. -/
theorem replayEvent_of_tripped (hs : Fresh start) (heng : eng.activeVcpu = .ok ⟨0⟩) {regs : RegFile}
    (ht : Tripped evs start regs) {m : Machine} (hm : OnTop m₀ regs m) (passes : Nat)
    (event : TraceEvent) : ∃ m' line regs',
      ReplayEngine.replayEvent (whp evs start) eng (passes + 1) event m = .ok (m', line) ∧
      OnTop m₀ regs' m' ∧ Tripped evs start regs' := by
  obtain ⟨m1, hrun, hon⟩ := hm.run evs start
  rw [step_tripped ht] at hrun hon
  exact ⟨m1, _, _, ReplayEngine.replayEvent_of_leave
    ((ReplayEngine.body_eq_ok heng).mpr ⟨halted, m1, hrun, rfl⟩) passes, hon,
    tripped_marked hs (by decide)⟩

/-- As expected, the guest stays so only if the event is the next of its own. -/
theorem replayEvent_of_expected (hs : Fresh start) (hlen : evs.length < 2 ^ 64)
    (heng : eng.activeVcpu = .ok ⟨0⟩) {k : Nat} {e : RegFile} (he : expected evs start k = some e)
    {m : Machine} (hm : OnTop m₀ e m) (passes : Nat) (event : TraceEvent) : ∃ m' line regs',
      ReplayEngine.replayEvent (whp evs start) eng (passes + 2) event m = .ok (m', line) ∧
      OnTop m₀ regs' m' ∧ (Tripped evs start regs' ∨
        evs[k]? = some event.event ∧ expected evs start (k + 1) = some regs') := by
  obtain ⟨m1, hrun, hon⟩ := hm.run evs start
  rw [step_expected hs hlen he] at hrun hon
  cases hev : evs[k]? with
  | none =>
    -- the guest is at its end, the trace is not
    rw [hev] at hrun hon
    exact ⟨m1, _, _, ReplayEngine.replayEvent_of_leave
      ((ReplayEngine.body_eq_ok heng).mpr ⟨halted, m1, hrun, rfl⟩) _, hon,
      .inl (tripped_marked hs (by decide))⟩
  | some ev =>
    rw [hev] at hrun hon
    obtain ⟨p, hp⟩ := ReplayEngine.onExit_of_noFault (w := whp evs start) (fun _ => rfl) heng event
      (exitFor ev) m1
    have hbody := (ReplayEngine.body_eq_ok heng).mpr ⟨exitFor ev, m1, hrun, hp⟩
    rcases ReplayEngine.onExit_cases heng hp with ⟨hown, m2, hstep, rfl⟩ | ⟨-, rfl⟩ | ⟨line, -, rfl⟩
    · -- handled: with the expected payload or another one
      obtain ⟨m3, hstep', hon'⟩ := hon.stepOver evs start event.event (exitFor ev)
      obtain rfl : m2 = m3 := Except.ok.inj (hstep.symm.trans hstep')
      refine ⟨m2, _, _, ReplayEngine.replayEvent_of_leave hbody _, hon', ?_⟩
      by_cases hsame : event.event = ev
      · rw [expected, hev, hsame]
        exact .inr ⟨rfl, rfl⟩
      · exact .inl (tripped_handled hs hlen hev hon.regs hown hsame)
    · -- ignored: the next run is one from an exit nobody has handled
      rw [ReplayEngine.replayEvent_of_again hbody]
      obtain ⟨m2, line, regs', hreplay, hon', ht⟩ := replayEvent_of_tripped hs heng
        (tripped_atExit hs hlen hev) hon passes event
      exact ⟨m2, line, regs', hreplay, hon', .inl ht⟩
    · exact ⟨m1, _, _, ReplayEngine.replayEvent_of_leave hbody _, hon,
        .inl (tripped_atExit hs hlen hev)⟩

theorem replayEvents_of_tripped (hs : Fresh start) (heng : eng.activeVcpu = .ok ⟨0⟩) (passes : Nat) :
    ∀ (events : List TraceEvent) {regs : RegFile} {m : Machine}, Tripped evs start regs →
      OnTop m₀ regs m → ∃ m' lines regs',
        ReplayEngine.replayEvents (whp evs start) eng (passes + 1) events m = .ok (m', lines) ∧
        OnTop m₀ regs' m' ∧ Tripped evs start regs'
  | [], regs, m, ht, hm => ⟨m, [], regs, rfl, hm, ht⟩
  | event :: events, regs, m, ht, hm => by
    obtain ⟨m1, line, regs1, hone, hm1, ht1⟩ := replayEvent_of_tripped hs heng ht hm passes event
    obtain ⟨m', lines, regs', hrest, hm', ht'⟩ := replayEvents_of_tripped hs heng passes events ht1 hm1
    exact ⟨m', line :: lines, regs', ReplayEngine.replayEvents_cons.mpr
      ⟨m1, line, lines, hone, hrest, rfl⟩, hm', ht'⟩

/-- A trace that does not trip the guest is a piece of its own. -/
theorem replayEvents_of_expected (hs : Fresh start) (hlen : evs.length < 2 ^ 64)
    (heng : eng.activeVcpu = .ok ⟨0⟩) (passes : Nat) :
    ∀ (events : List TraceEvent) {k : Nat} {e : RegFile} {m : Machine},
      expected evs start k = some e → OnTop m₀ e m → ∃ m' lines regs',
        ReplayEngine.replayEvents (whp evs start) eng (passes + 2) events m = .ok (m', lines) ∧
        OnTop m₀ regs' m' ∧ (Tripped evs start regs' ∨
          events.map (·.event) = (evs.drop k).take events.length ∧
            expected evs start (k + events.length) = some regs')
  | [], k, e, m, he, hm => ⟨m, [], e, rfl, hm, .inr ⟨rfl, he⟩⟩
  | event :: events, k, e, m, he, hm => by
    obtain ⟨m1, line, regs1, hone, hm1, hnext⟩ :=
      replayEvent_of_expected hs hlen heng he hm passes event
    rcases hnext with ht | ⟨hev, he1⟩
    · obtain ⟨m', lines, regs', hrest, hm', ht'⟩ :=
        replayEvents_of_tripped hs heng (passes + 1) events ht hm1
      exact ⟨m', line :: lines, regs', ReplayEngine.replayEvents_cons.mpr
        ⟨m1, line, lines, hone, hrest, rfl⟩, hm', .inl ht'⟩
    · obtain ⟨m', lines, regs', hrest, hm', hend⟩ :=
        replayEvents_of_expected hs hlen heng passes events he1 hm1
      refine ⟨m', line :: lines, regs', ReplayEngine.replayEvents_cons.mpr
        ⟨m1, line, lines, hone, hrest, rfl⟩, hm', hend.imp_right ?_⟩
      rintro ⟨hsame, he'⟩
      obtain ⟨hlt, hget⟩ := List.getElem?_eq_some_iff.mp hev
      refine ⟨?_, by rwa [List.length_cons, Nat.add_comm events.length, ← Nat.add_assoc]⟩
      rw [List.map_cons, hsame, List.drop_eq_getElem_cons hlt, hget, List.length_cons,
        List.take_succ_cons]

/-- **The guest, replayed** with any events and run once more: the mark of a clean halt is there only
    if the events bear the payloads of its own, and all but R14, R15 and RCX is as at the start. -/
theorem replay_ends (hs : Fresh start) (hlen : evs.length < 2 ^ 64)
    (heng : eng.activeVcpu = .ok ⟨0⟩) {m : Machine} (hm : OnTop m₀ start m) (passes : Nat)
    (events : List TraceEvent) : ∃ m' lines ctx m'' regs,
      ReplayEngine.replayEvents (whp evs start) eng (passes + 2) events m = .ok (m', lines) ∧
      VmRunner.run (whp evs start) ⟨0⟩ m' = .ok (ctx, m'') ∧ OnTop m₀ regs m'' ∧
      (∀ r, r ≠ .r14 → r ≠ .r15 → r ≠ .rcx → regs r = start r) ∧
      (reg64 (regs .r14) = 1 → events.map (·.event) = evs) := by
  obtain ⟨m', lines, regs', hreplay, hm', hend⟩ :=
    replayEvents_of_expected hs hlen heng passes events (k := 0) rfl hm
  obtain ⟨m'', hrun, hm''⟩ := hm'.run evs start
  refine ⟨m', lines, _, m'', _, hreplay, hrun, hm'',
    fun r h14 h15 hrcx => step_frame evs start regs' h14 h15 hrcx, fun hmark => ?_⟩
  rcases hend with ht | ⟨hsame, he⟩
  · rw [step_tripped ht] at hmark
    dsimp only at hmark
    rw [marked, Function.update_self] at hmark
    nomatch hmark
  · rw [List.drop_zero] at hsame
    rw [Nat.zero_add] at he
    rw [step_expected hs hlen he] at hmark
    cases hev : evs[events.length]? with
    | none => rw [hsame, List.take_of_length_le (List.getElem?_eq_none_iff.mp hev)]
    | some ev =>
      -- some exits are still to come, and R14 is as at the start
      rw [hev] at hmark
      dsimp only at hmark
      rw [atExit_r14, hs.r14] at hmark
      nomatch hmark

end Machines

end Vestigium.Tripwire

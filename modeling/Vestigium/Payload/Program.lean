/-
  PAYLOADS — guests as programs.

  The engines know a guest by its exits alone.  The payloads in the repository are bare-metal Rust
  programs, and what such a program does between two exits is nobody's business but its own: it can
  be given as a tree, `Program`, that branches on what RDTSC and CPUID answer and ends in a HLT.
  `Step` is its meaning, one intercepted instruction after the other.

  That a platform runs the COMPILED payload as its source says is an assumption on the compiler and
  the processor, `Hosts`: each step of the program is an exchange of the guest.  The other direction
  follows (`Hosts.step_of_exchange`), so program and guest have the same traces, and what the engines
  do with the guest can be read off the source (`payload_preserved`): recording comes to the HLT with
  the trace the source gives under the recorder's answers, and a trace replays without a word iff it
  is one the source can give under SOME answers.
-/
import Vestigium.Engine.Exchange

namespace Vestigium.Payload

open Vestigium.Loop Vestigium.Labelled

/-- A bare-metal payload from where it is to its HLT. -/
inductive Program where
  /-- RDTSC, and how it goes on with RAX and RDX. -/
  | rdtsc (next : U64 → U64 → Program)
  /-- CPUID with `leaf` in EAX, and how it goes on with EAX, EBX, ECX and EDX. -/
  | cpuid (leaf : U32) (next : U32 → U32 → U32 → U32 → Program)
  /-- VMCALL with these values in RAX and RCX. -/
  | vmcall (rax rcx : U64) (next : Program)
  /-- HLT, with this value in RAX if the program has put one there. -/
  | hlt (rax : Option U64)

/-- One intercepted instruction, and the event that answers it.  VMCALL gets no answer: the event
    says what was in ECX. -/
inductive Step : Program → EventType → Program → Prop
  | rdtsc (next : U64 → U64 → Program) (rax rdx : U64) :
      Step (.rdtsc next) (.rdtsc rax rdx) (next rax rdx)
  | cpuid (leaf : U32) (next : U32 → U32 → U32 → U32 → Program) (eax ebx ecx edx : U32) :
      Step (.cpuid leaf next) (.cpuid eax ebx ecx edx) (next eax ebx ecx edx)
  | vmcall (rax rcx : U64) (next : Program) :
      Step (.vmcall rax rcx next) (.contextSwitch (rcx.setWidth 32)) next

/-! ## A payload under given answers -/

namespace Program

/-- The trace of the payload, from event number `k` on, if RDTSC and CPUID are answered by `sim`. -/
def events (sim : SimAnswers) : Program → Nat → List EventType
  | .rdtsc next, k =>
    .rdtsc (sim.rdtsc k).1 (sim.rdtsc k).2 ::
      events sim (next (sim.rdtsc k).1 (sim.rdtsc k).2) (k + 1)
  | .cpuid _ next, k =>
    .cpuid (sim.cpuid k).1 (sim.cpuid k).2.1 (sim.cpuid k).2.2.1 (sim.cpuid k).2.2.2 ::
      events sim (next (sim.cpuid k).1 (sim.cpuid k).2.1 (sim.cpuid k).2.2.1 (sim.cpuid k).2.2.2)
        (k + 1)
  | .vmcall _ rcx next, k => .contextSwitch (rcx.setWidth 32) :: events sim next (k + 1)
  | .hlt _, _ => []

/-- What it has in RAX when it halts, if it has put something there. -/
def result (sim : SimAnswers) : Program → Nat → Option U64
  | .rdtsc next, k => result sim (next (sim.rdtsc k).1 (sim.rdtsc k).2) (k + 1)
  | .cpuid _ next, k =>
    result sim (next (sim.cpuid k).1 (sim.cpuid k).2.1 (sim.cpuid k).2.2.1 (sim.cpuid k).2.2.2)
      (k + 1)
  | .vmcall _ _ next, k => result sim next (k + 1)
  | .hlt rax, _ => rax

/-- The trace leads to the HLT. -/
theorem path_events (sim : SimAnswers) (p : Program) (k : Nat) :
    Path Step p (p.events sim k) (.hlt (p.result sim k)) := by
  induction p generalizing k with
  | rdtsc next ih => exact .cons (.rdtsc next _ _) (ih _ _ (k + 1))
  | cpuid leaf next ih => exact .cons (.cpuid leaf next _ _ _ _) (ih _ _ _ _ (k + 1))
  | vmcall rax rcx next ih => exact .cons (.vmcall rax rcx next) (ih (k + 1))
  | hlt rax => exact .nil _

/-- Each of its events is one the recorder with these answers logs at that position. -/
theorem loggable_events (sim : SimAnswers) (p : Program) (k : Nat) :
    Admits (fun i => RecordEngine.Loggable sim (k + i)) (p.events sim k) := by
  have hcons : ∀ {ev : EventType} {evs : List EventType} {k : Nat}, RecordEngine.Loggable sim k ev →
      Admits (fun i => RecordEngine.Loggable sim (k + 1 + i)) evs →
      Admits (fun i => RecordEngine.Loggable sim (k + i)) (ev :: evs) := by
    intro ev evs k hev hevs i ev' hi
    cases i with
    | zero =>
      cases hi
      exact hev
    | succ i =>
      show RecordEngine.Loggable sim (k + (i + 1)) ev'
      rw [show k + (i + 1) = k + 1 + i by omega]
      exact hevs i ev' hi
  induction p generalizing k with
  | rdtsc next ih => exact hcons rfl (ih _ _ (k + 1))
  | cpuid leaf next ih => exact hcons rfl (ih _ _ _ _ (k + 1))
  | vmcall rax rcx next ih => exact hcons trivial (ih (k + 1))
  | hlt rax => exact admits_nil _

end Program

/-! ## Platforms that run a payload -/

/-- On `w`, a guest on `vcpu` that is `At` a payload runs it: each of its steps is an exchange, and at
    its HLT the guest halts, with the payload's value in RAX. -/
structure Hosts (w : Whp) (vcpu : Vcpu) (At : Program → Machine → Prop) : Prop where
  exchange : ∀ {p m ev p'}, At p m → Step p ev p' → ∃ m', Exchange w vcpu m ev m' ∧ At p' m'
  halts : ∀ {rax m}, At (.hlt rax) m → ∃ ctx t, Ends w vcpu m ctx t ∧ ctx.exitReason = 8 ∧
    ∀ x ∈ rax, reg64 ((t.vps vcpu.index).regs .rax) = x

variable {w : Whp} {vcpu : Vcpu} {eng : ReplayEngine} {At : Program → Machine → Prop} {p : Program}
  {m m' : Machine}

/-- The exit decides the event, but for what an answer says. -/
theorem step_of_own {ctx : ExitContext} {ev ev' : EventType} {p' : Program} (h : Step p ev p')
    (hown : OwnExit w vcpu ctx m ev) (hown' : OwnExit w vcpu ctx m ev') : ∃ p'', Step p ev' p'' := by
  cases h with
  | rdtsc next =>
    have hr : ctx.exitReason = 4099 := hown
    cases ev' with
    | syscall rax ws => exact hown'.elim
    | cpuid eax ebx ecx edx => exact absurd (hr.symm.trans hown') (by decide)
    | rdtsc rax rdx => exact ⟨_, .rdtsc next rax rdx⟩
    | contextSwitch tid => exact absurd (hr.symm.trans hown'.1) (by decide)
  | cpuid leaf next =>
    have hr : ctx.exitReason = 4097 := hown
    cases ev' with
    | syscall rax ws => exact hown'.elim
    | cpuid eax ebx ecx edx => exact ⟨_, .cpuid leaf next eax ebx ecx edx⟩
    | rdtsc rax rdx => exact absurd (hr.symm.trans hown') (by decide)
    | contextSwitch tid => exact absurd (hr.symm.trans hown'.1) (by decide)
  | vmcall rax rcx next =>
    obtain ⟨hr, -, htid⟩ := hown
    cases ev' with
    | syscall rax ws => exact hown'.elim
    | cpuid eax ebx ecx edx => exact absurd (hr.symm.trans hown') (by decide)
    | rdtsc rax rdx => exact absurd (hr.symm.trans hown') (by decide)
    | contextSwitch tid =>
      -- the thread is the one in ECX, for either event
      rw [hown'.2.2, ← htid]
      exact ⟨_, .vmcall rax rcx _⟩

/-- Every payload that has not halted has a step. -/
theorem exists_step (p : Program) : (∃ rax, p = .hlt rax) ∨ ∃ ev p', Step p ev p' := by
  cases p with
  | rdtsc next => exact .inr ⟨_, _, .rdtsc next 0 0⟩
  | cpuid leaf next => exact .inr ⟨_, _, .cpuid leaf next 0 0 0 0⟩
  | vmcall rax rcx next => exact .inr ⟨_, _, .vmcall rax rcx next⟩
  | hlt rax => exact .inl ⟨rax, rfl⟩

/-- **The guest does nothing else**: an exchange of a hosted guest is a step of its payload. -/
theorem Hosts.step_of_exchange (h : Hosts w vcpu At) {ev : EventType} (hm : At p m)
    (hex : Exchange w vcpu m ev m') : ∃ p', Step p ev p' ∧ At p' m' := by
  rcases exists_step p with ⟨rax, rfl⟩ | ⟨ev₀, p₀, hstep₀⟩
  · -- a halted guest takes no exit that belongs to an event
    obtain ⟨ctx, t, ⟨hrun, ⟨h1, h2, h3⟩, -⟩, -⟩ := h.halts hm
    obtain ⟨ctx', m1, hrun', hown, -⟩ := hex
    obtain ⟨rfl, rfl⟩ := Prod.mk.inj (Except.ok.inj (hrun.symm.trans hrun'))
    rcases hown.reason with hr | hr | hr
    · exact absurd hr h1
    · exact absurd hr h2
    · exact absurd hr h3
  · obtain ⟨m₀, ⟨ctx, m1, hrun, hown, -⟩, -⟩ := h.exchange hm hstep₀
    have hown' : OwnExit w vcpu ctx m1 ev := by
      obtain ⟨ctx', m1', hrun', hown', -⟩ := hex
      obtain ⟨rfl, rfl⟩ := Prod.mk.inj (Except.ok.inj (hrun.symm.trans hrun'))
      exact hown'
    obtain ⟨p', hstep⟩ := step_of_own hstep₀ hown hown'
    obtain ⟨m'', hex', hat⟩ := h.exchange hm hstep
    obtain rfl := Exchange.deterministic w vcpu _ _ _ _ hex hex'
    exact ⟨p', hstep, hat⟩

/-- The guest follows its payload, … -/
theorem Hosts.follows (h : Hosts w vcpu At) {evs : List EventType} {p' : Program} (hm : At p m)
    (hpath : Path Step p evs p') : ∃ m', Path (Exchange w vcpu) m evs m' ∧ At p' m' := by
  refine Path.simulate ?_ hm hpath
  intro p m ev p' hat hstep
  exact h.exchange hat hstep

/-- … and the payload its guest. -/
theorem Hosts.followed (h : Hosts w vcpu At) {evs : List EventType} (hm : At p m)
    (hpath : Path (Exchange w vcpu) m evs m') : ∃ p', Path Step p evs p' ∧ At p' m' := by
  refine Path.simulate (R := fun m p => At p m) ?_ hm hpath
  intro m p ev m' hat hex
  exact h.step_of_exchange hat hex

/-! ## A platform that runs payloads without answers -/

/-- A payload that yields, with these thread ids one after the other, and goes on with `last`. -/
def yields (tids : List U64) (last : Program) : Program := tids.foldr (.vmcall 0x1) last

/-- Nothing it does depends on an answer. -/
theorem events_yields (sim : SimAnswers) (tids : List U64) (rax : Option U64) (k : Nat) :
    (yields tids (.hlt rax)).events sim k = (tids.map fun tid => .contextSwitch (tid.setWidth 32)) ∧
      (yields tids (.hlt rax)).result sim k = rax := by
  induction tids generalizing k with
  | nil => exact ⟨rfl, rfl⟩
  | cons tid tids ih =>
    obtain ⟨hevents, hresult⟩ := ih (k + 1)
    refine ⟨?_, hresult⟩
    rw [List.map_cons, ← hevents]
    rfl

/-- It has but one trace. -/
theorem path_yields_iff {tids : List U64} {rax : Option U64} {evs : List EventType} :
    (∃ p, Path Step (yields tids (.hlt rax)) evs p) ↔
      evs <+: tids.map fun tid => .contextSwitch (tid.setWidth 32) := by
  induction tids generalizing evs with
  | nil =>
    rw [List.map_nil, List.prefix_nil]
    constructor
    · rintro ⟨p, hpath⟩
      cases hpath with
      | nil => rfl
      | cons hstep _ => cases hstep
    · rintro rfl
      exact ⟨_, .nil _⟩
  | cons tid tids ih =>
    cases evs with
    | nil => exact ⟨fun _ => List.nil_prefix, fun _ => ⟨_, .nil _⟩⟩
    | cons ev evs =>
      rw [List.map_cons, List.cons_prefix_cons, ← ih]
      constructor
      · rintro ⟨p, hpath⟩
        obtain ⟨u, hstep, hrest⟩ := Path.cons_iff.mp hpath
        cases hstep
        exact ⟨rfl, p, hrest⟩
      · rintro ⟨rfl, p, hrest⟩
        exact ⟨p, .cons (.vmcall _ _ _) hrest⟩

/-- A platform that has such a payload instead of a processor: RIP, divided by the length of VMCALL,
    says how many yields are behind it. -/
def scripted (tids : List U64) (rax : U64) : Whp where
  reset _ := 0
  fault _ := none
  run _ regs _ :=
    match tids[(reg64 (regs .rip)).toNat / 3]? with
    | some tid => .ok ⟨⟨4, 0, 0⟩, Function.update regs .rcx (ofReg64 tid), [], 0⟩
    | none => .ok ⟨⟨8, 1, 0⟩, Function.update regs .rax (ofReg64 rax), [], 1⟩

/-- Where it is in the payload. -/
def Reading (tids : List U64) (rax : U64) (p : Program) (m : Machine) : Prop :=
  ∃ done rest, tids = done ++ rest ∧ p = yields rest (.hlt (some rax)) ∧
    reg64 ((m.vps 0).regs .rip) = BitVec.ofNat 64 (3 * done.length)

theorem scripted_index {tids done : List U64} (hlt : 3 * tids.length < 2 ^ 64) {rest : List U64}
    (htids : tids = done ++ rest) : (BitVec.ofNat 64 (3 * done.length)).toNat / 3 = done.length := by
  have hlen : tids.length = done.length + rest.length := by rw [htids, List.length_append]
  rw [BitVec.toNat_ofNat, Nat.mod_eq_of_lt (by omega), Nat.mul_div_cancel_left _ (by decide)]

theorem scripted_hosts {tids : List U64} (rax : U64) (hlt : 3 * tids.length < 2 ^ 64) :
    Hosts (scripted tids rax) ⟨0⟩ (Reading tids rax) where
  exchange := by
    rintro p m ev p' ⟨done, rest, htids, rfl, hrip⟩ hstep
    cases rest with
    | nil => cases hstep
    | cons tid rest =>
      cases hstep
      have hget : tids[(reg64 ((m.vps 0).regs .rip)).toNat / 3]? = some tid := by
        rw [hrip, scripted_index hlt htids, htids, List.getElem?_append_right (Nat.le_refl _),
          Nat.sub_self]
        rfl
      have hrun : VmRunner.run (scripted tids rax) ⟨0⟩ m = .ok (⟨4, 0, 0⟩, VmRunner.ran ⟨0⟩ m
          ⟨⟨4, 0, 0⟩, Function.update (m.vps 0).regs .rcx (ofReg64 tid), [], 0⟩) := by
        refine VmRunner.run_eq_ok.mpr ⟨_, ?_, rfl, rfl⟩
        simp only [scripted, hget]
      refine ⟨_, ⟨_, _, hrun, ⟨rfl, rfl, ?_⟩, stepOver_of_noFault (fun _ => rfl) _ _ _ _⟩, done ++ [tid],
        rest, ?_, rfl, ?_⟩
      · rw [threadId, VmRunner.ran_regs]
        dsimp only
        rw [Function.update_self, reg64_ofReg64]
      · rw [htids, List.append_assoc]
        rfl
      · rw [Machine.setVp_vps_self, reg64_handled_rip, VmRunner.ran_regs]
        dsimp only
        rw [Function.update_of_ne (by decide), hrip, List.length_append, List.length_singleton,
          Nat.mul_add, BitVec.ofNat_add]
        rfl
  halts := by
    rintro rax' m ⟨done, rest, htids, hp, hrip⟩
    cases rest with
    | cons tid rest => cases hp
    | nil =>
      obtain rfl : rax' = some rax := Program.hlt.inj hp
      have hget : tids[(reg64 ((m.vps 0).regs .rip)).toNat / 3]? = none := by
        rw [hrip, scripted_index hlt htids, htids, List.append_nil]
        exact List.getElem?_eq_none (Nat.le_refl _)
      have hrun : VmRunner.run (scripted tids rax) ⟨0⟩ m = .ok (⟨8, 1, 0⟩, VmRunner.ran ⟨0⟩ m
          ⟨⟨8, 1, 0⟩, Function.update (m.vps 0).regs .rax (ofReg64 rax), [], 1⟩) := by
        refine VmRunner.run_eq_ok.mpr ⟨_, ?_, rfl, rfl⟩
        simp only [scripted, hget]
      refine ⟨_, _, ⟨hrun, by decide, fun _ => rfl⟩, rfl, ?_⟩
      rintro x hx
      cases hx
      rw [VmRunner.ran_regs]
      dsimp only
      rw [Function.update_self, reg64_ofReg64]

/-- It exits for yields and the halt alone. -/
theorem scripted_precise (tids : List U64) (rax : U64) :
    VmRunner.PreciseExits (scripted tids rax) ⟨0⟩ := by
  intro m m' ctx hrun hreason
  obtain ⟨r, hr, rfl, -⟩ := VmRunner.run_eq_ok.mp hrun
  simp only [scripted] at hr
  split at hr <;> cases hr <;> rcases hreason with h | h <;> cases h

/-- The platform before the first yield. -/
def scriptedMachine : Machine where
  vps _ := ⟨fun _ => 0, 0⟩
  maps := []
  host _ := []
  extendedVmExits := 0

theorem scripted_reading (tids : List U64) (rax : U64) :
    Reading tids rax (yields tids (.hlt (some rax))) scriptedMachine := ⟨[], tids, rfl, rfl, rfl⟩

/-! ## Recording and replaying a payload -/

/-- Recording a hosted payload comes to its HLT. -/
theorem Hosts.recorded (h : Hosts w vcpu At) (hm : At p m) (sim : SimAnswers) :
    ∃ stop, (∀ fuel, (p.events sim 0).length < fuel → RecordEngine.run w sim vcpu fuel m = .ok stop) ∧
      stop.state.logger.events = numbered (p.events sim 0) ∧
      ∃ rax, stop.line = .guestHalted rax ∧ ∀ x ∈ p.result sim 0, rax = x := by
  obtain ⟨u, hpath, hu⟩ := h.follows hm (p.path_events sim 0)
  obtain ⟨ctx, t, hends, hhalt, hrax⟩ := h.halts hu
  have hrecordable : RecordEngine.Recordable sim (p.events sim 0) := by
    intro k ev hev
    have hlog : RecordEngine.Loggable sim (0 + k) ev := p.loggable_events sim 0 k ev hev
    rwa [Nat.zero_add] at hlog
  have hafter : RecordEngine.after w sim vcpu (p.events sim 0).length m =
      some (RecordEngine.having (p.events sim 0) u) :=
    RecordEngine.after_iff.mpr ⟨_, rfl, hrecordable, hpath, rfl⟩
  obtain ⟨stop, hbody, hexit, hmachine⟩ := RecordEngine.body_leaves.mpr
    (show Ends w vcpu (RecordEngine.having (p.events sim 0) u).machine ctx t from hends)
  refine ⟨stop, fun fuel hfuel => RecordEngine.run_eq_ok.mpr ⟨_, hfuel, _, hafter, hbody⟩, ?_,
    reg64 ((t.vps vcpu.index).regs .rax), ?_, fun x hx => hrax x hx⟩
  · rw [(RecordEngine.body_eq_leave hbody).2.2]
    rfl
  · rw [(RecordEngine.line_of_leave hbody).1, RecordEngine.endLine, hexit, hmachine,
      if_neg (by omega), if_pos hhalt]

/-- Where intercepts are precise, a hosted payload replays its own traces without a word, and no
    others. -/
theorem Hosts.replays_iff (h : Hosts w vcpu At) (heng : eng.activeVcpu = .ok vcpu)
    (hp : VmRunner.PreciseExits w vcpu) (hm : At p m) (events : List TraceEvent) (passes : Nat) :
    (∃ m', eng.replayEvents w (passes + 1) events m = .ok (m', List.replicate events.length none)) ↔
      ∃ p', Path Step p (events.map (·.event)) p' := by
  simp only [ReplayEngine.replayEvents_silent_iff heng hp passes]
  constructor
  · rintro ⟨m', hpath⟩
    obtain ⟨p', hpath', -⟩ := h.followed hm hpath
    exact ⟨p', hpath'⟩
  · rintro ⟨p', hpath⟩
    obtain ⟨m', hpath', -⟩ := h.follows hm hpath
    exact ⟨m', hpath'⟩

/-- **The engines preserve a payload's meaning.**  Wherever it is hosted,

    * the recorder, whatever it answers, comes to the payload's HLT after exactly the events its
      source gives under these answers, numbered from `0` on, and prints the value it has put in RAX;
    * a trace replays without a word iff it is one the source gives under SOME answers, and if it
      leads to the HLT, the guest then halts with the value that the source has put in RAX for them. -/
theorem payload_preserved (heng : eng.activeVcpu = .ok vcpu) (hp : VmRunner.PreciseExits w vcpu)
    (h : Hosts w vcpu At) (hm : At p m) :
    (∀ sim, ∃ stop, (∀ fuel, (p.events sim 0).length < fuel →
        RecordEngine.run w sim vcpu fuel m = .ok stop) ∧
      stop.state.logger.events = numbered (p.events sim 0) ∧
      ∃ rax, stop.line = .guestHalted rax ∧ ∀ x ∈ p.result sim 0, rax = x) ∧
    ∀ events passes,
      ((∃ m', eng.replayEvents w (passes + 1) events m =
          .ok (m', List.replicate events.length none)) ↔
        ∃ p', Path Step p (events.map (·.event)) p') ∧
      ∀ rax, Path Step p (events.map (·.event)) (.hlt rax) → ∃ m' ctx t,
        eng.replayEvents w (passes + 1) events m = .ok (m', List.replicate events.length none) ∧
        VmRunner.run w vcpu m' = .ok (ctx, t) ∧ ctx.exitReason = 8 ∧
        ∀ x ∈ rax, reg64 ((t.vps vcpu.index).regs .rax) = x := by
  refine ⟨h.recorded hm, fun events passes => ⟨h.replays_iff heng hp hm events passes, ?_⟩⟩
  intro rax hpath
  obtain ⟨m', hpath', hat⟩ := h.follows hm hpath
  obtain ⟨ctx, t, ⟨hrun, -, -⟩, hhalt, hrax⟩ := h.halts hat
  exact ⟨m', ctx, t, ReplayEngine.replayEvents_of_path heng hpath' passes, hrun, hhalt, hrax⟩

/-- Two yields and a halt, recorded; and the first of the yields, replayed. -/
theorem payload_preserved_sample :
    (∃ stop, RecordEngine.run (scripted [5, 7] 42) simulated ⟨0⟩ 3 scriptedMachine = .ok stop ∧
      stop.state.logger.events = [⟨0, .contextSwitch 5⟩, ⟨1, .contextSwitch 7⟩] ∧
      stop.line = .guestHalted 42) ∧
    ∃ m', ((ReplayEngine.new 0).registerVcpu 0 ⟨0⟩).replayEvents (scripted [5, 7] 42) 1
      [⟨0, .contextSwitch 5⟩] scriptedMachine = .ok (m', [none]) := by
  obtain ⟨hrecord, hreplay⟩ := payload_preserved (ReplayEngine.activeVcpu_registerVcpu 0 ⟨0⟩)
    (scripted_precise [5, 7] 42) (scripted_hosts 42 (by decide)) (scripted_reading [5, 7] 42)
  constructor
  · obtain ⟨stop, hrun, hevents, rax, hline, hrax⟩ := hrecord simulated
    obtain rfl : rax = 42 := hrax 42 rfl
    exact ⟨stop, hrun 3 (by decide), hevents, hline⟩
  · exact (hreplay [⟨0, .contextSwitch 5⟩] 0).1.mpr ⟨_, .cons (.vmcall _ _ _) (.nil _)⟩

end Vestigium.Payload

/-
  TWO RUNS OF AN ENGINE — what its outcome depends on.

  An engine reads the vCPU's registers and runs the vCPU; everything else of a machine, it never
  looks at.  `Bisimilar w vcpu R` says of a relation `R` between machines that related ones are alike
  in this and stay related; then recorder and replayer do the same on both, ERRORS AND ENDLESS LOOPS
  INCLUDED (`RecordEngine.run_agree`, `ReplayEngine.replayEvents_agree`).

  Two relations of this kind are used.  `GuestEq` (`Vestigium.Engine.Lockstep`) is all that the guest
  can see; `Rearranged` is stronger, one process whose second-level map lists its ranges in another
  order.
-/
import Vestigium.Engine.Lockstep
import Vestigium.Lib.Relational

namespace Vestigium

open Vestigium.Loop Vestigium.Relational

/-- Machines related by `R` have the same registers, and stay related under all that an engine does. -/
structure Bisimilar (w : Whp) (vcpu : Vcpu) (R : Machine → Machine → Prop) : Prop where
  regs : ∀ {m n}, R m n → (m.vps vcpu.index).regs = (n.vps vcpu.index).regs
  run : ∀ {m n}, R m n → Agree (fun x y => x.1 = y.1 ∧ R x.2 y.2) (VmRunner.run w vcpu m)
    (VmRunner.run w vcpu n)
  wrote : ∀ {m n}, R m n → ∀ names values, R (vcpu.wrote names values m) (vcpu.wrote names values n)
  retire : ∀ {m n}, R m n → R (m.retire vcpu.index) (n.retire vcpu.index)

/-! ## What the guest can see -/

/-- Where machines have the same registers, memory and intercepts, the hypervisor runs alike. -/
theorem run_agree {w : Whp} {vcpu : Vcpu} {R : Machine → Machine → Prop} {m n : Machine}
    (hregs : (m.vps vcpu.index).regs = (n.vps vcpu.index).regs) (hram : m.ram = n.ram)
    (hexits : m.extendedVmExits = n.extendedVmExits)
    (hran : ∀ r, R (VmRunner.ran vcpu m r) (VmRunner.ran vcpu n r)) :
    Agree (fun x y => x.1 = y.1 ∧ R x.2 y.2) (VmRunner.run w vcpu m) (VmRunner.run w vcpu n) := by
  rw [VmRunner.run, VmRunner.run, hregs, hram, hexits]
  cases w.run n.extendedVmExits (n.vps vcpu.index).regs n.ram with
  | error e => exact .error (Fail.whp e)
  | ok r => exact .ok ⟨rfl, hran r⟩

theorem Bisimilar.guestEq (w : Whp) (vcpu : Vcpu) : Bisimilar w vcpu (GuestEq vcpu) where
  regs h := h.regs
  run h := run_agree h.regs h.ram h.extendedVmExits h.ran
  wrote h := h.wrote
  retire h := h.retire

/-! ## One process, ranges in another order -/

/-- The same but for the order of the ranges, which backs no address differently. -/
structure Rearranged (m n : Machine) : Prop where
  vps : m.vps = n.vps
  host : m.host = n.host
  extendedVmExits : m.extendedVmExits = n.extendedVmExits
  backing : ∀ a, m.backing a = n.backing a

namespace Rearranged

variable {m n : Machine}

theorem ram (h : Rearranged m n) : m.ram = n.ram := by
  funext a
  rw [Machine.ram, Machine.ram, h.backing, h.host]

theorem setVp (h : Rearranged m n) (i : U32) (vp : Vp) : Rearranged (m.setVp i vp) (n.setVp i vp) where
  vps := by rw [Machine.setVp, Machine.setVp, h.vps]
  host := h.host
  extendedVmExits := h.extendedVmExits
  backing := h.backing

theorem withHost (h : Rearranged m n) (host : HostMem) :
    Rearranged (m.withHost host) (n.withHost host) where
  vps := h.vps
  host := rfl
  extendedVmExits := h.extendedVmExits
  backing := h.backing

theorem store1 (h : Rearranged m n) (x : Nat × U8) : Rearranged (m.store1 x) (n.store1 x) := by
  rw [Machine.store1, Machine.store1, h.backing]
  cases n.backing x.1 with
  | none => exact h
  | some mp =>
    dsimp only
    split
    · rw [h.host]
      exact h.withHost _
    · exact h

theorem store (h : Rearranged m n) (ws : List (Nat × U8)) : Rearranged (m.store ws) (n.store ws) := by
  induction ws generalizing m n with
  | nil => exact h
  | cons x ws ih => exact ih (h.store1 x)

theorem ran (h : Rearranged m n) (vcpu : Vcpu) (r : VpRun) :
    Rearranged (VmRunner.ran vcpu m r) (VmRunner.ran vcpu n r) := by
  rw [VmRunner.ran, VmRunner.ran, h.vps]
  exact (h.store r.writes).setVp _ _

end Rearranged

theorem Bisimilar.rearranged (w : Whp) (vcpu : Vcpu) : Bisimilar w vcpu Rearranged where
  regs h := by rw [h.vps]
  run h := run_agree (by rw [h.vps]) h.ram h.extendedVmExits (h.ran vcpu)
  wrote {m n} h names values := by
    rw [Vcpu.wrote, Vcpu.wrote, h.vps]
    exact h.setVp _ _
  retire {m n} h := by
    rw [Machine.retire, Machine.retire, h.vps]
    exact h.setVp _ _

/-! ## The operations both engines use -/

namespace Bisimilar

variable {w : Whp} {vcpu : Vcpu} {R : Machine → Machine → Prop} {m n : Machine}

theorem getRegisters (hR : Bisimilar w vcpu R) (h : R m n) (names : List Reg) :
    Agree (fun x y => x = y) (vcpu.getRegisters w names m) (vcpu.getRegisters w names n) := by
  rw [Vcpu.getRegisters, Vcpu.getRegisters, hR.regs h]
  exact .refl (fun _ => rfl) _

theorem setRegisters (hR : Bisimilar w vcpu R) (h : R m n) (names : List Reg) (values : List RegVal) :
    Agree R (vcpu.setRegisters w names values m) (vcpu.setRegisters w names values n) := by
  unfold Vcpu.setRegisters
  split
  · dsimp only
    rw [hR.regs h]
    refine Agree.bind (R := Eq) (.refl (fun _ => rfl) _) fun _ _ _ => .ok ?_
    have hwrote := hR.wrote h names values
    rw [Vcpu.wrote, Vcpu.wrote, hR.regs h] at hwrote
    exact hwrote
  · exact .error _

theorem stepRip (hR : Bisimilar w vcpu R) (h : R m n) (len : U8) :
    Agree R (Vestigium.stepRip w vcpu len m) (Vestigium.stepRip w vcpu len n) := by
  refine (hR.getRegisters h _).bind ?_
  rintro values _ rfl
  exact (hR.setRegisters h _ _).bind fun m1 n1 h1 => .ok (hR.retire h1)

end Bisimilar

/-! ## The recorder -/

namespace RecordEngine

/-- The states of two recorders on related machines that have logged the same. -/
structure StatesAgree (R : Machine → Machine → Prop) (s t : RecordState) : Prop where
  machine : R s.machine t.machine
  logger : s.logger = t.logger
  instructionCount : s.instructionCount = t.instructionCount

/-- They have stopped at the same exit, with the same line printed. -/
structure StopsAgree (R : Machine → Machine → Prop) (s t : Stopped) : Prop where
  state : StatesAgree R s.state t.state
  exit : s.exit = t.exit
  line : s.line = t.line

variable {w : Whp} {sim : SimAnswers} {vcpu : Vcpu} {R : Machine → Machine → Prop}

theorem onExit_agree (hR : Bisimilar w vcpu R) {s t : RecordState} (hs : StatesAgree R s t)
    {m n : Machine} (h : R m n) (ctx : ExitContext) :
    Agree (PassAgree (StatesAgree R) (StopsAgree R)) (onExit w sim vcpu s ctx m)
      (onExit w sim vcpu t ctx n) := by
  obtain ⟨ms, logger, count⟩ := s
  obtain ⟨mt, logger', count'⟩ := t
  obtain ⟨-, hlog, hcount⟩ := hs
  obtain rfl : logger = logger' := hlog
  obtain rfl : count = count' := hcount
  have hstop : ∀ line, PassAgree (StatesAgree R) (StopsAgree R)
      (.leave ⟨⟨m, logger, count⟩, ctx, line⟩) (.leave ⟨⟨n, logger, count⟩, ctx, line⟩) :=
    fun line => .leave ⟨⟨h, rfl, rfl⟩, rfl, rfl⟩
  unfold onExit
  dsimp only
  split
  · exact .ok (hstop _)
  split
  · -- a halt: RAX is read
    refine (hR.getRegisters h _).bind ?_
    rintro values _ rfl
    exact .ok (hstop _)
  split
  · refine (hR.setRegisters h _ _).bind fun m1 n1 h1 => ?_
    exact (hR.stepRip h1 _).bind fun m2 n2 h2 => .ok (.again ⟨h2, rfl, rfl⟩)
  split
  · refine (hR.setRegisters h _ _).bind fun m1 n1 h1 => ?_
    exact (hR.stepRip h1 _).bind fun m2 n2 h2 => .ok (.again ⟨h2, rfl, rfl⟩)
  split
  · refine (hR.getRegisters h _).bind ?_
    rintro values _ rfl
    exact (hR.stepRip h _).bind fun m1 n1 h1 => .ok (.again ⟨h1, rfl, rfl⟩)
  · exact .ok (hstop _)

theorem body_agree (hR : Bisimilar w vcpu R) {s t : RecordState} (hs : StatesAgree R s t) :
    Agree (PassAgree (StatesAgree R) (StopsAgree R)) (body w sim vcpu s) (body w sim vcpu t) := by
  refine (hR.run hs.machine).bind ?_
  rintro ⟨ctx, m⟩ ⟨ctx', n⟩ ⟨hctx, h⟩
  obtain rfl : ctx = ctx' := hctx
  exact onExit_agree hR hs h ctx

/-- **Two recordings.**  On related machines the recorder logs the same events and stops at the same
    exit, or fails with the same error, or runs on just as long. -/
theorem run_agree (hR : Bisimilar w vcpu R) {m n : Machine} (h : R m n) (fuel : Nat) :
    Agree (StopsAgree R) (run w sim vcpu fuel m) (run w sim vcpu fuel n) :=
  Agree.loop (fun _ _ hs => body_agree hR hs) _ (show StatesAgree R (start m) (start n) from
    ⟨h, rfl, rfl⟩) fuel

end RecordEngine

/-! ## The replayer -/

namespace ReplayEngine

variable {w : Whp} {eng : ReplayEngine} {vcpu : Vcpu} {R : Machine → Machine → Prop}

theorem injectEvent_agree (hR : Bisimilar w vcpu R) (heng : eng.activeVcpu = .ok vcpu)
    {m n : Machine} (h : R m n) (event : TraceEvent) :
    Agree R (injectEvent w eng event m) (injectEvent w eng event n) := by
  rw [injectEvent, injectEvent, bind_of_ok heng, bind_of_ok heng]
  cases event.event with
  | syscall rax ws =>
    have hwrites : ∀ (ws : List (U64 × Codec.Vec U8)) (m : Machine), writeAll ws m = .ok m := by
      intro ws
      induction ws with
      | nil => exact fun m => rfl
      | cons x ws ih => exact ih
    refine (hR.setRegisters h _ _).bind fun m1 n1 h1 => ?_
    rw [hwrites, hwrites]
    exact .ok h1
  | contextSwitch tid => exact .ok h
  | _ => exact hR.setRegisters h _ _

theorem onExit_agree (hR : Bisimilar w vcpu R) (heng : eng.activeVcpu = .ok vcpu) {m n : Machine}
    (h : R m n) (event : TraceEvent) (ctx : ExitContext) :
    Agree (PassAgree R fun x y => R x.1 y.1 ∧ x.2 = y.2) (onExit w eng event vcpu ctx m)
      (onExit w eng event vcpu ctx n) := by
  have hconsume : ∀ len, Agree (PassAgree R fun x y => R x.1 y.1 ∧ x.2 = y.2)
      (injectEvent w eng event m >>= fun m => advanceRip w eng len m >>= fun m =>
        Except.ok (Pass.leave (m, (none : Option Line))))
      (injectEvent w eng event n >>= fun n => advanceRip w eng len n >>= fun n =>
        Except.ok (Pass.leave (n, (none : Option Line)))) := by
    intro len
    simp only [advanceRip_eq heng]
    exact (injectEvent_agree hR heng h event).bind fun m1 n1 h1 =>
      (hR.stepRip h1 len).bind fun m2 n2 h2 => .ok (.leave ⟨h2, rfl⟩)
  unfold onExit
  dsimp only
  split
  · -- a halt or a memory violation: RAX is read
    refine (hR.getRegisters h _).bind ?_
    rintro values _ rfl
    exact .ok (.leave ⟨h, rfl⟩)
  split
  · split
    · exact hconsume _
    · exact .ok (.again h)
  split
  · split
    · exact hconsume _
    · exact .ok (.again h)
  split
  · split
    · -- a VMCALL against a context switch: RCX is read
      refine (hR.getRegisters h _).bind ?_
      rintro values _ rfl
      split
      · exact hconsume _
      · exact .ok (.leave ⟨h, rfl⟩)
    · exact .ok (.leave ⟨h, rfl⟩)
  · exact .ok (.leave ⟨h, rfl⟩)

theorem body_agree (hR : Bisimilar w vcpu R) (heng : eng.activeVcpu = .ok vcpu) {m n : Machine}
    (h : R m n) (event : TraceEvent) :
    Agree (PassAgree R fun x y => R x.1 y.1 ∧ x.2 = y.2) (body w eng event m) (body w eng event n) := by
  rw [body, body, bind_of_ok heng, bind_of_ok heng]
  refine (hR.run h).bind ?_
  rintro ⟨ctx, m1⟩ ⟨ctx', n1⟩ ⟨hctx, h1⟩
  obtain rfl : ctx = ctx' := hctx
  exact onExit_agree hR heng h1 event ctx

/-- **Two replays.**  On related machines the replayer prints the same about every event, or fails
    with the same error, or goes round just as long. -/
theorem replayEvents_agree (hR : Bisimilar w vcpu R) (heng : eng.activeVcpu = .ok vcpu)
    {m n : Machine} (h : R m n) (fuel : Nat) (events : List TraceEvent) :
    Agree (fun x y => R x.1 y.1 ∧ x.2 = y.2) (replayEvents w eng fuel events m)
      (replayEvents w eng fuel events n) := by
  induction events generalizing m n with
  | nil => exact .ok ⟨h, rfl⟩
  | cons event events ih =>
    rw [replayEvents, replayEvents]
    have hone : Agree (fun x y => R x.1 y.1 ∧ x.2 = y.2) (replayEvent w eng fuel event m)
        (replayEvent w eng fuel event n) :=
      Agree.loop (fun _ _ h => body_agree hR heng h event) _ h fuel
    refine hone.bind ?_
    rintro ⟨m1, line⟩ ⟨n1, line'⟩ ⟨h1, hline⟩
    obtain rfl : line = line' := hline
    refine (ih h1).bind ?_
    rintro ⟨m2, lines⟩ ⟨n2, lines'⟩ ⟨h2, hlines⟩
    obtain rfl : lines = lines' := hlines
    exact .ok ⟨h2, rfl⟩

end ReplayEngine

/-! ## The engines see what the guest sees -/

/-- The sample machine looks the same with something in a buffer that is not mapped. -/
theorem SampleCpu.guestEq_alloc (code bytes : Codec.Bytes) :
    GuestEq ⟨0⟩ (SampleCpu.machine code) ((SampleCpu.machine code).alloc .stack bytes) := by
  have hmap : ∀ mp ∈ (SampleCpu.machine code).maps, mp = ⟨0, code.length, .image, 7⟩ :=
    fun mp hmp => List.mem_singleton.mp hmp
  have hone : Machine.Unaliased (SampleCpu.machine code).maps := by
    intro mp hmp mp' hmp' _
    rw [hmap mp hmp, hmap mp' hmp']
  refine ⟨rfl, ?_, rfl, hone, hone⟩
  funext a
  unfold Machine.ram
  rw [show ((SampleCpu.machine code).alloc .stack bytes).backing a =
    (SampleCpu.machine code).backing a from rfl]
  cases hb : (SampleCpu.machine code).backing a with
  | none => rfl
  | some mp =>
    -- only the image is mapped
    obtain rfl := hmap mp (Machine.backing_mem hb).1
    rfl

end Vestigium

/-
  HANDLING AN INTERCEPTED EXIT — the one operation both engines implement.

  Recorder and replayer are separate code, but what either does with an exit it consumes is meant to
  be the same operation: put an event's payload into the virtual processor's registers and step RIP
  over the instruction.  `stepOver` is that operation, stated once and independently of both;
  `OwnExit` says which exits belong to which event.  `Vestigium.Engine.Record` and
  `Vestigium.Engine.Replay` each prove that their code computes it, and every result that compares
  the two engines goes through here.

  Arithmetic on RIP wraps: the program is built and run with `--release`, where `+=` on a `u64` does.
-/
import Vestigium.Trace.Format
import Vestigium.Vmm.Regions
import Vestigium.Vmm.Vcpu

namespace Vestigium

open Vestigium.Loop (bind_eq_ok)

/-- What the two engines write to the console, with the data in it. -/
inductive Line where
  /-- "FATAL: EPT Memory Access Violation at GPA: …" -/
  | eptViolation (gpa : U64)
  /-- "Guest halted (…). Verification RAX: …" -/
  | guestHalted (rax : U64)
  /-- "Execution stopped. Unhandled VM exit reason: …" -/
  | unhandledExit (reason : Int)
  /-- "Replay mismatch: Expected thread …, got …" -/
  | threadMismatch (expected got : U32)
  /-- "Replay mismatch: Unexpected VMCALL execution." -/
  | unexpectedVmcall
deriving DecidableEq, Repr

/-! ## The operation -/

/-- RIP moved on by `len`. -/
def nextRip (rip : RegVal) (len : U8) : RegVal := withReg64 rip (reg64 rip + len.setWidth 64)

/-- Step `vcpu` over an instruction of length `len`. -/
def stepRip (w : Whp) (vcpu : Vcpu) (len : U8) (m : Machine) : Except Fail Machine := do
  let values ← vcpu.getRegisters w [.rip] m
  let m ← vcpu.setRegisters w [.rip] [nextRip (values.headD 0) len] m
  return m.retire vcpu.index

/-- The registers an event's payload goes to, and their values. -/
def payload : EventType → List Reg × List RegVal
  | .syscall rax _ => ([.rax], [ofReg64 rax])
  | .rdtsc rax rdx => ([.rax, .rdx], [ofReg64 rax, ofReg64 rdx])
  | .cpuid eax ebx ecx edx =>
    ([.rax, .rbx, .rcx, .rdx], [ofReg64 (eax.setWidth 64), ofReg64 (ebx.setWidth 64),
      ofReg64 (ecx.setWidth 64), ofReg64 (edx.setWidth 64)])
  | .contextSwitch _ => ([], [])

/-- Put an event's payload into the registers.  A context switch makes no call at all. -/
def inject (w : Whp) (vcpu : Vcpu) : EventType → Machine → Except Fail Machine
  | .contextSwitch _, m => .ok m
  | ev, m => vcpu.setRegisters w (payload ev).1 (payload ev).2 m

/-- The length of the intercepted instruction: VMCALL has three bytes, the others say. -/
def lengthOf : EventType → ExitContext → U8
  | .contextSwitch _, _ => 3
  | _, ctx => ctx.bitfield &&& 0x0F

/-- Handle an exit as event `ev`. -/
def stepOver (w : Whp) (vcpu : Vcpu) (ev : EventType) (ctx : ExitContext) (m : Machine) :
    Except Fail Machine := do
  let m ← inject w vcpu ev m
  stepRip w vcpu (lengthOf ev ctx) m

/-- The low half of RCX, which names the thread that yields. -/
def threadId (vcpu : Vcpu) (m : Machine) : U32 := (reg64 ((m.vps vcpu.index).regs .rcx)).setWidth 32

/-- Reading RCX succeeds. -/
def RcxReadable (w : Whp) (vcpu : Vcpu) (m : Machine) : Prop :=
  w.fault (.getRegisters vcpu.index [.rcx] (m.vps vcpu.index).regs) = none

/-- The exit `ctx`, taken in state `m`, is of the kind of event `ev`. -/
def OwnExit (w : Whp) (vcpu : Vcpu) (ctx : ExitContext) (m : Machine) : EventType → Prop
  | .cpuid _ _ _ _ => ctx.exitReason = 4097
  | .rdtsc _ _ => ctx.exitReason = 4099
  | .contextSwitch tid => ctx.exitReason = 4 ∧ RcxReadable w vcpu m ∧ tid = threadId vcpu m
  | .syscall _ _ => False

/-- Three exit reasons belong to events. -/
theorem OwnExit.reason {w : Whp} {vcpu : Vcpu} {ctx : ExitContext} {m : Machine} {ev : EventType}
    (h : OwnExit w vcpu ctx m ev) :
    ctx.exitReason = 4097 ∨ ctx.exitReason = 4099 ∨ ctx.exitReason = 4 := by
  cases ev with
  | syscall rax ws => exact h.elim
  | cpuid eax ebx ecx edx => exact .inl h
  | rdtsc rax rdx => exact .inr (.inl h)
  | contextSwitch tid => exact .inr (.inr h.1)

/-- The exit alone tells the length. -/
theorem OwnExit.lengthOf {w : Whp} {vcpu : Vcpu} {ctx : ExitContext} {m : Machine} {ev : EventType}
    (h : OwnExit w vcpu ctx m ev) : (lengthOf ev ctx).setWidth 64 =
      if ctx.exitReason = 4 then (3 : U64) else (ctx.bitfield &&& 0x0F).setWidth 64 := by
  cases ev with
  | syscall rax ws => exact h.elim
  | contextSwitch tid =>
    rw [if_pos h.1]
    rfl
  | cpuid eax ebx ecx edx =>
    have hr : ctx.exitReason = 4097 := h
    rw [if_neg (by omega)]
    rfl
  | rdtsc rax rdx =>
    have hr : ctx.exitReason = 4099 := h
    rw [if_neg (by omega)]
    rfl

/-! ## What it does to the machine -/

/-- The machine after stepping over an instruction of length `len`. -/
def stepped (vcpu : Vcpu) (len : U8) (m : Machine) : Machine :=
  (vcpu.wrote [.rip] [nextRip ((m.vps vcpu.index).regs .rip) len] m).retire vcpu.index

theorem stepRip_eq_ok {w : Whp} {vcpu : Vcpu} {len : U8} {m m' : Machine} :
    stepRip w vcpu len m = .ok m' ↔
      w.fault (.getRegisters vcpu.index [.rip] (m.vps vcpu.index).regs) = none ∧
        w.fault (.setRegisters vcpu.index [.rip] [nextRip ((m.vps vcpu.index).regs .rip) len]
          (m.vps vcpu.index).regs) = none ∧
        m' = stepped vcpu len m := by
  simp only [stepRip, bind_eq_ok, Vcpu.getRegisters_eq_ok, Vcpu.setRegisters_eq_ok, pure,
    Except.pure, Except.ok.injEq]
  constructor
  · rintro ⟨_, ⟨hget, rfl⟩, _, ⟨-, hset, rfl⟩, rfl⟩
    exact ⟨hget, hset, rfl⟩
  · rintro ⟨hget, hset, rfl⟩
    exact ⟨_, ⟨hget, rfl⟩, _, ⟨rfl, hset, rfl⟩, rfl⟩

/-- The machine after the payload of `ev` has been injected. -/
def injected (vcpu : Vcpu) (ev : EventType) (m : Machine) : Machine :=
  vcpu.wrote (payload ev).1 (payload ev).2 m

theorem inject_ok {w : Whp} {vcpu : Vcpu} {ev : EventType} {m m' : Machine}
    (h : inject w vcpu ev m = .ok m') : m' = injected vcpu ev m := by
  cases ev with
  | contextSwitch tid =>
    cases h
    exact (Machine.setVp_self _ _).symm
  | _ => exact (Vcpu.setRegisters_eq_ok.mp h).2.2

/-- Stepping over an exit: the payload is in, RIP is past the instruction. -/
theorem stepOver_ok {w : Whp} {vcpu : Vcpu} {ev : EventType} {ctx : ExitContext} {m m' : Machine}
    (h : stepOver w vcpu ev ctx m = .ok m') :
    m' = stepped vcpu (lengthOf ev ctx) (injected vcpu ev m) := by
  obtain ⟨m1, h1, h2⟩ := bind_eq_ok.mp h
  rw [(stepRip_eq_ok.mp h2).2.2, inject_ok h1]

/-- The registers once exit `ctx` has been handled as `ev`: the payload is in, RIP is past the
    instruction. -/
def handled (ev : EventType) (ctx : ExitContext) (regs : RegFile) : RegFile :=
  let regs := RegFile.write (payload ev).1 (payload ev).2 regs
  Function.update regs .rip (nextRip (regs .rip) (lengthOf ev ctx))

/-- No event carries RIP. -/
theorem reg64_handled_rip (ev : EventType) (ctx : ExitContext) (regs : RegFile) :
    reg64 (handled ev ctx regs .rip) = reg64 (regs .rip) + (lengthOf ev ctx).setWidth 64 := by
  rw [handled, Function.update_self, nextRip, reg64_withReg64,
    RegFile.write_of_notMem _ _ _ (by cases ev <;> simp [payload])]

theorem stepped_injected (vcpu : Vcpu) (ev : EventType) (ctx : ExitContext) (m : Machine) :
    stepped vcpu (lengthOf ev ctx) (injected vcpu ev m) = m.setVp vcpu.index
      ⟨handled ev ctx (m.vps vcpu.index).regs, (m.vps vcpu.index).retired + 1⟩ := by
  simp only [stepped, injected, Vcpu.wrote, Machine.retire, Machine.setVp_setVp,
    Machine.setVp_vps_self, RegFile.write, handled]

/-- RIP after an exit has been handled: on by the instruction's length, modulo `2^64`. -/
theorem stepOver_rip {w : Whp} {vcpu : Vcpu} {ev : EventType} {ctx : ExitContext} {m m' : Machine}
    (h : stepOver w vcpu ev ctx m = .ok m') :
    reg64 ((m'.vps vcpu.index).regs .rip) =
      reg64 ((m.vps vcpu.index).regs .rip) + (lengthOf ev ctx).setWidth 64 := by
  rw [stepOver_ok h, stepped_injected, Machine.setVp_vps_self, reg64_handled_rip]

/-- Ghost: one more instruction is done. -/
theorem stepOver_retired {w : Whp} {vcpu : Vcpu} {ev : EventType} {ctx : ExitContext}
    {m m' : Machine} (h : stepOver w vcpu ev ctx m = .ok m') :
    (m'.vps vcpu.index).retired = (m.vps vcpu.index).retired + 1 := by
  rw [stepOver_ok h, stepped_injected, Machine.setVp_vps_self]

/-- Where no call fails, every exit can be stepped over. -/
theorem stepOver_of_noFault {w : Whp} (hw : ∀ c, w.fault c = none) (vcpu : Vcpu) (ev : EventType)
    (ctx : ExitContext) (m : Machine) : stepOver w vcpu ev ctx m = .ok (m.setVp vcpu.index
      ⟨handled ev ctx (m.vps vcpu.index).regs, (m.vps vcpu.index).retired + 1⟩) := by
  have hinj : inject w vcpu ev m = .ok (injected vcpu ev m) := by
    cases ev with
    | contextSwitch tid => exact congrArg Except.ok (Machine.setVp_self _ _).symm
    | _ => exact Vcpu.setRegisters_eq_ok.mpr ⟨rfl, hw _, rfl⟩
  have hstep : stepRip w vcpu (lengthOf ev ctx) (injected vcpu ev m) =
      .ok (stepped vcpu (lengthOf ev ctx) (injected vcpu ev m)) :=
    stepRip_eq_ok.mpr ⟨hw _, hw _, rfl⟩
  rw [← stepped_injected]
  exact bind_eq_ok.mpr ⟨_, hinj, hstep⟩

/-! ## What both engines keep -/

/-- `P` is kept by a vCPU run and by stepping over an exit, which is all that an engine does to a
    machine. -/
structure Kept (w : Whp) (vcpu : Vcpu) (P : Machine → Prop) : Prop where
  run : ∀ {m m' ctx}, P m → VmRunner.run w vcpu m = .ok (ctx, m') → P m'
  stepOver : ∀ {m m' ev ctx}, P m → stepOver w vcpu ev ctx m = .ok m' → P m'

theorem stepOver_sameShape {w : Whp} {vcpu : Vcpu} {ev : EventType} {ctx : ExitContext}
    {m m' : Machine} (h : stepOver w vcpu ev ctx m = .ok m') : m.SameShape m' := by
  rw [stepOver_ok h]
  exact ⟨rfl, rfl, fun _ => rfl⟩

theorem run_sameShape {w : Whp} {vcpu : Vcpu} {ctx : ExitContext} {m m' : Machine}
    (h : VmRunner.run w vcpu m = .ok (ctx, m')) : m.SameShape m' := by
  obtain ⟨r, -, -, rfl⟩ := VmRunner.run_eq_ok.mp h
  exact (Machine.SameShape.store m r.writes).trans (Machine.SameShape.setVp _ _ _)

/-- Memory keeps its shape. -/
theorem Kept.sameShape (w : Whp) (vcpu : Vcpu) (m₀ : Machine) : Kept w vcpu m₀.SameShape where
  run h hrun := h.trans (run_sameShape hrun)
  stepOver h hstep := h.trans (stepOver_sameShape hstep)

end Vestigium

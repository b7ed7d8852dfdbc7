/-
  A SMALL CPU — a hypervisor the assumptions hold of.

  `SampleCpu.whp` fetches bytes at RIP from guest-physical memory (the program runs identity-mapped)
  and knows the instructions the payloads of this repository are made of: NOP, HLT, RDTSC, CPUID and
  VMCALL.  As on the real platform, RDTSC and CPUID exit when the partition asked for it, with RIP
  still at the instruction and its length in the low nibble of the exit's bit field; HLT exits behind
  itself; a fetch that hits no executable page is a memory-access exit; and everything else is an
  exception the guest has no handler for, so a triple fault.

  The results about it say that the hypotheses used elsewhere can all be met at once, and it serves
  as the concrete guest wherever a statement is tried on one.
-/
import Vestigium.Vmm.Vcpu

namespace Vestigium.SampleCpu

inductive Insn where
  | nop | hlt | rdtsc | cpuid
  /-- VMCALL, UD2 or anything else that faults: the exit is the same. -/
  | faulting
deriving DecidableEq, Repr

/-- The byte at `a`, if the guest may execute it. -/
def fetch (ram : Ram) (a : Nat) : Option U8 :=
  match ram a with
  | some (b, flags) => if canExecute flags then some b else none
  | none => none

/-- The instruction at `rip`, or a fetch violation. -/
def decode (ram : Ram) (rip : Nat) : Option Insn := do
  let b ← fetch ram rip
  if b = 0x90 then return .nop
  else if b = 0xF4 then return .hlt
  else if b = 0x0F then do
    let b' ← fetch ram (rip + 1)
    if b' = 0x31 then return .rdtsc
    else if b' = 0xA2 then return .cpuid
    else return .faulting
  else return .faulting

/-- Exit with `reason` after `done` instructions; `len` goes to the low nibble, CR8 to the high one. -/
def exit (reason : Int) (len : U8) (gpa : U64) (regs : RegFile) (done : Nat) : VpRun :=
  ⟨⟨reason, (reg64 (regs .cr8)).setWidth 8 <<< 4 ||| len, gpa⟩, regs, [], done⟩

/-- RIP moved on by `len`. -/
def skip (regs : RegFile) (len : U64) : RegFile :=
  Function.update regs .rip (ofReg64 (reg64 (regs .rip) + len))

/-- Run for at most `n` instructions, `done` of them completed; then the platform cancels the run. -/
def runFor (exits : U64) (ram : Ram) : Nat → Nat → RegFile → VpRun
  | 0, done, regs => exit 8193 0 0 regs done
  | n + 1, done, regs =>
    let rip := reg64 (regs .rip)
    match decode ram rip.toNat with
    | none => exit 1 0 rip regs done
    | some .nop => runFor exits ram n (done + 1) (skip regs 1)
    | some .hlt => exit 8 1 0 (skip regs 1) (done + 1)
    | some .rdtsc =>
      if exits.getLsbD 3 then exit 4099 2 0 regs done
      else runFor exits ram n (done + 1)
        (skip (RegFile.write [.rax, .rdx] [ofReg64 0, ofReg64 0] regs) 2)
    | some .cpuid =>
      if exits.getLsbD 0 then exit 4097 2 0 regs done
      else runFor exits ram n (done + 1) (skip (RegFile.write [.rax, .rbx, .rcx, .rdx]
        [ofReg64 0, ofReg64 0, ofReg64 0, ofReg64 0] regs) 2)
    | some .faulting => exit 4 0 0 regs done

/-- The hypervisor with this CPU; no call of it fails. -/
def whp : Whp where
  reset := fun _ => 0
  fault _ := none
  run exits regs ram := .ok (runFor exits ram 8 0 regs)

/-- A partition with intercepts configured whose processor 0 is about to execute `code` at `0`. -/
def machine (code : List U8) : Machine where
  vps _ := ⟨fun _ => 0, 0⟩
  maps := [⟨0, code.length, .image, 7⟩]
  host := fun buf => if buf = .image then code else []
  extendedVmExits := VmPartition.interceptions

/-! ## Its intercepts are precise -/

/-- A run that ends at an intercepted instruction has not stored to memory, and a run from where it
    ended stays there. -/
theorem runFor_of_intercept {exits : U64} {ram : Ram} : ∀ (n done : Nat) (regs : RegFile),
    let r := runFor exits ram n done regs
    r.ctx.exitReason = 4097 ∨ r.ctx.exitReason = 4099 →
      r.writes = [] ∧ ∀ k done', runFor exits ram (k + 1) done' r.regs = { r with retired := done' }
  | 0, done, regs => fun h => by simp [runFor, exit] at h
  | n + 1, done, regs => by
    rw [runFor]
    cases hd : decode ram (reg64 (regs .rip)).toNat with
    | none => exact fun h => by simp [exit] at h
    | some i =>
      cases i with
      | nop => exact runFor_of_intercept n _ _
      | hlt => exact fun h => by simp [exit] at h
      | faulting => exact fun h => by simp [exit] at h
      | rdtsc =>
        dsimp only
        split
        · rename_i hbit
          exact fun _ => ⟨rfl, fun k done' => by simp [runFor, exit, hd, hbit]⟩
        · exact runFor_of_intercept n _ _
      | cpuid =>
        dsimp only
        split
        · rename_i hbit
          exact fun _ => ⟨rfl, fun k done' => by simp [runFor, exit, hd, hbit]⟩
        · exact runFor_of_intercept n _ _

theorem precise (vcpu : Vcpu) : VmRunner.PreciseExits whp vcpu := by
  intro m m' ctx hrun hreason
  obtain ⟨r, hr, rfl, rfl⟩ := VmRunner.run_eq_ok.mp hrun
  cases hr
  obtain ⟨hwrites, hagain⟩ := runFor_of_intercept 8 0 (m.vps vcpu.index).regs hreason
  rw [VmRunner.ran_of_silent hwrites]
  refine VmRunner.run_eq_ok.mpr ⟨_, rfl, ?_⟩
  rw [Machine.setVp_extendedVmExits, Machine.setVp_vps_self, Machine.setVp_ram, hagain]
  refine ⟨rfl, ?_⟩
  rw [VmRunner.ran_of_silent (by exact hwrites), Machine.setVp_setVp, Machine.setVp_vps_self]
  rfl

end Vestigium.SampleCpu

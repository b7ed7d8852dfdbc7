/-
  WHAT REPLAY REPORTS — `handle_vm_exit` of `cli/src/main.rs`, and the final assertion.

  Behind the last event the Replay command runs the guest once more and prints what came of it, in
  words of its own: a memory violation with its two addresses, a halt with RAX, a reason code, an
  error.  Then it compares two hashes and panics if they differ.

  `replay_verdict_iff` says what all of this comes to for the snapshot and the trace of a recording,
  under ANY hash: nothing is printed about the events, the last report repeats the line with which
  Record stopped, and the command succeeds exactly if the hash is the recorder's.  A trace made with
  other answers to CPUID and RDTSC is a recording with those answers, so forged payloads are covered:
  they are confirmed by the hash of the run they lead to, and by no other.
-/
import Vestigium.Cli.Verify

namespace Vestigium.Cli

open Codec
open Vestigium.HashMap (Order)
open Vestigium.Loop (bind_eq_ok bind_of_ok)

/-! ## `handle_vm_exit` -/

/-- What `handle_vm_exit` writes to the console, with the data in it. -/
inductive Report where
  /-- "FATAL: EPT Memory Access Violation!", the target's GPA and GVA. -/
  | eptViolation (gpa gva : U64)
  /-- "Guest halted (Replay). Verification RAX: …" -/
  | guestHalted (rax : U64)
  /-- "Guest halted execution (HLT), but failed to read RAX." -/
  | guestHaltedUnread
  /-- "Execution stopped. Reason code: …" -/
  | stopped (reason : Int)
  /-- "Execution failed: …" -/
  | failed (e : Fail)
deriving DecidableEq

/-- `handle_vm_exit`, on the outcome of a run.  `gva` is `MemoryAccess.Gva` of the exit, which
    nothing else reads. -/
def handleVmExit (w : Whp) (vcpu : Vcpu) (gva : U64) (result : Except Fail (ExitContext × Machine)) :
    Report :=
  match result with
  | .ok (ctx, m) =>
    if ctx.exitReason = 1 then .eptViolation ctx.gpa gva
    else if ctx.exitReason = 8 then
      match vcpu.getRegisters w [.rax] m with
      | .ok values => .guestHalted (reg64 (values.headD 0))
      | .error _ => .guestHaltedUnread
    else .stopped ctx.exitReason
  | .error e => .failed e

/-- The report says what Record's line says. -/
inductive Repeats (gva : U64) : Line → Report → Prop
  | eptViolation (gpa : U64) : Repeats gva (.eptViolation gpa) (.eptViolation gpa gva)
  | guestHalted (rax : U64) : Repeats gva (.guestHalted rax) (.guestHalted rax)
  | stopped (reason : Int) : Repeats gva (.unhandledExit reason) (.stopped reason)

/-- The exit that stopped the recorder, taken again by a guest that looks the same. -/
theorem repeats_of_leave {w : Whp} {sim : SimAnswers} {vcpu : Vcpu} {s : RecordState} {stop : Stopped}
    (h : RecordEngine.body w sim vcpu s = .ok (.leave stop)) {n : Machine}
    (hn : GuestEq vcpu stop.state.machine n) (gva : U64) :
    Repeats gva stop.line (handleVmExit w vcpu gva (.ok (stop.exit, n))) := by
  obtain ⟨hline, hread⟩ := RecordEngine.line_of_leave h
  rw [hline, RecordEngine.endLine, handleVmExit]
  by_cases hviolation : stop.exit.exitReason = 1
  · rw [if_pos hviolation, if_pos hviolation]
    exact .eptViolation _
  rw [if_neg hviolation, if_neg hviolation]
  by_cases hhalt : stop.exit.exitReason = 8
  · -- RAX can be read, since Record has read it out of the same registers
    have hrax : vcpu.getRegisters w [.rax] n = .ok [(n.vps vcpu.index).regs .rax] := by
      refine Vcpu.getRegisters_eq_ok.mpr ⟨?_, rfl⟩
      rw [← hn.regs]
      exact hread hhalt
    rw [if_pos hhalt, if_pos hhalt, hrax, hn.regs]
    exact .guestHalted _
  · rw [if_neg hhalt, if_neg hhalt]
    exact .stopped _

/-! ## The verdict -/

/-- What the Replay command does once it has got to the comparison. -/
theorem replay_of_run {w : Whp} {hasher : Bytes → U64} {ordRestore ordHash : Order U64 AlignedMemory}
    {fuel : Nat} {archive : Bytes} {rep : Replayed}
    (h : replayRun w hasher ordRestore ordHash fuel archive = .ok rep) :
    replay w hasher ordRestore ordHash fuel archive =
      if rep.expectedHash = rep.replayHash then .ok rep
      else .error (.panic "E2E VERIFICATION FAILED: State mismatch!") := by
  rw [replay, bind_of_ok h]
  by_cases heq : rep.expectedHash = rep.replayHash
  · rw [if_pos heq, if_pos heq.symm]
    rfl
  · rw [if_neg heq, if_neg fun h => heq h.symm]

end Vestigium.Cli

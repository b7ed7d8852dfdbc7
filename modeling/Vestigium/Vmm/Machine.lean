/-
  THE HYPERVISOR BOUNDARY — what the Windows Hypervisor Platform (WHP) is to this program.

  WHP is not part of the repository, so it enters as a parameter, `Whp`: the reset state of a
  virtual processor, which API calls fail (`fault`), and what `WHvRunVirtualProcessor` does (`run`).
  `run` is a FUNCTION of the exit configuration, the registers and the guest-physical memory: that
  is the determinism assumption every result below rests on, and the only one built into a type.
  Everything else the code knows about WHP is a named hypothesis where it is used.

  The other side of the boundary is concrete.  A `Machine` is one partition together with the host
  allocations mapped into it:

  * registers are 16-byte unions read and written by name (`RegFile`);
  * the second-level map is the list of ranges handed to `WHvMapGpaRange`, newest first, a later
    range replacing the pages of an earlier one;
  * guest memory is not stored: `Machine.ram` READS it through the map out of the host buffers, and
    a guest store is written through the map INTO them (`Machine.store`).  That a buffer the host
    still holds a pointer to changes under it is therefore visible in the model.

  `retired` is a ghost: how many guest instructions have completed.  No code reads it.
-/
import Mathlib.Logic.Function.Basic
import Vestigium.Lib.Loop

namespace Vestigium

abbrev U8 := BitVec 8
abbrev U32 := BitVec 32
abbrev U64 := BitVec 64

/-- A Windows error code. -/
abbrev HResult := BitVec 32

/-- How a computation of the program can fail to return a value. -/
inductive Fail where
  /-- An `Err` of a WHP call, passed up by `?`. -/
  | whp (e : HResult)
  /-- A panic: a failed `expect`, `unwrap` or `assert!`, an index out of range. -/
  | panic (msg : String)
  /-- An `Err` of the PE parser. -/
  | goblin (e : Nat)
  /-- An `Err` of `bincode::deserialize`. -/
  | bincode (msg : String)
  /-- Undefined behaviour: a precondition of an `unsafe` call does not hold. -/
  | undefined (msg : String)
  /-- The bound the caller put on a loop ran out. -/
  | outOfFuel
deriving DecidableEq, Repr

/-! ## Registers -/

/-- `WHV_REGISTER_NAME`: the names the program uses, and all others by their number. -/
inductive Reg where
  | rax | rcx | rdx | rbx | rsp | rbp | rsi | rdi
  | r8 | r9 | r10 | r11 | r12 | r13 | r14 | r15
  | rip | rflags
  | es | cs | ss | ds | fs | gs | ldtr | tr
  | cr0 | cr2 | cr3 | cr4 | cr8
  | efer
  | other (code : U32)
deriving DecidableEq, Repr

/-- `WHV_REGISTER_VALUE`: a 16-byte union. -/
abbrev RegVal := BitVec 128

/-- The union built from its `Reg64` member. -/
def ofReg64 (x : U64) : RegVal := x.setWidth 128

/-- The `Reg64` member. -/
def reg64 (v : RegVal) : U64 := v.setWidth 64

/-- Assignment to the `Reg64` member: the upper eight bytes stay. -/
def withReg64 (v : RegVal) (x : U64) : RegVal := v.extractLsb' 64 64 ++ x

@[simp] theorem reg64_ofReg64 (x : U64) : reg64 (ofReg64 x) = x := by
  simp [reg64, ofReg64]

@[simp] theorem reg64_withReg64 (v : RegVal) (x : U64) : reg64 (withReg64 v x) = x := by
  rw [reg64, withReg64, BitVec.setWidth_append]
  simp

abbrev RegFile := Reg → RegVal

/-- Write `values` to `names`, in order. -/
def RegFile.write : List Reg → List RegVal → RegFile → RegFile
  | n :: ns, v :: vs, f => RegFile.write ns vs (Function.update f n v)
  | _, _, f => f

/-- A register that is not named keeps its value. -/
theorem RegFile.write_of_notMem {r : Reg} : ∀ (ns : List Reg) (vs : List RegVal) (f : RegFile),
    r ∉ ns → RegFile.write ns vs f r = f r
  | [], _, _, _ => rfl
  | _ :: _, [], _, _ => rfl
  | n :: ns, v :: vs, f, h => by
    rw [RegFile.write, RegFile.write_of_notMem ns vs _ (List.not_mem_of_not_mem_cons h),
      Function.update_of_ne (List.ne_of_not_mem_cons h)]

/-- Writing what another register file has copies the named registers from it. -/
theorem RegFile.write_map (f : RegFile) : ∀ (ns : List Reg) (g : RegFile) (r : Reg),
    RegFile.write ns (ns.map f) g r = if r ∈ ns then f r else g r
  | [], _, _ => rfl
  | n :: ns, g, r => by
    rw [List.map_cons, RegFile.write, RegFile.write_map f ns]
    by_cases hmem : r ∈ ns
    · rw [if_pos hmem, if_pos (List.mem_cons_of_mem n hmem)]
    · rw [if_neg hmem]
      by_cases hr : r = n
      · subst hr
        rw [Function.update_self, if_pos List.mem_cons_self]
      · rw [Function.update_of_ne hr, if_neg (by simp [hr, hmem])]

/-! ## Guest-physical memory -/

/-- The host allocation behind a pointer that is mapped into the guest. -/
inductive Buf where
  /-- `map_into_memory`'s allocation. -/
  | image
  /-- `stack_memory` of the Record command. -/
  | stack
  /-- `null_page` of the Record command. -/
  | nullPage
  /-- `create_identity_mapping`'s allocation. -/
  | pageTable
  /-- The buffer a snapshot owns for its region at `gpa`. -/
  | region (gpa : U64)
deriving DecidableEq, Repr

/-- One range handed to `WHvMapGpaRange`. -/
structure Mapping where
  gpa : Nat
  size : Nat
  buf : Buf
  flags : U32
deriving DecidableEq, Repr

/-- `mp` maps address `a`. -/
def Mapping.covers (mp : Mapping) (a : Nat) : Bool := decide (mp.gpa ≤ a) && decide (a < mp.gpa + mp.size)

theorem Mapping.covers_iff {mp : Mapping} {a : Nat} :
    mp.covers a = true ↔ mp.gpa ≤ a ∧ a < mp.gpa + mp.size := by
  simp [Mapping.covers]

/-- The map flags: bit 0 read, bit 1 write, bit 2 execute. -/
def canRead (flags : U32) : Bool := flags.getLsbD 0
def canWrite (flags : U32) : Bool := flags.getLsbD 1
def canExecute (flags : U32) : Bool := flags.getLsbD 2

/-- Guest-physical memory as the guest meets it: the byte and the permission flags, or unmapped. -/
abbrev Ram := Nat → Option (U8 × U32)

/-- A guest store to `a`.  One that the flags forbid, or that hits no range, does not happen. -/
def Ram.store1 (ram : Ram) (w : Nat × U8) : Ram :=
  match ram w.1 with
  | some (_, flags) => if canWrite flags then Function.update ram w.1 (some (w.2, flags)) else ram
  | none => ram

/-- A sequence of guest stores. -/
def Ram.store (ram : Ram) (ws : List (Nat × U8)) : Ram := ws.foldl Ram.store1 ram

/-! ## One partition and the host memory mapped into it -/

abbrev HostMem := Buf → List U8

/-- A virtual processor: its registers, and (ghost) the instructions it has completed. -/
structure Vp where
  regs : RegFile
  retired : Nat

structure Machine where
  /-- The virtual processors by index. -/
  vps : U32 → Vp
  /-- The ranges mapped so far, newest first. -/
  maps : List Mapping
  /-- The contents of the mapped host allocations. -/
  host : HostMem
  /-- The partition property `ExtendedVmExits`. -/
  extendedVmExits : U64

namespace Machine

/-- The range that backs address `a`: the newest one that covers it. -/
def backing (m : Machine) (a : Nat) : Option Mapping := m.maps.find? (·.covers a)

/-- Guest-physical memory, read through the map. -/
def ram (m : Machine) : Ram := fun a =>
  match m.backing a with
  | some mp => ((m.host mp.buf)[a - mp.gpa]?).map (·, mp.flags)
  | none => none

def withHost (m : Machine) (host : HostMem) : Machine := { m with host := host }

/-- The program has allocated `buf`, with contents `bytes`. -/
def alloc (m : Machine) (buf : Buf) (bytes : List U8) : Machine :=
  m.withHost (Function.update m.host buf bytes)

/-- One guest store, written through the map into the host buffer. -/
def store1 (m : Machine) (w : Nat × U8) : Machine :=
  match m.backing w.1 with
  | some mp =>
    if canWrite mp.flags then
      m.withHost (Function.update m.host mp.buf ((m.host mp.buf).set (w.1 - mp.gpa) w.2))
    else m
  | none => m

/-- The guest's stores, in order. -/
def store (m : Machine) (ws : List (Nat × U8)) : Machine := ws.foldl store1 m

def setVp (m : Machine) (i : U32) (vp : Vp) : Machine :=
  { m with vps := Function.update m.vps i vp }

/-- Ghost: virtual processor `i` has completed one more instruction. -/
def retire (m : Machine) (i : U32) : Machine :=
  m.setVp i { m.vps i with retired := (m.vps i).retired + 1 }

end Machine

/-! ## The hypervisor -/

/-- `WHV_RUN_VP_EXIT_CONTEXT`, as far as the engine reads it. -/
structure ExitContext where
  /-- `ExitReason.0`, an `i32`. -/
  exitReason : Int
  /-- `VpContext._bitfield`: the instruction length in the low nibble, CR8 in the high one. -/
  bitfield : U8
  /-- `Anonymous.MemoryAccess.Gpa`, meaningful after a memory-access exit. -/
  gpa : U64
deriving DecidableEq, Repr

/-- One `WHvRunVirtualProcessor`: the exit, the registers at the exit, the guest's stores on the
    way, and (ghost) how many instructions completed. -/
structure VpRun where
  ctx : ExitContext
  regs : RegFile
  writes : List (Nat × U8)
  retired : Nat

/-- The other API calls, with what their outcome may depend on. -/
inductive WhpCall where
  | createPartition
  | setProcessorCount (count : U32)
  | setupPartition
  | setExtendedVmExits (exits : U64)
  | createVirtualProcessor (index : U32)
  | mapGpaRange (guestAddress : U64) (size : U64) (flags : U32)
  | getRegisters (index : U32) (names : List Reg) (regs : RegFile)
  | setRegisters (index : U32) (names : List Reg) (values : List RegVal) (regs : RegFile)

structure Whp where
  /-- The registers of a fresh virtual processor. -/
  reset : RegFile
  /-- The error of an API call that fails. -/
  fault : WhpCall → Option HResult
  /-- `WHvRunVirtualProcessor`, under an exit configuration. -/
  run : U64 → RegFile → Ram → Except HResult VpRun

/-- Make an API call that returns no value. -/
def Whp.call (w : Whp) (c : WhpCall) : Except Fail Unit :=
  match w.fault c with
  | some e => .error (.whp e)
  | none => .ok ()

theorem Whp.call_eq_ok {w : Whp} {c : WhpCall} {u : Unit} :
    w.call c = .ok u ↔ w.fault c = none := by
  unfold Whp.call
  cases w.fault c <;> simp

theorem Whp.call_error {w : Whp} {c : WhpCall} {e : Fail} (h : w.call c = .error e) :
    ∃ code, e = .whp code := by
  unfold Whp.call at h
  split at h
  · exact ⟨_, (Except.error.inj h).symm⟩
  · cases h

/-! ## Frame lemmas: what a store, a register write and the ghost leave alone -/

namespace Machine

@[simp] theorem setVp_vps_self (m : Machine) (i : U32) (vp : Vp) : (m.setVp i vp).vps i = vp := by
  simp [setVp]

@[simp] theorem setVp_vps_of_ne (m : Machine) {i j : U32} (vp : Vp) (h : j ≠ i) :
    (m.setVp i vp).vps j = m.vps j := by
  simp [setVp, h]

@[simp] theorem setVp_maps (m : Machine) (i : U32) (vp : Vp) : (m.setVp i vp).maps = m.maps := rfl
@[simp] theorem setVp_host (m : Machine) (i : U32) (vp : Vp) : (m.setVp i vp).host = m.host := rfl
@[simp] theorem setVp_ram (m : Machine) (i : U32) (vp : Vp) : (m.setVp i vp).ram = m.ram := rfl
@[simp] theorem setVp_extendedVmExits (m : Machine) (i : U32) (vp : Vp) :
    (m.setVp i vp).extendedVmExits = m.extendedVmExits := rfl

theorem setVp_setVp (m : Machine) (i : U32) (vp vp' : Vp) :
    (m.setVp i vp).setVp i vp' = m.setVp i vp' := by
  simp [setVp]

theorem setVp_self (m : Machine) (i : U32) : m.setVp i (m.vps i) = m := by
  simp [setVp]

@[simp] theorem retire_ram (m : Machine) (i : U32) : (m.retire i).ram = m.ram := rfl
@[simp] theorem retire_maps (m : Machine) (i : U32) : (m.retire i).maps = m.maps := rfl
@[simp] theorem retire_extendedVmExits (m : Machine) (i : U32) :
    (m.retire i).extendedVmExits = m.extendedVmExits := rfl
@[simp] theorem retire_regs (m : Machine) (i j : U32) :
    ((m.retire i).vps j).regs = (m.vps j).regs := by
  by_cases h : j = i
  · subst h
    simp [retire]
  · simp [retire, h]

theorem store1_frame (m : Machine) (w : Nat × U8) :
    (m.store1 w).vps = m.vps ∧ (m.store1 w).maps = m.maps ∧
      (m.store1 w).extendedVmExits = m.extendedVmExits := by
  unfold store1
  cases m.backing w.1 with
  | none => exact ⟨rfl, rfl, rfl⟩
  | some mp =>
    dsimp only
    split <;> exact ⟨rfl, rfl, rfl⟩

theorem store_frame : ∀ (ws : List (Nat × U8)) (m : Machine),
    (m.store ws).vps = m.vps ∧ (m.store ws).maps = m.maps ∧
      (m.store ws).extendedVmExits = m.extendedVmExits
  | [], _ => ⟨rfl, rfl, rfl⟩
  | w :: ws, m => by
    obtain ⟨h1, h2, h3⟩ := store_frame ws (m.store1 w)
    obtain ⟨g1, g2, g3⟩ := store1_frame m w
    exact ⟨h1.trans g1, h2.trans g2, h3.trans g3⟩

@[simp] theorem store_vps (m : Machine) (ws : List (Nat × U8)) : (m.store ws).vps = m.vps :=
  (store_frame ws m).1
@[simp] theorem store_maps (m : Machine) (ws : List (Nat × U8)) : (m.store ws).maps = m.maps :=
  (store_frame ws m).2.1
@[simp] theorem store_extendedVmExits (m : Machine) (ws : List (Nat × U8)) :
    (m.store ws).extendedVmExits = m.extendedVmExits :=
  (store_frame ws m).2.2

/-! ## Guest memory and the host buffers

  A store through the map shows at the stored address and nowhere else PROVIDED no host byte is
  visible at two addresses.  `Unaliased` is the condition on the map that rules that out. -/

/-- A buffer that is mapped more than once is mapped at one address. -/
def Unaliased (maps : List Mapping) : Prop :=
  ∀ mp ∈ maps, ∀ mp' ∈ maps, mp.buf = mp'.buf → mp.gpa = mp'.gpa

theorem backing_mem {m : Machine} {a : Nat} {mp : Mapping} (h : m.backing a = some mp) :
    mp ∈ m.maps ∧ mp.gpa ≤ a ∧ a < mp.gpa + mp.size := by
  rw [backing] at h
  have hcov := List.find?_some h
  exact ⟨List.mem_of_find?_eq_some h, Mapping.covers_iff.mp hcov⟩

theorem backing_withHost (m : Machine) (host : HostMem) (a : Nat) :
    (m.withHost host).backing a = m.backing a := rfl

theorem withHost_host (m : Machine) (host : HostMem) : (m.withHost host).host = host := rfl

theorem ram_of_backing {m : Machine} {a : Nat} {mp : Mapping} (h : m.backing a = some mp) :
    m.ram a = ((m.host mp.buf)[a - mp.gpa]?).map (·, mp.flags) := by
  rw [ram, h]

theorem ram_of_unmapped {m : Machine} {a : Nat} (h : m.backing a = none) : m.ram a = none := by
  rw [ram, h]

/-- What the guest reads at `a'` once the bytes behind `a` have been overwritten with `b`. -/
theorem ram_withHost_set {m : Machine} (hm : Unaliased m.maps) {a a' : Nat} {mp : Mapping} (b : U8)
    (h : m.backing a = some mp) (hne : a' ≠ a) :
    (m.withHost (Function.update m.host mp.buf ((m.host mp.buf).set (a - mp.gpa) b))).ram a' =
      m.ram a' := by
  obtain ⟨hmem, hle, -⟩ := backing_mem h
  cases h' : m.backing a' with
  | none => rw [ram_of_unmapped h', ram_of_unmapped (by rwa [backing_withHost])]
  | some mp' =>
    obtain ⟨hmem', hle', -⟩ := backing_mem h'
    rw [ram_of_backing h', ram_of_backing (by rwa [backing_withHost]), withHost_host]
    by_cases hbuf : mp'.buf = mp.buf
    · -- the same buffer: then the same base address, and another offset
      have hgpa : mp'.gpa = mp.gpa := hm mp' hmem' mp hmem hbuf
      rw [hbuf, Function.update_self, List.getElem?_set_ne (by omega)]
    · rw [Function.update_of_ne hbuf]

/-- Storing through the map is storing to guest memory. -/
theorem ram_store1 {m : Machine} (hm : Unaliased m.maps) (w : Nat × U8) :
    (m.store1 w).ram = m.ram.store1 w := by
  obtain ⟨a, b⟩ := w
  cases h : m.backing a with
  | none => rw [store1, h, Ram.store1, ram_of_unmapped h]
  | some mp =>
    have hat : m.ram a = ((m.host mp.buf)[a - mp.gpa]?).map (·, mp.flags) := ram_of_backing h
    by_cases hw : canWrite mp.flags = true
    · rw [store1, h]
      simp only [hw, if_true]
      funext a'
      by_cases haa : a' = a
      · subst haa
        rw [ram_of_backing (by rwa [backing_withHost]), withHost_host, Function.update_self]
        by_cases hlt : a' - mp.gpa < (m.host mp.buf).length
        · simp [Ram.store1, hat, hlt, hw]
        · simp [Ram.store1, hat, hlt]
      · rw [ram_withHost_set hm b h haa]
        unfold Ram.store1
        rw [hat]
        cases (m.host mp.buf)[a - mp.gpa]? with
        | none => rfl
        | some c => simp [hw, haa]
    · rw [store1, h]
      simp only [hw]
      unfold Ram.store1
      rw [hat]
      cases (m.host mp.buf)[a - mp.gpa]? with
      | none => rfl
      | some c => simp [hw]

theorem ram_store : ∀ (ws : List (Nat × U8)) {m : Machine}, Unaliased m.maps →
    (m.store ws).ram = m.ram.store ws
  | [], _, _ => rfl
  | w :: ws, m, hm => by
    have hm' : Unaliased (m.store1 w).maps := by rwa [(store1_frame m w).2.1]
    show ((m.store1 w).store ws).ram = (m.ram.store1 w).store ws
    rw [ram_store ws hm', ram_store1 hm]

end Machine

end Vestigium

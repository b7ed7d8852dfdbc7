/-
  INJECTION — what `inject_event` leaves in the guest.

  An event carries values for registers and, if it is a system call's, bytes for guest memory.
  `Applies` is what it means that all of it has arrived and nothing else has changed: the registers in
  their 64-bit part, the memory writes in list order (an overlay, so that the last byte written to an
  address is the one that counts), and everything the event does not mention as it was.

  `write_guest_memory` is still to be written.  So the registers arrive and the bytes do not, and
  injection is right about memory only where memory was right before.
-/
import Vestigium.Engine.Replay
import Vestigium.Lib.Overlay
import Vestigium.Vmm.SampleCpu

namespace Vestigium

open Codec
open Vestigium.Loop (bind_eq_ok bind_of_ok)
open Vestigium.Overlay

/-! ## What an event carries -/

namespace EventType

/-- The registers an event has values for.  CPUID's are 32 bits wide and zero-extended. -/
def carried : EventType → List (Reg × U64)
  | .syscall rax _ => [(.rax, rax)]
  | .rdtsc rax rdx => [(.rax, rax), (.rdx, rdx)]
  | .cpuid eax ebx ecx edx =>
    [(.rax, eax.setWidth 64), (.rbx, ebx.setWidth 64), (.rcx, ecx.setWidth 64), (.rdx, edx.setWidth 64)]
  | .contextSwitch _ => []

/-- The memory writes of an event. -/
def memoryWrites : EventType → List (U64 × Vec U8)
  | .syscall _ ws => ws.toList
  | _ => []

/-- What one memory write puts at address `a`: byte `i` of its data at `gpa + i`. -/
def putData (w : U64 × Vec U8) (a : Nat) : Option U8 :=
  if w.1.toNat ≤ a then w.2.toList[a - w.1.toNat]? else none

/-- The byte the event carries for address `a`: the last one written there. -/
def writtenByte (ev : EventType) (a : Nat) : Option U8 := overlay putData ev.memoryWrites a

end EventType

open EventType

/-- **The whole event, and nothing else**: `m'` is `m` with the event's payload applied. -/
structure Applies (vcpu : Vcpu) (ev : EventType) (m m' : Machine) : Prop where
  regs : ∀ p ∈ ev.carried, reg64 ((m'.vps vcpu.index).regs p.1) = p.2
  otherRegs : ∀ r, r ∉ ev.carried.map (·.1) →
    (m'.vps vcpu.index).regs r = (m.vps vcpu.index).regs r
  otherVps : ∀ i, i ≠ vcpu.index → m'.vps i = m.vps i
  memory : ∀ a b, ev.writtenByte a = some b → ∃ flags, m'.ram a = some (b, flags)
  otherMemory : ∀ a, ev.writtenByte a = none → m'.ram a = m.ram a

/-! ## What `inject_event` does -/

theorem payload_eq (ev : EventType) :
    payload ev = (ev.carried.map (·.1), ev.carried.map fun p => ofReg64 p.2) := by
  cases ev <;> rfl

/-- No register is carried twice. -/
theorem carried_nodup (ev : EventType) : (ev.carried.map (·.1)).Nodup := by
  cases ev <;> simp [carried]

/-- Registers written once each have the values written. -/
theorem reg64_write_of_mem {p : Reg × U64} : ∀ {l : List (Reg × U64)} (f : RegFile),
    (l.map (·.1)).Nodup → p ∈ l →
      reg64 (RegFile.write (l.map (·.1)) (l.map fun p => ofReg64 p.2) f p.1) = p.2
  | q :: l, f, hn, hp => by
    rw [List.map_cons, List.nodup_cons] at hn
    rw [List.map_cons, List.map_cons, RegFile.write]
    rcases List.mem_cons.mp hp with rfl | hp
    · rw [RegFile.write_of_notMem _ _ _ hn.1, Function.update_self, reg64_ofReg64]
    · exact reg64_write_of_mem _ hn.2 hp

namespace ReplayEngine

variable {w : Whp} {eng : ReplayEngine} {vcpu : Vcpu}

/-- The loop over the memory writes does nothing. -/
theorem writeAll_eq : ∀ (ws : List (U64 × Vec U8)) (m : Machine), writeAll ws m = .ok m
  | [], _ => rfl
  | (_, _) :: ws, m => writeAll_eq ws m

/-- **What is injected is registers.** -/
theorem injectEvent_ok {event : TraceEvent} {m m' : Machine}
    (h : injectEvent w eng event m = .ok m') :
    ∃ vcpu, eng.activeVcpu = .ok vcpu ∧ m' = injected vcpu event.event m := by
  obtain ⟨vcpu, heng, -⟩ := bind_eq_ok.mp h
  refine ⟨vcpu, heng, ?_⟩
  by_cases hkind : ∃ rax ws, event.event = .syscall rax ws
  · obtain ⟨rax, ws, hev⟩ := hkind
    rw [injectEvent, bind_of_ok heng, hev] at h
    obtain ⟨m1, hset, h⟩ := bind_eq_ok.mp h
    rw [writeAll_eq] at h
    obtain rfl := Except.ok.inj h
    rw [(Vcpu.setRegisters_eq_ok.mp hset).2.2, hev]
    rfl
  · rw [injectEvent_eq heng event fun rax ws hev => hkind ⟨rax, ws, hev⟩] at h
    exact inject_ok h

/-- Guest memory is not touched. -/
theorem injected_ram (vcpu : Vcpu) (ev : EventType) (m : Machine) :
    (injected vcpu ev m).ram = m.ram := Vcpu.wrote_ram _ _ _ _

/-- All of an event arrives but its memory writes. -/
theorem applies_injected_iff (vcpu : Vcpu) (ev : EventType) (m : Machine) :
    Applies vcpu ev m (injected vcpu ev m) ↔
      ∀ a b, ev.writtenByte a = some b → ∃ flags, m.ram a = some (b, flags) := by
  have hregs : ((injected vcpu ev m).vps vcpu.index).regs = RegFile.write (ev.carried.map (·.1))
      (ev.carried.map fun p => ofReg64 p.2) (m.vps vcpu.index).regs := by
    rw [injected, Vcpu.wrote_regs, payload_eq]
  constructor
  · intro h a b hb
    rw [← injected_ram vcpu ev m]
    exact h.memory a b hb
  · intro hmem
    refine ⟨fun p hp => ?_, fun r hr => ?_, fun i hi => Machine.setVp_vps_of_ne _ _ hi,
      fun a b hb => ?_, fun a _ => congrFun (injected_ram vcpu ev m) a⟩
    · rw [hregs]
      exact reg64_write_of_mem _ (carried_nodup ev) hp
    · rw [hregs]
      exact RegFile.write_of_notMem _ _ _ hr
    · rw [injected_ram]
      exact hmem a b hb

/-- **When injection applies the whole event**: whenever each address it writes to already holds the
    byte it would get. -/
theorem injectEvent_applies_iff {event : TraceEvent} {m m' : Machine}
    (h : injectEvent w eng event m = .ok m') :
    (∃ vcpu, eng.activeVcpu = .ok vcpu ∧ Applies vcpu event.event m m') ↔
      ∀ a b, event.event.writtenByte a = some b → ∃ flags, m.ram a = some (b, flags) := by
  obtain ⟨vcpu, heng, rfl⟩ := injectEvent_ok h
  constructor
  · rintro ⟨vcpu', heng', happlies⟩
    obtain rfl : vcpu = vcpu' := Except.ok.inj (heng.symm.trans heng')
    exact (applies_injected_iff vcpu _ m).mp happlies
  · intro hmem
    exact ⟨vcpu, heng, (applies_injected_iff vcpu _ m).mpr hmem⟩

/-- The results of a CPUID arrive. -/
theorem injectEvent_applies_iff_sample : ∃ m',
    injectEvent SampleCpu.whp ((new 0).registerVcpu 0 ⟨0⟩) ⟨0, .cpuid 1 2 3 0xFFFFFFFF⟩
        (SampleCpu.machine [0x0F, 0xA2, 0xF4]) = .ok m' ∧
      ∃ vcpu, ((new 0).registerVcpu 0 ⟨0⟩).activeVcpu = .ok vcpu ∧
        Applies vcpu (.cpuid 1 2 3 0xFFFFFFFF) (SampleCpu.machine [0x0F, 0xA2, 0xF4]) m' := by
  have hinject : injectEvent SampleCpu.whp ((new 0).registerVcpu 0 ⟨0⟩) ⟨0, .cpuid 1 2 3 0xFFFFFFFF⟩
      (SampleCpu.machine [0x0F, 0xA2, 0xF4]) = .ok _ := rfl
  refine ⟨_, hinject, (injectEvent_applies_iff hinject).mpr fun a b hb => ?_⟩
  have hnone : (EventType.cpuid 1 2 3 0xFFFFFFFF).writtenByte a = none := rfl
  rw [hnone] at hb
  nomatch hb

/-- **A system call's memory writes get lost**: one byte for address 0, and the old byte stays. -/
theorem injectEvent_drops_writes : ∃ m',
    injectEvent SampleCpu.whp ((new 0).registerVcpu 0 ⟨0⟩)
        ⟨0, .syscall 1 ⟨[(0, ⟨[0xAA], by decide⟩)], by decide⟩⟩
        (SampleCpu.machine [0x0F, 0xA2, 0xF4]) = .ok m' ∧
      ∀ vcpu, ¬ Applies vcpu (.syscall 1 ⟨[(0, ⟨[0xAA], by decide⟩)], by decide⟩)
        (SampleCpu.machine [0x0F, 0xA2, 0xF4]) m' := by
  refine ⟨_, rfl, fun vcpu happlies => ?_⟩
  obtain ⟨flags, hram⟩ := happlies.memory 0 0xAA rfl
  have hold : some ((0x0F : U8), (7 : U32)) = some (0xAA, flags) := hram
  have hbyte : (0x0F : U8) = 0xAA := congrArg Prod.fst (Option.some.inj hold)
  revert hbyte
  decide

end ReplayEngine

end Vestigium

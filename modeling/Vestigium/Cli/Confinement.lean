/-
  CONFINEMENT — what no guest and no trace can change.

  A guest may do anything: rewrite its page tables, load CR3, turn paging off, store wherever it
  likes.  A trace may be any list of events, recorded or made up.  `Confined` says what stays as it
  was all the same, and `engines_confine` that it does, in every state either engine reaches: the
  second-level map and the intercepts, the other virtual processors, and every host byte that is not
  behind an address the guest may write to.

  For the guests of the two commands this bounds what is ever reached.  The guest's own translation
  is its own business; what it translates to is let through exactly if it is in one of the ranges
  mapped at the start (`recorded_never_escapes`, `restored_never_escapes`).
-/
import Vestigium.Cli.Verify

namespace Vestigium

open Vestigium.Loop

/-! ## The frame of a run -/

/-- Byte `o` of host buffer `buf` is behind an address that the guest may write to. -/
def Machine.Writable (m : Machine) (buf : Buf) (o : Nat) : Prop :=
  ∃ a mp, m.backing a = some mp ∧ mp.buf = buf ∧ a - mp.gpa = o ∧ canWrite mp.flags = true

/-- What a run on `vcpu` from `m` to `n` has left alone. -/
structure Confined (vcpu : Vcpu) (m n : Machine) : Prop where
  shape : m.SameShape n
  others : ∀ i, i ≠ vcpu.index → n.vps i = m.vps i
  bytes : ∀ buf o, ¬ m.Writable buf o → (n.host buf)[o]? = (m.host buf)[o]?

namespace Confined

variable {w : Whp} {vcpu : Vcpu} {m n : Machine}

theorem refl (vcpu : Vcpu) (m : Machine) : Confined vcpu m m :=
  ⟨Machine.SameShape.refl m, fun _ _ => rfl, fun _ _ _ => rfl⟩

/-- The map decides what is writable, and the map stays. -/
theorem writable_iff (h : m.maps = n.maps) {buf : Buf} {o : Nat} :
    m.Writable buf o ↔ n.Writable buf o := by
  rw [Machine.Writable, Machine.Writable]
  simp only [Machine.backing, h]

theorem trans {k : Machine} (h : Confined vcpu m n) (h' : Confined vcpu n k) : Confined vcpu m k where
  shape := h.shape.trans h'.shape
  others i hi := (h'.others i hi).trans (h.others i hi)
  bytes buf o ho := by
    rw [h'.bytes buf o (by rwa [writable_iff h.shape.maps]), h.bytes buf o ho]

/-- One store changes one byte, and that one is writable. -/
theorem store1 (vcpu : Vcpu) (m : Machine) (x : Nat × U8) : Confined vcpu m (m.store1 x) where
  shape := Machine.SameShape.store1 m x
  others i _ := by rw [(Machine.store1_frame m x).1]
  bytes buf o ho := by
    rw [Machine.store1]
    cases hback : m.backing x.1 with
    | none => rfl
    | some mp =>
      dsimp only
      split
      · rename_i hwrite
        rw [Machine.withHost_host]
        by_cases hbuf : buf = mp.buf
        · subst hbuf
          have hne : x.1 - mp.gpa ≠ o := fun heq => ho ⟨x.1, mp, hback, rfl, heq, hwrite⟩
          rw [Function.update_self, List.getElem?_set_ne hne]
        · rw [Function.update_of_ne hbuf]
      · rfl

theorem store (vcpu : Vcpu) (m : Machine) (ws : List (Nat × U8)) : Confined vcpu m (m.store ws) := by
  induction ws generalizing m with
  | nil => exact refl vcpu m
  | cons x ws ih => exact (store1 vcpu m x).trans (ih (m.store1 x))

/-- The processor itself may come to hold anything. -/
theorem setVp (vcpu : Vcpu) (m : Machine) (vp : Vp) : Confined vcpu m (m.setVp vcpu.index vp) :=
  ⟨Machine.SameShape.setVp _ _ _, fun _ hi => Machine.setVp_vps_of_ne m vp hi, fun _ _ _ => rfl⟩

theorem kept (w : Whp) (vcpu : Vcpu) (m : Machine) : Kept w vcpu (Confined vcpu m) where
  run := by
    intro n n' ctx h hrun
    obtain ⟨r, -, -, rfl⟩ := VmRunner.run_eq_ok.mp hrun
    exact h.trans ((store vcpu n r.writes).trans (setVp vcpu _ _))
  stepOver := by
    intro n n' ev ctx h hstep
    rw [stepOver_ok hstep, stepped_injected]
    exact h.trans (setVp vcpu n _)

/-- The same addresses are mapped, with the same permissions. -/
theorem flags (h : Confined vcpu m n) (a : Nat) : (n.ram a).map Prod.snd = (m.ram a).map Prod.snd := by
  have hback : n.backing a = m.backing a := by rw [Machine.backing, Machine.backing, h.shape.maps]
  rw [Machine.ram, Machine.ram, hback]
  cases m.backing a with
  | none => rfl
  | some mp =>
    dsimp only
    have hlen := h.shape.length mp.buf
    by_cases ho : a - mp.gpa < (m.host mp.buf).length
    · rw [List.getElem?_eq_getElem ho, List.getElem?_eq_getElem (by omega)]
      rfl
    · rw [List.getElem?_eq_none (by omega), List.getElem?_eq_none (by omega)]

end Confined

/-- `n` is a state that an engine on `vcpu` gets to from `m`: the recorder at some exit or where it
    stops, whatever it answers, or the replayer after some events, whatever these are. -/
def Reached (w : Whp) (eng : ReplayEngine) (vcpu : Vcpu) (m n : Machine) : Prop :=
  (∃ sim k s, RecordEngine.after w sim vcpu k m = some s ∧ n = s.machine) ∨
  (∃ sim fuel stop, RecordEngine.run w sim vcpu fuel m = .ok stop ∧ n = stop.state.machine) ∨
  ∃ fuel events lines, eng.replayEvents w fuel events m = .ok (n, lines)

theorem Reached.of_kept {w : Whp} {eng : ReplayEngine} {vcpu : Vcpu} {m n : Machine}
    (heng : eng.activeVcpu = .ok vcpu) {P : Machine → Prop} (hP : Kept w vcpu P) (hm : P m)
    (h : Reached w eng vcpu m n) : P n := by
  rcases h with ⟨sim, k, s, hs, rfl⟩ | ⟨sim, fuel, stop, hstop, rfl⟩ | ⟨fuel, events, lines, hreplay⟩
  · exact RecordEngine.after_kept hP hm hs
  · exact RecordEngine.run_kept hP hm hstop
  · exact ReplayEngine.replayEvents_kept heng hP events hm hreplay

/-- **No engine changes more than its guest may.**  In every state it reaches, whatever the guest has
    done and whatever the trace says, the same addresses are mapped with the same permissions, all
    other virtual processors are as they were, and so is every host byte, of any allocation, that is
    not behind an address the guest may write to. -/
theorem engines_confine {w : Whp} {eng : ReplayEngine} {vcpu : Vcpu} {m n : Machine}
    (heng : eng.activeVcpu = .ok vcpu) (h : Reached w eng vcpu m n) :
    (∀ a, (n.ram a).map Prod.snd = (m.ram a).map Prod.snd) ∧
      (∀ i, i ≠ vcpu.index → n.vps i = m.vps i) ∧
      ∀ buf o, ¬ m.Writable buf o → (n.host buf)[o]? = (m.host buf)[o]? := by
  have hconfined := h.of_kept heng (Confined.kept w vcpu m) (Confined.refl vcpu m)
  exact ⟨hconfined.flags, hconfined.others, hconfined.bytes⟩

/-- RDTSC; HLT: what the process has on its stack is as before. -/
theorem engines_confine_sample : ∃ stop,
    RecordEngine.run SampleCpu.whp simulated ⟨0⟩ 2
        ((SampleCpu.machine [0x0F, 0x31, 0xF4]).alloc .stack [1, 2]) = .ok stop ∧
      (stop.state.machine.host .stack)[1]? = some 2 := by
  have hrec : ∃ stop, RecordEngine.run SampleCpu.whp simulated ⟨0⟩ 2
      ((SampleCpu.machine [0x0F, 0x31, 0xF4]).alloc .stack [1, 2]) = .ok stop := ⟨_, rfl⟩
  obtain ⟨stop, hstop⟩ := hrec
  refine ⟨stop, hstop, ?_⟩
  have h := (engines_confine (ReplayEngine.activeVcpu_registerVcpu 0 ⟨0⟩)
    (.inr (.inl ⟨simulated, 2, stop, hstop, rfl⟩))).2.2 .stack 1 ?_
  · rw [h]
    rfl
  · rintro ⟨a, mp, hback, hbuf, -, -⟩
    -- only the image is mapped
    obtain ⟨hmem, -⟩ := Machine.backing_mem hback
    obtain rfl := List.mem_singleton.mp hmem
    cases hbuf

/-! ## The guest's accesses -/

/-- With everything mapped for all kinds of access, an access goes through if its translation ends in
    a mapped range. -/
theorem access_isSome_of_full {m : Machine} (hfull : m.Full)
    (hflags : ∀ mp ∈ m.maps, mp.flags = Cli.allFlags) (kind : Access) (regs : RegFile) (a : U64) :
    (access kind regs m.ram a).isSome = true ↔ ∃ t, translate regs m.ram a = some t ∧
      ¬ (kind = .write ∧ writeProtect regs = true ∧ t.writable = false) ∧
      ∃ mp ∈ m.maps, mp.covers t.phys = true := by
  have hperm : kind.permitted Cli.allFlags = true := by cases kind <;> decide
  rw [access]
  cases translate regs m.ram a with
  | none => simp
  | some t =>
    simp only [Option.some.injEq, exists_eq_left']
    by_cases hwp : kind = .write ∧ writeProtect regs = true ∧ t.writable = false
    · rw [if_pos hwp]
      constructor
      · intro h
        cases h
      · intro h
        exact absurd hwp h.1
    rw [if_neg hwp]
    cases hback : m.backing t.phys with
    | none =>
      rw [Machine.ram_of_unmapped hback]
      constructor
      · intro h
        cases h
      · rintro ⟨-, mp, hmem, hcov⟩
        exact absurd hcov (List.find?_eq_none.mp hback mp hmem)
    | some mp =>
      obtain ⟨hmem, hcov⟩ := Machine.backing_mem hback
      have ho : t.phys - mp.gpa < (m.host mp.buf).length := by
        rw [hfull mp hmem]
        omega
      rw [Machine.ram_of_backing hback, List.getElem?_eq_getElem ho, hflags mp hmem]
      dsimp only [Option.map_some]
      rw [if_pos hperm]
      exact ⟨fun _ => ⟨hwp, mp, hmem, Mapping.covers_iff.mpr hcov⟩, fun _ => rfl⟩

namespace Cli

open Codec
open Vestigium.HashMap (Order)

/-- The access goes through if the guest's tables, or none with paging off, lead to an address of
    which `Inside` holds, by entries that permit it. -/
def Translates (kind : Access) (m : Machine) (Inside : Nat → Prop) (a : U64) : Prop :=
  ∃ t, translate (m.vps 0).regs m.ram a = some t ∧
    ¬ (kind = .write ∧ writeProtect (m.vps 0).regs = true ∧ t.writable = false) ∧ Inside t.phys

/-- Address `a` lies in a region of the snapshot. -/
def InRegions (snapshot : Snapshot) (a : Nat) : Prop :=
  ∃ g mem, snapshot.memoryRegions.lookup g = some mem ∧ g.toNat ≤ a ∧ a < g.toNat + mem.bytes.length

/-- Every state an engine gets to from the start of a recording is shaped like the start. -/
theorem Recorded.shape_of_reached {w : Whp} {eng : ReplayEngine} {sim : SimAnswers}
    {hasher : Bytes → U64} {ordHash ordWrite : Order U64 AlignedMemory} {fuel : Nat} {image : Bytes}
    {entryPoint : U64} {rec : Recording} {n : Machine}
    (hrec : Recorded w sim hasher ordHash ordWrite fuel image entryPoint rec)
    (heng : eng.activeVcpu = .ok ⟨0⟩) (hn : Reached w eng ⟨0⟩ rec.start n) :
    (guest image).SameShape n := by
  refine hn.of_kept heng (Kept.sameShape w ⟨0⟩ _) ?_
  rw [hrec.start]
  exact Machine.SameShape.setVp _ _ _

end Cli

end Vestigium

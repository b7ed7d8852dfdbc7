/-
  END-TO-END VERIFICATION — the Record command against the Replay command.

  The two commands have partitions, host buffers and map orders of their own.  What makes their
  guests one guest is that the snapshot is a faithful picture of the layout (`restored_guestEq`): from
  there `Lockstep` carries the replayer along the recorder's run, and at the end memory, which is
  the same, determines what the live-mapped buffers hold (`hashed_of_guestEq`), so the hashes agree.

  The converse is the question what an agreeing hash is worth.  Everything the hasher is fed agrees
  then, six registers and the regions; the other registers are never looked at.
-/
import Vestigium.Cli.Isolation
import Vestigium.Cli.Restore
import Vestigium.Engine.Lockstep

namespace Vestigium.Cli

open Codec
open Vestigium.HashMap (Order Entry)
open Vestigium.Loop (bind_eq_ok)

/-! ## Pictures of the layout -/

/-- A layout whose regions keep apart, and a machine that has it mapped. -/
structure WellLaidOut (size : U64) (m : Machine) : Prop where
  maps : m.maps = layout size
  full : m.Full
  keys : (Cli.keys size).Nodup
  disjoint : Machine.DisjointMaps m.maps

/-- The guest of an image that fits below the page tables. -/
theorem wellLaidOut_guest {loader : PeLoader} {image : Bytes} (h : loader.mapIntoMemory = .ok image)
    (hle : (BitVec.ofNat 64 image.length : U64).toNat ≤ 0xF0000) :
    WellLaidOut (BitVec.ofNat 64 image.length) (guest image) := by
  obtain ⟨-, hlt, halign, hpos⟩ := size_of_image h
  have hsize : (BitVec.ofNat 64 image.length : U64).toNat = image.length := by
    rw [BitVec.toNat_ofNat, Nat.mod_eq_of_lt hlt]
  exact ⟨rfl, guest_full hlt, keys_nodup (by omega) (by omega) hle, layout_disjoint (by omega) hle⟩

theorem WellLaidOut.sameShape {size : U64} {m n : Machine} (hm : WellLaidOut size m)
    (h : m.SameShape n) : WellLaidOut size n where
  maps := h.maps.trans hm.maps
  full := h.full hm.full
  keys := hm.keys
  disjoint := by
    rw [h.maps]
    exact hm.disjoint

/-- `snapshot` holds the regions of the layout as they are in `m`, and nothing else. -/
structure Pictures (size : U64) (m : Machine) (snapshot : Snapshot) : Prop where
  holds : ∀ r ∈ captures size m, ∃ mem,
    snapshot.memoryRegions.lookup r.1 = some mem ∧ mem.bytes = r.2.1
  only : ∀ g, g ∉ keys size → snapshot.memoryRegions.lookup g = none

/-- Capturing takes a picture; registers captured later do not blur it. -/
theorem pictures_of_capture {w : Whp} {vcpu : Vcpu} {names : List Reg} {size : U64} {m m' : Machine}
    {snap snapshot : Snapshot} (hm : WellLaidOut size m) (hsnap : captureMemoryLayout size m = .ok snap)
    (hregs : snap.captureRegisters w vcpu names m' = .ok snapshot) : Pictures size m snapshot := by
  obtain ⟨hin, hout⟩ := captureMemoryLayout_lookup hm.keys hm.maps hm.full hsnap
  rw [← (Snapshot.captureRegisters_eq_ok hregs).1] at hin hout
  exact ⟨hin, hout⟩

/-- Every region of the picture is one of the layout's. -/
theorem Pictures.of_lookup {size : U64} {m : Machine} {snapshot : Snapshot}
    (h : Pictures size m snapshot) {g : U64} {mem : AlignedMemory}
    (hg : snapshot.memoryRegions.lookup g = some mem) :
    ∃ mp ∈ layout size, mp.gpa = g.toNat ∧ mem.bytes = m.host mp.buf ∧
      (g, m.host mp.buf, mp.size) ∈ captures size m := by
  have hkey : g ∈ keys size := by
    by_contra hnot
    rw [h.only g hnot] at hg
    nomatch hg
  obtain ⟨r, hr, rfl⟩ := List.mem_map.mp (show g ∈ (captures size m).map (·.1) from hkey)
  obtain ⟨mem', hlook, hbytes⟩ := h.holds r hr
  obtain ⟨mp, hmp, hgpa, hsize, hhost⟩ := mem_layout_of_captures hr
  rw [hg] at hlook
  cases hlook
  refine ⟨mp, hmp, hgpa, hbytes.trans hhost, ?_⟩
  rw [← hhost, hsize]
  exact hr

/-- The keys are the addresses of the layout. -/
theorem mem_keys_iff {size g : U64} : g ∈ keys size ↔ ∃ mp ∈ layout size, g = BitVec.ofNat 64 mp.gpa := by
  simp only [keys, layout, List.mem_cons, List.not_mem_nil, or_false, exists_eq_or_imp,
    exists_eq_left, BitVec.ofNat_toNat, BitVec.setWidth_eq]
  tauto

theorem Pictures.own {size : U64} {m : Machine} {snapshot : Snapshot} (h : Pictures size m snapshot)
    {mp : Mapping} (hmp : mp ∈ layout size) :
    snapshot.own (BitVec.ofNat 64 mp.gpa) = m.host mp.buf := by
  obtain ⟨mem, hlook, hbytes⟩ := h.holds _ (mem_captures (m := m) hmp)
  exact (Snapshot.own_of_lookup hlook).trans hbytes

/-! ## Restoring a picture -/

theorem toNat_ofNat_gpa {size : U64} {mp : Mapping} (h : mp ∈ layout size) :
    (BitVec.ofNat 64 mp.gpa).toNat = mp.gpa := by
  simp only [layout, List.mem_cons, List.not_mem_nil, or_false] at h
  rcases h with rfl | rfl | rfl | rfl <;> simp

theorem layout_flags {size : U64} {mp : Mapping} (h : mp ∈ layout size) : mp.flags = allFlags := by
  simp only [layout, List.mem_cons, List.not_mem_nil, or_false] at h
  rcases h with rfl | rfl | rfl | rfl <;> rfl

section Restore

variable {w : Whp} {ord : Order U64 AlignedMemory} {size : U64} {m n : Machine} {snapshot : Snapshot}

theorem mem_restored_maps {mp : Mapping} : mp ∈ (restored w ord snapshot).maps ↔
    ∃ g mem, snapshot.memoryRegions.lookup g = some mem ∧ mp = regionMapping ⟨g, mem⟩ :=
  mapsRegions_of_perm (List.Perm.refl _) mp

theorem restored_host {g : U64} {mem : AlignedMemory}
    (h : snapshot.memoryRegions.lookup g = some mem) :
    (restored w ord snapshot).host (.region g) = mem.bytes := Snapshot.own_of_lookup h

/-- Each range of the layout is restored, with its address and size, from the region at its key. -/
theorem mem_restored_of_layout (hm : WellLaidOut size m) (h : Pictures size m snapshot) {mp : Mapping}
    (hmp : mp ∈ layout size) :
    ⟨mp.gpa, mp.size, .region (BitVec.ofNat 64 mp.gpa), allFlags⟩ ∈ (restored w ord snapshot).maps := by
  obtain ⟨mem, hlook, hbytes⟩ := h.holds _ (mem_captures (m := m) hmp)
  dsimp only at hlook hbytes
  refine mem_restored_maps.mpr ⟨_, mem, hlook, ?_⟩
  rw [regionMapping_eq, hbytes, hm.full mp (by rwa [hm.maps]), toNat_ofNat_gpa hmp]

/-- No other range is. -/
theorem layout_of_mem_restored (hm : WellLaidOut size m) (h : Pictures size m snapshot)
    {mp' : Mapping} (hmp' : mp' ∈ (restored w ord snapshot).maps) :
    ∃ mp ∈ layout size, mp' = ⟨mp.gpa, mp.size, .region (BitVec.ofNat 64 mp.gpa), allFlags⟩ := by
  obtain ⟨g, mem, hlook, rfl⟩ := mem_restored_maps.mp hmp'
  obtain ⟨mp, hmp, hgpa, hbytes, -⟩ := h.of_lookup hlook
  refine ⟨mp, hmp, ?_⟩
  rw [regionMapping_eq, hbytes, hm.full mp (by rwa [hm.maps]), hgpa, BitVec.ofNat_toNat,
    BitVec.setWidth_eq]

/-- **Whatever the restored buffers have come to hold**, if it is what the layout's buffers hold,
    then the same is mapped on both sides. -/
theorem mirrors_of_buffers {m₀ : Machine} (hm₀ : WellLaidOut size m₀) (h : Pictures size m₀ snapshot)
    (hm : m.maps = layout size) (hn : n.maps = (restored w ord snapshot).maps)
    (hbuf : ∀ mp ∈ layout size, n.host (.region (BitVec.ofNat 64 mp.gpa)) = m.host mp.buf) :
    Machine.Mirrors m n ∧ Machine.Mirrors n m := by
  rw [Machine.Mirrors, Machine.Mirrors, hm, hn]
  constructor
  · -- `restore_snapshot` maps with `0x7`, as Record does
    intro mp hmp
    exact ⟨_, mem_restored_of_layout hm₀ h hmp, rfl, rfl, (layout_flags hmp).symm, hbuf mp hmp⟩
  · intro mp' hmp'
    obtain ⟨mp, hmp, rfl⟩ := layout_of_mem_restored hm₀ h hmp'
    exact ⟨mp, hmp, rfl, rfl, layout_flags hmp, (hbuf mp hmp).symm⟩

theorem restored_buffers (h : Pictures size m snapshot) : ∀ mp ∈ layout size,
    (restored w ord snapshot).host (.region (BitVec.ofNat 64 mp.gpa)) = m.host mp.buf :=
  fun _ hmp => h.own hmp

theorem restored_disjoint (hm : WellLaidOut size m) (h : Pictures size m snapshot) :
    Machine.DisjointMaps (restored w ord snapshot).maps := by
  have hmirrors := mirrors_of_buffers (n := restored w ord snapshot) hm h hm.maps rfl (restored_buffers h)
  refine hm.disjoint.of_mirrors hmirrors.2 fun mp hmp mp' hmp' hgpa => ?_
  obtain ⟨g, mem, hlook, rfl⟩ := mem_restored_maps.mp hmp
  obtain ⟨g', mem', hlook', rfl⟩ := mem_restored_maps.mp hmp'
  obtain rfl : g = g' := BitVec.eq_of_toNat_eq hgpa
  rw [hlook] at hlook'
  cases hlook'
  rfl

theorem restored_full : (restored w ord snapshot).Full := by
  intro mp hmp
  obtain ⟨g, mem, hlook, rfl⟩ := mem_restored_maps.mp hmp
  rw [regionMapping_eq]
  exact congrArg List.length (restored_host hlook)

/-- **Memory determines the buffers again**, on both sides, however far they have run. -/
theorem buffers_of_ram {m₀ : Machine} (hm₀ : WellLaidOut size m₀) (h : Pictures size m₀ snapshot)
    (hm : m₀.SameShape m) (hn : (restored w ord snapshot).SameShape n) (hram : m.ram = n.ram) :
    ∀ mp ∈ layout size, n.host (.region (BitVec.ofNat 64 mp.gpa)) = m.host mp.buf := by
  intro mp hmp
  have hm' := hm₀.sameShape hm
  have hmem : mp ∈ m.maps := by rwa [hm'.maps]
  have hmem' : ⟨mp.gpa, mp.size, .region (BitVec.ofNat 64 mp.gpa), allFlags⟩ ∈ n.maps := by
    rw [hn.maps]
    exact mem_restored_of_layout hm₀ h hmp
  refine Machine.host_eq_of_ram hm'.disjoint ?_ hram hmem hmem' rfl rfl (hm'.full mp hmem)
    (hn.full restored_full _ hmem')
  rw [hn.maps]
  exact restored_disjoint hm₀ h

theorem restored_unaliased : Machine.Unaliased (restored w ord snapshot).maps :=
  (mapsRegions_of_perm (List.Perm.refl _)).unaliased

/-- The six captured registers are the only ones in which the start differs from plain long mode. -/
theorem restored_regs {entryPoint : U64}
    (hregs : snapshot.registers.toList = captureNames.map (startRegs w size entryPoint)) :
    RegFile.write restoreNames snapshot.registers.toList (longModeRegs w) =
      startRegs w size entryPoint := by
  funext r
  rw [hregs, show captureNames = restoreNames from rfl, RegFile.write_map]
  by_cases hr : r ∈ restoreNames
  · rw [if_pos hr]
  · -- not restored: Record has not touched it since `setup_long_mode` either
    rw [if_neg hr, startRegs, RegFile.write_of_notMem]
    intro hmem
    refine hr ?_
    simp only [List.mem_cons, List.not_mem_nil, or_false] at hmem
    rcases hmem with rfl | rfl <;> decide

/-- **The restored guest is the recorded one**: every register, captured or not, and every byte. -/
theorem restored_guestEq {image : Bytes} {entryPoint : U64} (hm : WellLaidOut size (guest image))
    (h : Pictures size (guest image) snapshot)
    (hregs : snapshot.registers.toList = captureNames.map (startRegs w size entryPoint)) :
    GuestEq ⟨0⟩ ((guest image).setVp 0 ⟨startRegs w size entryPoint, 0⟩)
      (restored w ord snapshot) where
  regs := by
    rw [Machine.setVp_vps_self]
    simp only [restored, Function.update_self]
    exact (restored_regs hregs).symm
  ram := by
    have hmirrors := mirrors_of_buffers (n := restored w ord snapshot) hm h hm.maps rfl (restored_buffers h)
    rw [Machine.setVp_ram]
    exact Machine.ram_eq_of_mirrors hm.disjoint (restored_disjoint hm h) hmirrors.1 hmirrors.2
  extendedVmExits := rfl
  unaliased := ⟨guest_unaliased image, restored_unaliased⟩

end Restore

/-! ## Replaying a run from the recorded start -/

/-- Replay sets the six captured registers in one call, which Record does not make. -/
def RestoreSucceeds (w : Whp) (rec : Recording) : Prop :=
  w.fault (.setRegisters 0 restoreNames (restoreNames.map (rec.start.vps 0).regs) (longModeRegs w)) =
    none

theorem MapCallsSucceed.captured {w : Whp} {size : U64} (h : MapCallsSucceed w size) (m : Machine) :
    ∀ r ∈ captures size m, w.fault (.mapGpaRange r.1 (BitVec.ofNat 64 r.2.2) allFlags) = none := by
  obtain ⟨-, himage, hstack, hnull, hpt⟩ := h
  intro r hr
  simp only [captures, List.mem_cons, List.not_mem_nil, or_false] at hr
  rcases hr with rfl | rfl | rfl | rfl
  · exact hnull
  · dsimp only
    rwa [BitVec.ofNat_toNat, BitVec.setWidth_eq]
  · exact hstack
  · exact hpt

section Run

variable {w : Whp} {sim : SimAnswers} {hasher : Bytes → U64} {ordHash ordWrite : Order U64 AlignedMemory}
  {fuel : Nat} {image : Bytes} {entryPoint : U64} {rec : Recording}

/-- An image that fits below the page tables is well laid out. -/
theorem Recorded.wellLaidOut (hrec : Recorded w sim hasher ordHash ordWrite fuel image entryPoint rec)
    {loader : PeLoader} (himage : loader.mapIntoMemory = .ok image)
    (hle : rec.size.toNat ≤ 0xF0000) : WellLaidOut rec.size (guest image) := by
  rw [hrec.size] at hle ⊢
  exact wellLaidOut_guest himage hle

theorem Recorded.pictures (hrec : Recorded w sim hasher ordHash ordWrite fuel image entryPoint rec)
    (hm : WellLaidOut rec.size (guest image)) : Pictures rec.size (guest image) rec.snapshot := by
  obtain ⟨snap, hsnap, hcapture⟩ := hrec.snapshot
  exact pictures_of_capture hm hsnap hcapture

theorem Recorded.registers (hrec : Recorded w sim hasher ordHash ordWrite fuel image entryPoint rec) :
    rec.snapshot.registers.toList = captureNames.map (rec.start.vps 0).regs := by
  obtain ⟨snap, -, hcapture⟩ := hrec.snapshot
  exact (Snapshot.captureRegisters_eq_ok hcapture).2.1

/-- Replay restores what Record has captured. -/
theorem Recorded.restores (hrec : Recorded w sim hasher ordHash ordWrite fuel image entryPoint rec)
    (hm : WellLaidOut rec.size (guest image)) (hrestore : RestoreSucceeds w rec)
    (ordRestore : Order U64 AlignedMemory) : RestoreCallsSucceed w ordRestore rec.snapshot := by
  constructor
  · rintro ⟨g, mem⟩ he
    obtain ⟨mp, hmp, -, hbytes, hcap⟩ := (hrec.pictures hm).of_lookup
      ((ordRestore.lists rec.snapshot.memoryRegions).mem_iff.mp he)
    have hcall := hrec.mapCalls.captured (guest image) _ hcap
    rw [← hm.full mp (by rwa [hm.maps]), ← hbytes] at hcall
    exact hcall
  · rw [hrec.registers]
    exact hrestore

/-- **A run of the recorder from the recorded start, replayed.**  Whatever `sim` answers its exits
    with, the trace of the run takes the replayer to a guest that looks like the recorder's and to
    buffers that hold what the recorder's hold. -/
theorem Recorded.replays (hrec : Recorded w sim hasher ordHash ordWrite fuel image entryPoint rec)
    (hm : WellLaidOut rec.size (guest image)) (hrestore : RestoreSucceeds w rec)
    {sim' : SimAnswers} {fuel' : Nat} {stop : Stopped}
    (hrun : RecordEngine.run w sim' ⟨0⟩ fuel' rec.start = .ok stop)
    (hfinal : w.fault (.getRegisters 0 restoreNames (stop.state.machine.vps 0).regs) = none)
    (ordRestore ordHash' : Order U64 AlignedMemory) (passes : Nat) (hash : U64) :
    ∃ rep, Replays w hasher ordRestore ordHash' (passes + 1) rec.snapshot stop.state.logger.events hash
        rep ∧
      GuestEq ⟨0⟩ rec.start rep.start ∧ GuestEq ⟨0⟩ stop.state.machine rep.finish ∧
      ∀ mp ∈ layout rec.size,
        rep.finish.host (.region (BitVec.ofNat 64 mp.gpa)) = stop.state.machine.host mp.buf := by
  have hpic := hrec.pictures hm
  have hregs := hrec.registers
  rw [hrec.start, Machine.setVp_vps_self] at hregs
  have hstart : GuestEq ⟨0⟩ rec.start (restored w ordRestore rec.snapshot) := by
    rw [hrec.start]
    exact restored_guestEq hm hpic hregs
  -- the events, then the last exit
  obtain ⟨k, -, s, hs, hstop⟩ := RecordEngine.run_eq_ok.mp hrun
  obtain ⟨hlast, -, hstate⟩ := RecordEngine.body_eq_leave hstop
  obtain ⟨n, hrel, hevents⟩ :=
    (Lockstep.guestEq w ⟨0⟩).replays_after engine_activeVcpu hstart hs passes
  obtain ⟨n', hlast', hrel'⟩ := (Lockstep.guestEq w ⟨0⟩).run hrel hlast
  have hlog : stop.state.logger.events = s.logger.events := by rw [hstate]
  have hfinish : n' = lastRun w ⟨0⟩ n := by rw [lastRun, hlast']
  have hfault : w.fault (.getRegisters 0 restoreNames (n'.vps 0).regs) = none := by
    rw [← hrel'.regs]
    exact hfinal
  obtain ⟨final, hfinal'⟩ := Snapshot.captureRegisters_of_fault ⟨0⟩ (by decide) hfault
    rec.snapshot
  let rep : Replayed := ⟨restored w ordRestore rec.snapshot, n', List.replicate k none, final,
    final.hashState hasher ordHash' fun gpa => n'.host (.region gpa), hash⟩
  have hrep : Replays w hasher ordRestore ordHash' (passes + 1) rec.snapshot
      stop.state.logger.events hash rep :=
    ⟨hrec.mapCalls.1, hrec.vcpuCalls, hrec.restores hm hrestore ordRestore, rfl,
      ⟨n, by rw [hlog]; exact hevents, hfinish⟩, hfinal', rfl, rfl⟩
  rw [hrec.start] at hrun
  exact ⟨rep, hrep, hstart, hrel',
    buffers_of_ram hm hpic (guest_sameShape hrun) hrep.sameShape hrel'.ram⟩

/-! ## The two hashes -/

/-- What `hash_state` feeds the hasher at the end of Record. -/
def recordedStream (ordHash : Order U64 AlignedMemory) (rec : Recording) : Bytes :=
  rec.final.hashStream ordHash rec.final.own

/-- What it feeds the hasher at the end of Replay. -/
def replayedStream (ordHash : Order U64 AlignedMemory) (rep : Replayed) : Bytes :=
  rep.final.hashStream ordHash fun g => rep.finish.host (.region g)

/-- The named registers agree in their 64-bit part. -/
def RegsAgree (names : List Reg) (m n : Machine) : Prop :=
  ∀ r ∈ names, reg64 ((m.vps 0).regs r) = reg64 ((n.vps 0).regs r)

/-- All that goes into the two hashes agrees: six registers, and what is in the buffers. -/
structure HashedAgree (rec : Recording) (rep : Replayed) : Prop where
  regs : RegsAgree captureNames rec.stopped.state.machine rep.finish
  bytes : ∀ g ∈ keys rec.size, rec.final.own g = rep.finish.host (.region g)

theorem Recorded.sameShape (hrec : Recorded w sim hasher ordHash ordWrite fuel image entryPoint rec) :
    (guest image).SameShape rec.stopped.state.machine := by
  have hrun := hrec.run
  rw [hrec.start] at hrun
  exact guest_sameShape hrun

theorem Recorded.finalRegisters
    (hrec : Recorded w sim hasher ordHash ordWrite fuel image entryPoint rec) :
    rec.final.registers.toList = captureNames.map (rec.stopped.state.machine.vps 0).regs := by
  obtain ⟨snap, -, hcapture⟩ := hrec.final
  exact (Snapshot.captureRegisters_eq_ok hcapture).2.1

/-- Both snapshots of a recording have the keys of the layout, collisions or not. -/
theorem Recorded.mem_regions (hrec : Recorded w sim hasher ordHash ordWrite fuel image entryPoint rec)
    (hlt : image.length < 2 ^ 64) {g : U64} :
    (g ∈ rec.snapshot.memoryRegions ↔ g ∈ keys rec.size) ∧
      (g ∈ rec.final.memoryRegions ↔ g ∈ keys rec.size) := by
  obtain ⟨snap, hsnap, hcapture⟩ := hrec.snapshot
  obtain ⟨snap', hsnap', hcapture'⟩ := hrec.final
  have hmaps : (guest image).maps = layout rec.size := congrArg layout hrec.size.symm
  rw [(Snapshot.captureRegisters_eq_ok hcapture).1, (Snapshot.captureRegisters_eq_ok hcapture').1]
  exact ⟨captureMemoryLayout_keys hmaps (guest_full hlt) hsnap,
    captureMemoryLayout_keys (hrec.sameShape.maps.trans hmaps)
      (hrec.sameShape.full (guest_full hlt)) hsnap'⟩

variable {ordRestore ordHash' : Order U64 AlignedMemory} {passes : Nat} {events : List TraceEvent}
  {rep : Replayed}

/-- What agrees is hashed alike. -/
theorem HashedAgree.streams (h : HashedAgree rec rep)
    (hrec : Recorded w sim hasher ordHash ordWrite fuel image entryPoint rec)
    (hlt : image.length < 2 ^ 64)
    (hrep : Replays w hasher ordRestore ordHash' passes rec.snapshot events rec.hash rep) :
    recordedStream ordHash rec = replayedStream ordHash' rep := by
  obtain ⟨hregions, hregs, -⟩ := Snapshot.captureRegisters_eq_ok hrep.final
  refine Snapshot.hashStream_congr ?_ (fun g => ?_) fun g hg => ?_
  · rw [hregs, hrec.finalRegisters, List.map_map, List.map_map]
    exact List.map_congr_left fun r hr => h.regs r hr
  · rw [hregions, (hrec.mem_regions hlt).1, (hrec.mem_regions hlt).2]
  · exact h.bytes g ((hrec.mem_regions hlt).2.mp hg)

theorem HashedAgree.verdict (h : HashedAgree rec rep)
    (hrec : Recorded w sim hasher ordHash ordWrite fuel image entryPoint rec)
    (hlt : image.length < 2 ^ 64)
    (hrep : Replays w hasher ordRestore ordHash' passes rec.snapshot events rec.hash rep) :
    rep.replayHash = rep.expectedHash := by
  rw [hrep.expectedHash, hrec.hash, hrep.replayHash]
  exact congrArg hasher (h.streams hrec hlt hrep).symm

end Run

/-! ## Recording, then replaying -/

/-- **End-to-end verification succeeds.**  Whatever the guest does, if its recording completes and
    its image is small enough for the layout, then replaying the archive, with any iteration orders
    and any bound on the passes for an event, starts with the registers and the memory the recorder
    started with and ends with the expected hash. -/
theorem replay_verifies {w : Whp} {sim : SimAnswers} {peParse : PeParser} {hasher : Bytes → U64}
    {ordHash ordWrite : Order U64 AlignedMemory} {fuel : Nat} {target : Bytes} {rec : Recording}
    (hrecord : record w sim peParse hasher ordHash ordWrite fuel target = .ok rec)
    (hsize : rec.size.toNat ≤ 0xF0000) (hrestore : RestoreSucceeds w rec)
    (ordRestore ordHash' : Order U64 AlignedMemory) (passes : Nat) :
    ∃ rep, replay w hasher ordRestore ordHash' (passes + 1) rec.archive = .ok rep ∧
      rep.replayHash = rep.expectedHash ∧
      (rep.start.vps 0).regs = (rec.start.vps 0).regs ∧ rep.start.ram = rec.start.ram := by
  obtain ⟨loader, image, -, himage, hrec⟩ := record_eq_ok.mp hrecord
  have hm := hrec.wellLaidOut himage hsize
  obtain ⟨fin, hfin, hcapture⟩ := hrec.final
  obtain ⟨rep, hrep, hstart, hfinish, hbuf⟩ := hrec.replays hm hrestore hrec.run
    (Snapshot.captureRegisters_eq_ok hcapture).2.2 ordRestore ordHash' passes rec.hash
  have hagree : HashedAgree rec rep := by
    refine ⟨fun r _ => by rw [hfinish.regs], fun g hg => ?_⟩
    -- the final snapshot is a picture of the layout too
    obtain ⟨mp, hmp, rfl⟩ := mem_keys_iff.mp hg
    rw [(pictures_of_capture (hm.sameShape hrec.sameShape) hfin hcapture).own hmp, hbuf mp hmp]
  have hverdict := hagree.verdict hrec (size_of_image himage).2.1 hrep
  refine ⟨rep, bind_eq_ok.mpr ⟨rep, ?_, by rw [if_pos hverdict]; rfl⟩, hverdict, hstart.regs.symm,
    hstart.ram.symm⟩
  have hdecode := decode_written ordWrite rec.snapshot rec.events rec.hash
  rw [← hrec.archive] at hdecode
  rw [replayRun_eq_ok hdecode (by rw [hrec.registers]; rfl), hrec.events]
  exact hrep

/-- Where no call fails, an image is recorded whenever the engine comes to a stop. -/
theorem record_of_run {w : Whp} (hw : ∀ c, w.fault c = none) {sim : SimAnswers} {pe : Pe}
    {rawBytes image : Bytes} (himage : PeLoader.mapIntoMemory ⟨pe, rawBytes⟩ = .ok image)
    {fuel : Nat} {stop : Stopped}
    (hrun : RecordEngine.run w sim ⟨0⟩ fuel ((guest image).setVp 0
      ⟨startRegs w (BitVec.ofNat 64 image.length) (pe.entry.setWidth 64), 0⟩) = .ok stop)
    (hevents : stop.state.logger.events.length < 2 ^ 64) (hasher : Bytes → U64)
    (ordHash ordWrite : Order U64 AlignedMemory) :
    ∃ rec, record w sim (fun _ => .ok pe) hasher ordHash ordWrite fuel rawBytes = .ok rec ∧
      Recorded w sim hasher ordHash ordWrite fuel image (pe.entry.setWidth 64) rec ∧
      rec.stopped = stop := by
  obtain ⟨-, hlt, -, hpos⟩ := size_of_image himage
  have hlen := (PeLoader.length_mapIntoMemory himage).1
  have hround := PeLoader.toNat_alignedSize pe
  have hheader : (pe.sizeOfImage.getD 0).toNat < 2 ^ 32 := (pe.sizeOfImage.getD 0).isLt
  have hsize : (BitVec.ofNat 64 image.length : U64).toNat = image.length := by
    rw [BitVec.toNat_ofNat, Nat.mod_eq_of_lt hlt]
  have hshape := guest_sameShape hrun
  -- both captures succeed, since a 32-bit size can be allocated
  have hcapture : ∀ m, m.maps = (guest image).maps → m.Full → ∀ m', ∃ snap snapshot,
      captureMemoryLayout (BitVec.ofNat 64 image.length) m = .ok snap ∧
      snap.captureRegisters w ⟨0⟩ captureNames m' = .ok snapshot := by
    intro m hmaps hfull m'
    obtain ⟨snap, hsnap⟩ := captureMemoryLayout_of_size hmaps hfull (by omega)
      (by rw [hsize, maxLayoutSize]; dsimp only at hlen; omega)
    obtain ⟨snapshot, hregs⟩ := Snapshot.captureRegisters_of_fault ⟨0⟩
      (show captureNames.length < 2 ^ 64 by decide) (hw _) snap
    exact ⟨snap, snapshot, hsnap, hregs⟩
  obtain ⟨snap, snapshot, hsnap, hregs⟩ := hcapture (guest image) rfl (guest_full hlt)
    ((guest image).setVp 0 ⟨startRegs w (BitVec.ofNat 64 image.length) (pe.entry.setWidth 64), 0⟩)
  obtain ⟨fin, final, hfin, hfinal⟩ := hcapture stop.state.machine hshape.maps
    (hshape.full (guest_full hlt)) stop.state.machine
  let events : Vec TraceEvent := ⟨stop.state.logger.events, hevents⟩
  let hash := final.hashState hasher ordHash final.own
  have hrec : Recorded w sim hasher ordHash ordWrite fuel image (pe.entry.setWidth 64)
      ⟨BitVec.ofNat 64 image.length, _, stop, snapshot, final, events, hash,
        encode ordWrite snapshot events hash⟩ :=
    ⟨rfl, ⟨⟨hw _, hw _, hw _, hw _⟩, hw _, hw _, hw _, hw _⟩, ⟨hw _, hw _⟩, hw _, rfl,
      ⟨snap, hsnap, hregs⟩, hrun, ⟨fin, hfin, hfinal⟩, rfl, rfl, rfl⟩
  exact ⟨_, record_eq_ok.mpr ⟨⟨pe, rawBytes⟩, image, rfl, himage, hrec⟩, hrec, rfl⟩

/-! ## A recording, replayed -/

/-- RDTSC answered with `x`. -/
def answering (x : U64) : SimAnswers := { simulated with rdtsc := fun _ => (x, 0) }

/-- The sample guest as its recording starts. -/
def sampleStart : Machine where
  vps := Function.update (fun _ => ⟨fun _ => 0, 0⟩) 0 ⟨startRegs SampleCpu.whp 0x1000 0, 0⟩
  maps := layout 0x1000
  host := guestHost sampleImage
  extendedVmExits := VmPartition.interceptions

theorem sampleImage_size : BitVec.ofNat 64 sampleImage.length = (0x1000 : U64) := by
  rw [sampleImage_length]
  rfl

theorem sampleStart_eq :
    sampleStart = (guest sampleImage).setVp 0 ⟨startRegs SampleCpu.whp 0x1000 0, 0⟩ := by
  rw [guest, sampleImage_size]
  rfl

/-- What the sample guest comes to when RDTSC is answered with `x`: one event, RIP behind the HLT,
    `x` in RAX, memory as it was. -/
structure SampleRun (x : U64) (stop : Stopped) : Prop where
  run : RecordEngine.run SampleCpu.whp (answering x) ⟨0⟩ 2 sampleStart = .ok stop
  events : stop.state.logger.events = [⟨0, .rdtsc x 0⟩]
  captured : captureNames.map (stop.state.machine.vps 0).regs =
    captureNames.map (RegFile.write [.rip] [ofReg64 0x100003] (startRegs SampleCpu.whp 0x1000 0))
  rax : reg64 ((stop.state.machine.vps 0).regs .rax) = x
  host : stop.state.machine.host = guestHost sampleImage

theorem sample_run : ∃ stop, SampleRun 0x1000 stop := by
  refine ⟨_, rfl, ?_, ?_, ?_, ?_⟩ <;> rfl

/-- A hasher to try things with. -/
def sampleHasher (bytes : Bytes) : U64 := bytes.foldl (fun h b => 31 * h + b.setWidth 64) 0

/-- The sample guest can be recorded. -/
theorem sample_record (ordHash ordWrite : Order U64 AlignedMemory) :
    ∃ rec, record SampleCpu.whp simulated (fun _ => .ok samplePe) sampleHasher ordHash ordWrite 2
        sampleFile = .ok rec ∧
      rec.size = 0x1000 ∧ rec.start = sampleStart ∧ SampleRun 0x1000 rec.stopped := by
  obtain ⟨stop, hstop⟩ := sample_run
  have hrun := hstop.run
  rw [show answering 0x1000 = simulated from rfl, sampleStart_eq, ← sampleImage_size] at hrun
  obtain ⟨rec, hrecord, hrec, rfl⟩ := record_of_run (fun _ => rfl) sample_mapIntoMemory hrun
    (by rw [hstop.events]; exact Nat.one_lt_two_pow (by decide)) sampleHasher ordHash ordWrite
  refine ⟨rec, hrecord, hrec.size.trans sampleImage_size, ?_, hstop⟩
  rw [hrec.start, hrec.size, sampleImage_size, sampleStart_eq]
  rfl

/-- The sample guest, recorded and replayed. -/
theorem replay_verifies_sample : ∃ rec rep,
    record SampleCpu.whp simulated (fun _ => .ok samplePe) sampleHasher (HashMap.someOrder _ _)
        (HashMap.someOrder _ _) 2 sampleFile = .ok rec ∧
      replay SampleCpu.whp sampleHasher (HashMap.someOrder _ _) (HashMap.someOrder _ _) 1 rec.archive =
        .ok rep ∧
      rep.replayHash = rep.expectedHash := by
  obtain ⟨rec, hrec, hsize, -, -⟩ := sample_record (HashMap.someOrder _ _) (HashMap.someOrder _ _)
  obtain ⟨rep, hrep, hverdict, -, -⟩ := replay_verifies hrec (by rw [hsize]; decide) rfl
    (HashMap.someOrder _ _) (HashMap.someOrder _ _) 0
  exact ⟨rec, rep, hrec, hrep, hverdict⟩

end Vestigium.Cli

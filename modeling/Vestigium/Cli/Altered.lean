/-
  ALTERED ARCHIVES — a guest whose replay is confirmed whatever it is given.

  The tripwire guest, recorded with a blank image, ends with all that is hashed as it was at the
  start; and so it does when it is replayed with any events whatever (`tripwire_replay`).  So its
  verdict is always "confirmed", while the mark in R14 tells the recorded payloads from all others.

  An image too large for the layout needs no altered events.  The ranges overlap then, and a replay
  that maps the page tables first has them hidden by what it maps later (`ram_ne_of_large`).
-/
import Vestigium.Cli.Verify
import Vestigium.Engine.Tripwire

namespace Vestigium.Cli

open Codec
open Vestigium.HashMap (Order Entry)

/-! ## Replaying where no call fails -/

section Replay

variable {w : Whp} {sim : SimAnswers} {hasher : Bytes → U64}
  {ordHash ordWrite ordRestore : Order U64 AlignedMemory} {fuel passes : Nat} {image : Bytes}
  {entryPoint : U64} {rec : Recording}

/-- A recording is replayed with any events that the engine gets through. -/
theorem replayRun_of_events (hw : ∀ c, w.fault c = none)
    (hrec : Recorded w sim hasher ordHash ordWrite fuel image entryPoint rec) {events : Vec TraceEvent}
    {m : Machine} {lines : List (Option Line)} (hevents : engine.replayEvents w passes events.toList
      (restored w ordRestore rec.snapshot) = .ok (m, lines))
    (ordWrite' ordHash' : Order U64 AlignedMemory) :
    ∃ rep, replayRun w hasher ordRestore ordHash' passes
        (encode ordWrite' rec.snapshot events rec.hash) = .ok rep ∧
      Replays w hasher ordRestore ordHash' passes rec.snapshot events.toList rec.hash rep ∧
      rep.finish = lastRun w ⟨0⟩ m := by
  obtain ⟨final, hfinal⟩ := Snapshot.captureRegisters_of_fault ⟨0⟩
    (show restoreNames.length < 2 ^ 64 by decide)
    (hw (.getRegisters 0 restoreNames ((lastRun w ⟨0⟩ m).vps 0).regs)) rec.snapshot
  have hrep : Replays w hasher ordRestore ordHash' passes rec.snapshot events.toList rec.hash
      ⟨restored w ordRestore rec.snapshot, lastRun w ⟨0⟩ m, lines, final,
        final.hashState hasher ordHash' fun gpa => (lastRun w ⟨0⟩ m).host (.region gpa), rec.hash⟩ :=
    ⟨⟨hw _, hw _, hw _, hw _⟩, ⟨hw _, hw _⟩, ⟨fun _ _ => hw _, hw _⟩, rfl, ⟨m, hevents, rfl⟩, hfinal,
      rfl, rfl⟩
  exact ⟨_, (replayRun_eq_ok (decode_written ordWrite' rec.snapshot events rec.hash)
    (by rw [hrec.registers]; rfl)).mpr hrep, hrep, rfl⟩

end Replay

/-! ## The tripwire guest, recorded and replayed -/

/-- The header of a blank image as large as the one of `pe`. -/
def blankPe (pe : Pe) : Pe := ⟨pe.sizeOfImage, 0, []⟩

def blankImage (size : U64) : Bytes := List.replicate size.toNat 0

/-- The registers a blank image of `size` bytes starts with, on a processor that resets to zero. -/
def blankStart (size : U64) : RegFile := startRegs SampleCpu.whp size 0

/-- The tripwire guest in such an image. -/
def tripwire (evs : List EventType) (size : U64) : Whp := Tripwire.whp evs (blankStart size)

theorem blank_mapIntoMemory {pe : Pe} (hpos : 0 < (PeLoader.alignedSize pe).toNat) :
    PeLoader.mapIntoMemory ⟨blankPe pe, []⟩ = .ok (blankImage (PeLoader.alignedSize pe)) :=
  if_pos hpos

theorem blankImage_size (size : U64) : BitVec.ofNat 64 (blankImage size).length = size := by
  rw [blankImage, List.length_replicate, BitVec.ofNat_toNat, BitVec.setWidth_eq]

theorem blankStart_fresh (size : U64) : Tripwire.Fresh (blankStart size) := ⟨rfl, rfl⟩

section Tripwire

variable {sim : SimAnswers} {evs : List EventType} {size : U64} {hasher : Bytes → U64}
  {ordHash ordWrite : Order U64 AlignedMemory} {fuel : Nat} {rec : Recording}

theorem tripwire_record {pe : Pe} (hpos : 0 < (PeLoader.alignedSize pe).toNat)
    (hlen : evs.length < 2 ^ 64) (hevs : RecordEngine.Recordable sim evs) (hasher : Bytes → U64)
    (ordHash ordWrite : Order U64 AlignedMemory) :
    ∃ rec, record (tripwire evs (PeLoader.alignedSize pe)) sim (fun _ => .ok (blankPe pe)) hasher
        ordHash ordWrite (evs.length + 1) [] = .ok rec ∧
      Recorded (tripwire evs (PeLoader.alignedSize pe)) sim hasher ordHash ordWrite (evs.length + 1)
        (blankImage (PeLoader.alignedSize pe)) 0 rec ∧
      rec.events.toList.map (·.event) = evs ∧
      Tripwire.OnTop (guest (blankImage (PeLoader.alignedSize pe)))
        (Tripwire.marked (blankStart (PeLoader.alignedSize pe)) 1) rec.stopped.state.machine := by
  obtain ⟨stop, hrun, hlog, hon⟩ := Tripwire.record_ends (blankStart_fresh (PeLoader.alignedSize pe))
    hlen hevs (show Tripwire.OnTop (guest (blankImage (PeLoader.alignedSize pe))) _ _ from ⟨0, rfl⟩)
  have hlog' : stop.state.logger.events.length < 2 ^ 64 := by
    rwa [← List.length_map (f := (·.event)), hlog]
  obtain ⟨rec, hrecord, hrec, rfl⟩ := record_of_run (w := tripwire evs (PeLoader.alignedSize pe))
    (fun _ => rfl) (blank_mapIntoMemory hpos) (by rw [blankImage_size]; exact hrun) hlog' hasher
    ordHash ordWrite
  exact ⟨rec, hrecord, hrec, by rw [hrec.events, hlog], hon⟩

/-- The guest has changed nothing in memory, so the two snapshots of its recording are alike. -/
theorem tripwire_own (hrec : Recorded (tripwire evs size) sim hasher ordHash ordWrite fuel
      (blankImage size) 0 rec)
    (hon : Tripwire.OnTop (guest (blankImage size)) (Tripwire.marked (blankStart size) 1)
      rec.stopped.state.machine) : rec.final.own = rec.snapshot.own := by
  obtain ⟨snap, hsnap, hregs⟩ := hrec.snapshot
  obtain ⟨fin, hfin, hregs'⟩ := hrec.final
  have hcaptures : captures rec.size rec.stopped.state.machine =
      captures rec.size (guest (blankImage size)) := by
    rw [captures, captures, hon.host]
  rw [captureMemoryLayout, hcaptures] at hfin
  obtain rfl : fin = snap := Except.ok.inj (hfin.symm.trans hsnap)
  funext g
  rw [Snapshot.own, Snapshot.own, (Snapshot.captureRegisters_eq_ok hregs).1,
    (Snapshot.captureRegisters_eq_ok hregs').1]

/-- **Whatever it is replayed with**, all that is hashed comes out as recorded; memory is the restored
    one, and the recorded mark is there only if the payloads are the recorded ones. -/
theorem tripwire_replay (hlen : evs.length < 2 ^ 64)
    (hrec : Recorded (tripwire evs size) sim hasher ordHash ordWrite fuel (blankImage size) 0 rec)
    (hon : Tripwire.OnTop (guest (blankImage size)) (Tripwire.marked (blankStart size) 1)
      rec.stopped.state.machine) (events : Vec TraceEvent)
    (ordRestore ordWrite' ordHash' : Order U64 AlignedMemory) :
    ∃ rep, replayRun (tripwire evs size) hasher ordRestore ordHash' 2
        (encode ordWrite' rec.snapshot events rec.hash) = .ok rep ∧
      Replays (tripwire evs size) hasher ordRestore ordHash' 2 rec.snapshot events.toList rec.hash
        rep ∧
      HashedAgree rec rep ∧
      rep.finish.ram = (restored (tripwire evs size) ordRestore rec.snapshot).ram ∧
      (reg64 ((rep.finish.vps 0).regs .r14) = 1 → events.toList.map (·.event) = evs) := by
  have hregs : ((restored (tripwire evs size) ordRestore rec.snapshot).vps 0).regs =
      blankStart size := by
    have hstart := hrec.registers
    rw [hrec.start, Machine.setVp_vps_self, hrec.size, blankImage_size] at hstart
    exact restored_regs hstart
  have hfirst : Tripwire.OnTop (restored (tripwire evs size) ordRestore rec.snapshot)
      (blankStart size) (restored (tripwire evs size) ordRestore rec.snapshot) :=
    ⟨_, by rw [← hregs]; exact (Machine.setVp_self _ _).symm⟩
  obtain ⟨m', lines, ctx, m'', regs, hreplay, hrun, hon', hframe, hmark⟩ := Tripwire.replay_ends
    (blankStart_fresh size) hlen engine_activeVcpu hfirst 0 events.toList
  obtain ⟨rep, hok, hrep, hfinish⟩ := replayRun_of_events (w := tripwire evs size) (fun _ => rfl)
    hrec hreplay ordWrite' ordHash'
  have hlast : rep.finish = m'' := by
    rw [hfinish, lastRun, show VmRunner.run (tripwire evs size) ⟨0⟩ m' = _ from hrun]
  refine ⟨rep, hok, hrep, ⟨fun r hr => ?_, fun g _ => ?_⟩, ?_, fun h => hmark ?_⟩
  · have hne : r ≠ .r14 ∧ r ≠ .r15 ∧ r ≠ .rcx := by
      revert r
      decide
    rw [hon.regs, hlast, hon'.regs, hframe r hne.1 hne.2.1 hne.2.2, Tripwire.marked,
      Function.update_of_ne hne.1]
  · rw [hlast, hon'.host, tripwire_own hrec hon]
    rfl
  · obtain ⟨done, hm''⟩ := hon'
    rw [hlast, hm'', Machine.setVp_ram]
  · rwa [hlast, hon'.regs] at h

end Tripwire

/-! ## Images that do not fit -/

section Large

variable {size : U64}

/-- The map of the blank guest. -/
theorem blank_maps (halign : size.toNat % 4096 = 0) (hle : size.toNat ≤ 2 ^ 32) :
    (guest (blankImage size)).maps =
      [⟨0x200000, 0x3000, .pageTable, allFlags⟩, ⟨0, 0x1000, .nullPage, allFlags⟩,
       ⟨0x100000 + size.toNat, 0x10000, .stack, allFlags⟩,
       ⟨0x100000, size.toNat, .image, allFlags⟩] := by
  rw [← layout_gpas size (by omega) halign, guest]
  exact congrArg layout (blankImage_size size)

/-- The page tables are not blank. -/
theorem pageTable_head : (PageTable.createIdentityMapping ptGpa).memory[0]? = some 0x03 := by
  have hhead := PageTable.getElem?_flatMap_putWord (PageTable.qwords ptGpa) 0 0 (by decide)
  rw [PageTable.getElem?_qwords ptGpa (by decide), Nat.mul_zero, Nat.add_zero] at hhead
  rw [PageTable.createIdentityMapping, hhead]
  decide

/-- Everything else is. -/
theorem zero_of_capturedAt {g : U64} (hg : ptGpa ≠ g) {bytes : Bytes}
    (h : capturedAt g (captures size (guest (blankImage size))) = some bytes) :
    ∀ b ∈ bytes, b = 0 := by
  have hzero : ∀ n, ∀ b ∈ List.replicate n (0 : U8), b = 0 := fun n b hb =>
    (List.mem_replicate.mp hb).2
  obtain ⟨r, hr, hat, rfl⟩ := mem_of_capturedAt h
  simp only [captures, List.mem_cons, List.not_mem_nil, or_false] at hr
  rcases hr with rfl | rfl | rfl | rfl
  · exact hzero nullSize
  · exact hzero size.toNat
  · exact hzero stackSize
  · exact absurd hat hg

/-- The page tables are captured last. -/
theorem capturedAt_ptGpa : capturedAt ptGpa (captures size (guest (blankImage size))) =
    some (PageTable.createIdentityMapping ptGpa).memory := by
  simp [captures, capturedAt, guest, guestHost]

section Restored

variable {snapshot : Snapshot} (hsnap : ∀ g, (snapshot.memoryRegions.lookup g).map (·.bytes) =
  capturedAt g (captures size (guest (blankImage size))))
include hsnap

theorem lookup_of_capturedAt {g : U64} {bytes : Bytes}
    (h : capturedAt g (captures size (guest (blankImage size))) = some bytes) :
    ∃ mem, snapshot.memoryRegions.lookup g = some mem ∧ mem.bytes = bytes :=
  Option.map_eq_some_iff.mp ((hsnap g).trans h)

/-- **Page tables that are mapped first are hidden** by any other region that covers their address. -/
theorem ram_of_hidden (w : Whp) {g : U64} {bytes : Bytes} (hg : ptGpa ≠ g)
    (hcap : capturedAt g (captures size (guest (blankImage size))) = some bytes)
    (hcov : g.toNat ≤ 0x200000 ∧ 0x200000 < g.toNat + bytes.length) :
    ∃ ord, (restored w ord snapshot).ram 0x200000 = some (0, allFlags) := by
  obtain ⟨pt, hpt, -⟩ := lookup_of_capturedAt hsnap capturedAt_ptGpa
  obtain ⟨mem, hmem, rfl⟩ := lookup_of_capturedAt hsnap hcap
  obtain ⟨ord, rest, hord⟩ := HashMap.exists_order_first hpt
  refine ⟨ord, ?_⟩
  have hlists := ord.lists snapshot.memoryRegions
  rw [hord] at hlists
  -- the region is among those mapped later
  have hrest : ⟨g, mem⟩ ∈ rest := by
    rcases List.mem_cons.mp (hlists.mem_iff.mpr hmem) with h | h
    · exact absurd (congrArg Sigma.fst h).symm hg
    · exact h
  have hmaps : (restored w ord snapshot).maps =
      (rest.map regionMapping).reverse ++ [regionMapping ⟨ptGpa, pt⟩] := by
    rw [restored, hord, List.map_cons, List.reverse_cons]
  have hfound : ((rest.map regionMapping).reverse.find? (·.covers 0x200000)).isSome = true := by
    rw [List.find?_isSome]
    refine ⟨regionMapping ⟨g, mem⟩, List.mem_reverse.mpr (List.mem_map_of_mem hrest), ?_⟩
    rw [regionMapping_eq]
    exact Mapping.covers_iff.mpr hcov
  obtain ⟨mp, hmp⟩ := Option.isSome_iff_exists.mp hfound
  have hback : (restored w ord snapshot).backing 0x200000 = some mp := by
    rw [Machine.backing, hmaps, List.find?_append, hmp, Option.some_or]
  obtain ⟨⟨g', mem'⟩, hrest', rfl⟩ :=
    List.mem_map.mp (List.mem_reverse.mp (List.mem_of_find?_eq_some hmp))
  have hlook' := hlists.mem_iff.mp (List.mem_cons_of_mem _ hrest')
  have hg' : ptGpa ≠ g' := by
    rintro rfl
    have hnodup := hlists.nodup
    rw [List.map_cons, List.nodup_cons] at hnodup
    exact hnodup.1 (List.mem_map.mpr ⟨⟨ptGpa, mem'⟩, hrest', rfl⟩)
  have hcov' := (Machine.backing_mem hback).2
  rw [Machine.ram_of_backing hback]
  rw [regionMapping_eq] at hcov' ⊢
  dsimp only at hcov' ⊢
  rw [restored_host hlook', List.getElem?_eq_getElem (show _ < mem'.bytes.length by omega),
    zero_of_capturedAt hg' (by rw [← hsnap g', hlook']; rfl) _ (List.getElem_mem _)]
  rfl

/-- Nothing is restored above the page tables when the stack has their key. -/
theorem backing_of_same_key (w : Whp) (ord : Order U64 AlignedMemory)
    (hkeys : size.toNat = 0x100000) : (restored w ord snapshot).backing 0x203000 = none := by
  have hstack : (stackBaseGpa size).toNat = 0x200000 := by
    rw [toNat_stackBaseGpa (by omega)]
    omega
  by_contra hne
  obtain ⟨mp, hback⟩ := Option.ne_none_iff_exists'.mp hne
  obtain ⟨hmem, hcov⟩ := Machine.backing_mem hback
  obtain ⟨g, mem, hlook, rfl⟩ := mem_restored_maps.mp hmem
  rw [regionMapping_eq] at hcov
  dsimp only at hcov
  have hcap : capturedAt g (captures size (guest (blankImage size))) = some mem.bytes := by
    rw [← hsnap g, hlook]
    rfl
  by_cases hg : ptGpa = g
  · rw [← hg, capturedAt_ptGpa] at hcap
    rw [← Option.some.inj hcap, PageTable.length_memory, ← hg,
      show ptGpa.toNat = 0x200000 from rfl] at hcov
    omega
  · obtain ⟨r, hr, rfl, hbytes⟩ := mem_of_capturedAt hcap
    have hlen := captures_length (congrArg layout (blankImage_size size))
      (guest_full (by rw [blankImage, List.length_replicate]; omega)) r hr
    rw [← hbytes, hlen] at hcov
    simp only [captures, List.mem_cons, List.not_mem_nil, or_false] at hr
    rcases hr with rfl | rfl | rfl | rfl <;> dsimp only at hcov
    · rw [show (0x0 : U64).toNat = 0 from rfl, nullSize] at hcov
      omega
    · rw [show baseGpa.toNat = 0x100000 from rfl] at hcov
      omega
    · exact hg (BitVec.eq_of_toNat_eq hstack.symm)
    · exact hg rfl

/-- Otherwise the stack or the image covers the page tables, and they can be hidden. -/
theorem pageTables_hidden (hle : size.toNat ≤ 2 ^ 32) (hlarge : 0xF0000 < size.toNat)
    (hkeys : size.toNat ≠ 0x100000) (halign : size.toNat % 4096 = 0) (w : Whp) :
    ∃ ord, (restored w ord snapshot).ram 0x200000 = some (0, allFlags) := by
  have hstack : (stackBaseGpa size).toNat = 0x100000 + size.toNat := by
    rw [toNat_stackBaseGpa (by omega)]
    omega
  have hpt : ptGpa ≠ stackBaseGpa size := fun h => by
    have h' := congrArg BitVec.toNat h
    rw [hstack, show ptGpa.toNat = 0x200000 from rfl] at h'
    omega
  rcases Nat.lt_or_gt_of_ne hkeys with hlt | hgt
  · have hcap : capturedAt (stackBaseGpa size) (captures size (guest (blankImage size))) =
        some (List.replicate stackSize 0) := by
      simp only [captures, capturedAt, guest, guestHost, if_neg hpt, if_true, Option.none_or,
        Option.some_or]
    refine ram_of_hidden hsnap w hpt hcap ?_
    rw [hstack, List.length_replicate, stackSize]
    omega
  · have hbase : stackBaseGpa size ≠ baseGpa := fun h => by
      have h' := congrArg BitVec.toNat h
      rw [hstack, show baseGpa.toNat = 0x100000 from rfl] at h'
      omega
    have hcap : capturedAt baseGpa (captures size (guest (blankImage size))) =
        some (blankImage size) := by
      simp only [captures, capturedAt, guest, guestHost, if_neg hbase,
        if_neg (show ptGpa ≠ baseGpa by decide), if_true, Option.none_or, Option.some_or]
    refine ram_of_hidden hsnap w (by decide) hcap ?_
    rw [blankImage, List.length_replicate, show baseGpa.toNat = 0x100000 from rfl]
    omega

/-- **A layout that collides** is not restored: for some order of the regions, memory comes out
    different. -/
theorem ram_ne_of_large (halign : size.toNat % 4096 = 0) (hle : size.toNat ≤ 2 ^ 32)
    (hlarge : 0xF0000 < size.toNat) (w : Whp) :
    ∃ ord, (guest (blankImage size)).ram ≠ (restored w ord snapshot).ram := by
  have hmaps := blank_maps halign hle
  by_cases hkeys : size.toNat = 0x100000
  · -- the stack is not restored at all
    refine ⟨HashMap.someOrder _ _, fun h => ?_⟩
    have hback : (guest (blankImage size)).backing 0x203000 =
        some ⟨0x100000 + size.toNat, 0x10000, .stack, allFlags⟩ := by
      rw [Machine.backing, hmaps, hkeys]
      rfl
    have hram := congrFun h 0x203000
    rw [Machine.ram_of_backing hback, hkeys,
      show (guest (blankImage size)).host .stack = List.replicate stackSize 0 from rfl,
      List.getElem?_replicate, if_pos (by decide),
      Machine.ram_of_unmapped (backing_of_same_key hsnap w _ hkeys)] at hram
    cases hram
  · obtain ⟨ord, hord⟩ := pageTables_hidden hsnap hle hlarge hkeys halign w
    refine ⟨ord, fun h => ?_⟩
    have hback : (guest (blankImage size)).backing 0x200000 =
        some ⟨0x200000, 0x3000, .pageTable, allFlags⟩ := by
      rw [Machine.backing, hmaps]
      rfl
    have hram := congrFun h 0x200000
    rw [hord, Machine.ram_of_backing hback] at hram
    dsimp only [guest, guestHost] at hram
    rw [Nat.sub_self, pageTable_head] at hram
    cases hram

end Restored

end Large

end Vestigium.Cli

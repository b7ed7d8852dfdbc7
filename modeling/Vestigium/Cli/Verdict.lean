/-
  WHAT THE VERDICT IS WORTH — "100% deterministic execution confirmed".

  The Replay command confirms when two hashes agree.  With a hasher that does not collide this says
  that everything the hashes cover agrees (`hashedAgree_of_verdict`): six registers, and the bytes in
  the snapshot's buffers.  For a layout that does not collide the buffers ARE guest memory
  (`ram_eq_of_hashed`), so what is left out is registers: RAX to R15 except RSP, CR2 and CR8
  (`unhashedNames`).  RAX is where events put their payload.

  `verdict_sound_iff` states of one replay when its verdict is right.  What can be said of the archive
  alone, whoever the guest is, is `verdict_trusted_iff`: the image has to fit, and the payloads have
  to be the recorded ones.  `verdict_confirms_altered_trace` is a one-event archive whose altered
  event goes unnoticed.
-/
import Vestigium.Cli.Altered

namespace Vestigium.Cli

open Codec
open Vestigium.HashMap (Order)

/-! ## The two final states -/

/-- The general-purpose registers, RIP, RFLAGS and the control registers. -/
def archNames : List Reg :=
  [.rax, .rcx, .rdx, .rbx, .rsp, .rbp, .rsi, .rdi, .r8, .r9, .r10, .r11, .r12, .r13, .r14, .r15,
   .rip, .rflags, .cr0, .cr2, .cr3, .cr4, .cr8]

/-- Those among them that `capture_names` leaves out. -/
def unhashedNames : List Reg := archNames.filter fun r => decide (r ∉ captureNames)

theorem mem_archNames {r : Reg} : r ∈ archNames ↔ r ∈ captureNames ∨ r ∈ unhashedNames := by
  have hsub : ∀ r ∈ captureNames, r ∈ archNames := by decide
  rw [unhashedNames, List.mem_filter, decide_eq_true_iff]
  by_cases hr : r ∈ captureNames
  · simp [hr, hsub r hr]
  · simp [hr]

/-- The final architectural state: registers and every byte of mapped memory. -/
structure ArchAgree (m n : Machine) : Prop where
  regs : RegsAgree archNames m n
  ram : m.ram = n.ram

/-- The two guests end in different states, and where they differ the hashes do not look. -/
def DifferUnseen (rec : Recording) (rep : Replayed) : Prop :=
  HashedAgree rec rep ∧ (rec.stopped.state.machine.ram ≠ rep.finish.ram ∨
    ∃ r ∈ unhashedNames,
      reg64 ((rec.stopped.state.machine.vps 0).regs r) ≠ reg64 ((rep.finish.vps 0).regs r))

/-! ## What the hashes cover -/

/-- Different bytes, one hash. -/
def Collides (hasher : Bytes → U64) (s s' : Bytes) : Prop := s ≠ s' ∧ hasher s = hasher s'

section Hashes

variable {w : Whp} {sim : SimAnswers} {hasher : Bytes → U64}
  {ordHash ordWrite ordRestore ordHash' : Order U64 AlignedMemory} {fuel passes : Nat} {image : Bytes}
  {entryPoint : U64} {rec : Recording} {rep : Replayed} {events : List TraceEvent}

/-- **Equal hashes, equal states**, as far as the hashes go.  The size of the layout does not
    matter. -/
theorem hashedAgree_of_verdict
    (hrec : Recorded w sim hasher ordHash ordWrite fuel image entryPoint rec)
    (hlt : image.length < 2 ^ 64)
    (hrep : Replays w hasher ordRestore ordHash' passes rec.snapshot events rec.hash rep)
    (hcoll : ¬ Collides hasher (recordedStream ordHash rec) (replayedStream ordHash' rep))
    (h : rep.replayHash = rep.expectedHash) : HashedAgree rec rep := by
  obtain ⟨hregions, hregs, -⟩ := Snapshot.captureRegisters_eq_ok hrep.final
  rw [hrep.expectedHash, hrec.hash, hrep.replayHash] at h
  have hstream : recordedStream ordHash rec = replayedStream ordHash' rep := by
    by_contra hne
    exact hcoll ⟨hne, h.symm⟩
  have hlen : ∀ g, (rep.finish.host (.region g)).length < 2 ^ 64 := by
    intro g
    rw [hrep.sameShape.length]
    exact rec.snapshot.own_length_lt g
  obtain ⟨hr, -, hb⟩ := Snapshot.hashStream_inj (by rw [hregs, hrec.finalRegisters]; rfl)
    (fun g _ => rec.final.own_length_lt g) (fun g _ => hlen g) hstream
  constructor
  · rw [hregs, hrec.finalRegisters, List.map_map, List.map_map] at hr
    exact List.map_inj_left.mp hr
  · exact fun g hg => hb g ((hrec.mem_regions hlt).2.mpr hg)

/-- **The buffers are guest memory** when the layout does not collide. -/
theorem ram_eq_of_hashed (hrec : Recorded w sim hasher ordHash ordWrite fuel image entryPoint rec)
    (hm : WellLaidOut rec.size (guest image))
    (hrep : Replays w hasher ordRestore ordHash' passes rec.snapshot events rec.hash rep)
    (h : HashedAgree rec rep) : rec.stopped.state.machine.ram = rep.finish.ram := by
  obtain ⟨fin, hfin, hcapture⟩ := hrec.final
  have hm' := hm.sameShape hrec.sameShape
  have hpic := pictures_of_capture hm' hfin hcapture
  obtain ⟨hto, hfrom⟩ := mirrors_of_buffers hm (hrec.pictures hm) hm'.maps
    hrep.sameShape.maps fun mp hmp => by
      rw [← h.bytes _ (mem_keys_iff.mpr ⟨mp, hmp, rfl⟩), hpic.own hmp]
  refine Machine.ram_eq_of_mirrors hm'.disjoint ?_ hto hfrom
  rw [hrep.sameShape.maps]
  exact restored_disjoint hm (hrec.pictures hm)

/-- Events with the recorded payloads, whatever instruction counts they bear, lead to the recorded
    state. -/
theorem archAgree_of_payloads
    (hrec : Recorded w sim hasher ordHash ordWrite fuel image entryPoint rec)
    (hm : WellLaidOut rec.size (guest image))
    (hrep : Replays w hasher ordRestore ordHash' (passes + 1) rec.snapshot events rec.hash rep)
    (hevents : events.map (·.event) = rec.events.toList.map (·.event)) :
    ArchAgree rec.stopped.state.machine rep.finish := by
  have hrestore : RestoreSucceeds w rec := by
    rw [RestoreSucceeds, show restoreNames = captureNames from rfl, ← hrec.registers]
    exact hrep.restoreCalls.2
  obtain ⟨fin, -, hcapture⟩ := hrec.final
  obtain ⟨rep', hrep', -, hfinish, -⟩ := hrec.replays hm hrestore hrec.run
    (Snapshot.captureRegisters_eq_ok hcapture).2.2 ordRestore ordHash' passes rec.hash
  -- the recorded events replayed, against these: one and the same run
  obtain ⟨m, hreplay, hlast⟩ := hrep.events
  obtain ⟨m', hreplay', hlast'⟩ := hrep'.events
  rw [hrep.start, ReplayEngine.replayEvents_congr hevents, hrec.events] at hreplay
  rw [hrep'.start, hreplay] at hreplay'
  obtain ⟨rfl, -⟩ := Prod.mk.inj (Except.ok.inj hreplay')
  rw [hlast, ← hlast']
  exact ⟨fun r _ => by rw [hfinish.regs], hfinish.ram⟩

end Hashes

/-! ## The verdict -/

/-- **When the verdict can be trusted.**  Let a recording be replayed with any list of events, and
    let the hasher not collide on the two final states.  Then "equal hashes imply equal architectural
    states" holds iff the two guests do not differ unseen.  If the image fits the layout, memory does
    not differ unseen, and nothing at all differs if the events carry the recorded payloads. -/
theorem verdict_sound_iff {w : Whp} {sim : SimAnswers} {peParse : PeParser} {hasher : Bytes → U64}
    {ordHash ordWrite ordWrite' ordRestore ordHash' : Order U64 AlignedMemory} {fuel passes : Nat}
    {target : Bytes} {rec : Recording} {events : Vec TraceEvent} {rep : Replayed}
    (hrecord : record w sim peParse hasher ordHash ordWrite fuel target = .ok rec)
    (hreplay : replayRun w hasher ordRestore ordHash' (passes + 1)
      (encode ordWrite' rec.snapshot events rec.hash) = .ok rep)
    (hcoll : ¬ Collides hasher (recordedStream ordHash rec) (replayedStream ordHash' rep)) :
    ((rep.replayHash = rep.expectedHash → ArchAgree rec.stopped.state.machine rep.finish) ↔
      ¬ DifferUnseen rec rep) ∧
    (rec.size.toNat ≤ 0xF0000 →
      (HashedAgree rec rep → rec.stopped.state.machine.ram = rep.finish.ram) ∧
      (events.toList.map (·.event) = rec.events.toList.map (·.event) →
        ArchAgree rec.stopped.state.machine rep.finish)) := by
  obtain ⟨loader, image, -, himage, hrec⟩ := record_eq_ok.mp hrecord
  have hlt := (size_of_image himage).2.1
  have hdecode := decode_written ordWrite' rec.snapshot events rec.hash
  have hrep := (replayRun_eq_ok hdecode (by rw [hrec.registers]; rfl)).mp hreplay
  refine ⟨⟨fun hsound => ?_, fun hseen hverdict => ?_⟩, fun hsize => ?_⟩
  · -- what is hashed agrees, so the verdict is given, and it claims what does not hold
    rintro ⟨hagree, hdiffer⟩
    obtain ⟨hregs, hram⟩ := hsound (hagree.verdict hrec hlt hrep)
    rcases hdiffer with hne | ⟨r, hr, hne⟩
    · exact hne hram
    · exact hne (hregs r (mem_archNames.mpr (.inr hr)))
  · -- the verdict speaks for what is hashed, and there is nothing else to differ in
    have hagree := hashedAgree_of_verdict hrec hlt hrep hcoll hverdict
    refine ⟨fun r hr => ?_, ?_⟩
    · rcases mem_archNames.mp hr with hr | hr
      · exact hagree.regs r hr
      · by_contra hne
        exact hseen ⟨hagree, .inr ⟨r, hr, hne⟩⟩
    · by_contra hne
      exact hseen ⟨hagree, .inl hne⟩
  · have hm := hrec.wellLaidOut himage hsize
    exact ⟨ram_eq_of_hashed hrec hm hrep, archAgree_of_payloads hrec hm hrep⟩

/-! ## Trusting an archive -/

/-- **The verdict speaks for the archive**: let any guest be recorded with this trace and an image of
    this size, and replayed with the events of the archive.  If its hasher does not collide and the
    replay is confirmed, then the two final states agree. -/
def VerdictSound (sim : SimAnswers) (size : U64) (recorded : List EventType) (replayed : Vec TraceEvent) :
    Prop :=
  ∀ (w : Whp) (peParse : PeParser) (hasher : Bytes → U64)
    (ordHash ordWrite ordWrite' ordRestore ordHash' : Order U64 AlignedMemory) (fuel passes : Nat)
    (target : Bytes) (rec : Recording) (rep : Replayed),
    record w sim peParse hasher ordHash ordWrite fuel target = .ok rec →
    rec.size = size → rec.events.toList.map (·.event) = recorded →
    replayRun w hasher ordRestore ordHash' (passes + 1)
      (encode ordWrite' rec.snapshot replayed rec.hash) = .ok rep →
    ¬ Collides hasher (recordedStream ordHash rec) (replayedStream ordHash' rep) →
    rep.replayHash = rep.expectedHash → ArchAgree rec.stopped.state.machine rep.finish

/-- The tripwire guest betrays every other archive: it is confirmed whatever it is replayed with, its
    memory comes back only if the image fits, and its mark only if the payloads are its own. -/
theorem trusted_of_sound {sim : SimAnswers} {pe : Pe} {evs : List EventType} {replayed : Vec TraceEvent}
    (hpos : 0 < (PeLoader.alignedSize pe).toNat) (hlen : evs.length < 2 ^ 64)
    (hevs : RecordEngine.Recordable sim evs)
    (h : VerdictSound sim (PeLoader.alignedSize pe) evs replayed) :
    (PeLoader.alignedSize pe).toNat ≤ 0xF0000 ∧ replayed.toList.map (·.event) = evs := by
  have hround := PeLoader.toNat_alignedSize pe
  have hheader : (pe.sizeOfImage.getD 0).toNat < 2 ^ 32 := (pe.sizeOfImage.getD 0).isLt
  obtain ⟨rec, hrecord, hrec, hevents, hon⟩ := tripwire_record hpos hlen hevs (fun _ => 0)
    (HashMap.someOrder _ _) (HashMap.someOrder _ _)
  have hsize : rec.size = PeLoader.alignedSize pe := hrec.size.trans (blankImage_size _)
  have hlt : (blankImage (PeLoader.alignedSize pe)).length < 2 ^ 64 := by
    rw [blankImage, List.length_replicate]
    exact (PeLoader.alignedSize pe).isLt
  -- in whatever order the regions are restored, the replay is confirmed
  have hagree : ∀ ordRestore, ∃ rep : Replayed,
      rep.finish.ram =
        (restored (tripwire evs (PeLoader.alignedSize pe)) ordRestore rec.snapshot).ram ∧
      (reg64 ((rep.finish.vps 0).regs .r14) = 1 → replayed.toList.map (·.event) = evs) ∧
      ArchAgree rec.stopped.state.machine rep.finish := by
    intro ordRestore
    obtain ⟨rep, hreplay, hrep, hhashed, hram, hmark⟩ := tripwire_replay hlen hrec hon replayed
      ordRestore (HashMap.someOrder _ _) (HashMap.someOrder _ _)
    exact ⟨rep, hram, hmark, h _ _ _ _ _ _ _ _ _ 1 [] rec rep hrecord hsize hevents hreplay
      (fun hcoll => hcoll.1 (hhashed.streams hrec hlt hrep)) (hhashed.verdict hrec hlt hrep)⟩
  constructor
  · by_contra hlarge
    obtain ⟨snap, hsnap, hregs⟩ := hrec.snapshot
    have hcontents : ∀ g, (rec.snapshot.memoryRegions.lookup g).map (·.bytes) =
        capturedAt g (captures (PeLoader.alignedSize pe)
          (guest (blankImage (PeLoader.alignedSize pe)))) := by
      have hmaps : (guest (blankImage (PeLoader.alignedSize pe))).maps = layout rec.size :=
        congrArg layout hrec.size.symm
      rw [hsize] at hsnap hmaps
      rw [(Snapshot.captureRegisters_eq_ok hregs).1]
      exact captureMemoryLayout_contents hmaps (guest_full hlt) hsnap
    obtain ⟨ord, hne⟩ := ram_ne_of_large hcontents (by omega) (by omega) (by omega)
      (tripwire evs (PeLoader.alignedSize pe))
    obtain ⟨rep, hram, -, harch⟩ := hagree ord
    obtain ⟨done, hstopped⟩ := hon
    refine hne ?_
    rw [← hram, ← harch.ram, hstopped, Machine.setVp_ram]
  · obtain ⟨rep, -, hmark, harch⟩ := hagree (HashMap.someOrder _ _)
    apply hmark
    rw [← harch.regs .r14 (by decide), hon.regs, Tripwire.marked, Function.update_self]
    rfl

theorem sample_run_altered : ∃ stop, SampleRun 0x2000 stop := by
  refine ⟨_, rfl, ?_, ?_, ?_, ?_⟩ <;> rfl

/-- The recording of the sample guest, replayed with `x` in its RDTSC event: nothing that is hashed
    depends on `x`. -/
theorem sample_replay {x : U64} {stop : Stopped} (hstop : SampleRun x stop)
    (ord : Order U64 AlignedMemory) : ∃ rec rep events,
      record SampleCpu.whp simulated (fun _ => .ok samplePe) sampleHasher ord ord 2 sampleFile =
        .ok rec ∧
      events.toList = [⟨0, .rdtsc x 0⟩] ∧
      replayRun SampleCpu.whp sampleHasher ord ord 1 (encode ord rec.snapshot events rec.hash) =
        .ok rep ∧
      recordedStream ord rec = replayedStream ord rep ∧ rep.replayHash = rep.expectedHash ∧
      reg64 ((rec.stopped.state.machine.vps 0).regs .rax) = 0x1000 ∧
      reg64 ((rep.finish.vps 0).regs .rax) = x := by
  obtain ⟨rec, hrecord, hsize, hstart, hrecorded⟩ := sample_record ord ord
  obtain ⟨loader, image, -, himage, hrec⟩ := record_eq_ok.mp hrecord
  have hm := hrec.wellLaidOut himage (by rw [hsize]; decide)
  obtain ⟨rep, hrep, -, hfinish, hbuf⟩ := hrec.replays hm rfl (by rw [hstart]; exact hstop.run) rfl
    ord ord 0 rec.hash
  have hlt := (size_of_image himage).2.1
  obtain ⟨fin, hfin, hcapture⟩ := hrec.final
  have hpic := pictures_of_capture (hm.sameShape hrec.sameShape) hfin hcapture
  have hagree : HashedAgree rec rep := by
    refine ⟨fun r hr => ?_, fun g hg => ?_⟩
    · have hcaptured := hrecorded.captured.trans hstop.captured.symm
      rw [← hfinish.regs, List.map_inj_left.mp hcaptured r hr]
    · obtain ⟨mp, hmp, rfl⟩ := mem_keys_iff.mp hg
      rw [hpic.own hmp, hbuf mp hmp, hrecorded.host, hstop.host]
  let events : Vec TraceEvent := ⟨stop.state.logger.events, by
    rw [hstop.events]
    exact Nat.one_lt_two_pow (by decide)⟩
  have hdecode := decode_written ord rec.snapshot events rec.hash
  refine ⟨rec, rep, events, hrecord, hstop.events,
    (replayRun_eq_ok hdecode (by rw [hrec.registers]; rfl)).mpr hrep, hagree.streams hrec hlt hrep,
    hagree.verdict hrec hlt hrep, hrecorded.rax, ?_⟩
  rw [← hfinish.regs]
  exact hstop.rax

end Vestigium.Cli

/-
  REPRODUCIBILITY — the commands against the iteration order of their hash maps.

  The regions of a snapshot sit in a hash map, and a hash map is iterated in an order that differs
  from run to run.  Record goes through it to hash and to write the archive, Replay to restore it and
  to hash.  Two results about what that order can decide:

  * nothing, as long as no address lies in two regions: either command, run twice, has the SAME
    outcome, a failure and the pass it gets stuck in included (`record_reproducible`,
    `replay_reproducible`);
  * otherwise the memory a snapshot restores to.  It is the same for every order exactly if the
    regions agree wherever they overlap (`restore_order_immaterial_iff`).

  A replay is followed through all its calls by the relation `Rearranged` of `Vestigium.Engine.TwoRuns`.
-/
import Vestigium.Cli.Malformed
import Vestigium.Cli.Verify
import Vestigium.Engine.TwoRuns

namespace Vestigium.Cli

open Codec
open Vestigium.HashMap (Order Entry)
open Vestigium.Loop Vestigium.Relational

/-! ## Restoring in two orders -/

/-- Computations that agree still agree once their errors have become panics. -/
theorem expect_agree {α β : Type} {R : α → β → Prop} {x : Except Fail α} {y : Except Fail β}
    (msg : String) (h : Agree R x y) : Agree R (expect msg x) (expect msg y) := by
  cases h with
  | ok hab => exact .ok hab
  | error e => cases e <;> exact .error _

/-- The regions mapped in two orders: where they keep apart, no address is backed differently. -/
theorem rearranged_mapped {snapshot : Snapshot} (hapart : RegionsApart snapshot)
    (ord ord' : Order U64 AlignedMemory) {m : Machine} (hm : m.maps = []) :
    Rearranged (mapped (ord.entries snapshot.memoryRegions) m)
      (mapped (ord'.entries snapshot.memoryRegions) m) := by
  have hregions : ∀ ord : Order U64 AlignedMemory,
      MapsRegions snapshot (mapped (ord.entries snapshot.memoryRegions) m).maps := by
    intro ord
    rw [mapped, hm, List.append_nil]
    exact mapsRegions_of_perm (List.Perm.refl _)
  refine ⟨rfl, rfl, rfl, fun a => Option.ext fun mp => ?_⟩
  rw [Machine.backing_eq_some_iff ((hregions ord).disjoint hapart),
    Machine.backing_eq_some_iff ((hregions ord').disjoint hapart), hregions ord, hregions ord']

/-- **Restoring in two orders** fails alike, or leads to machines that differ in the order alone.
    Which region a failing call was about cannot be told any more once the error is a panic. -/
theorem restoreSnapshot_agree {w : Whp} {eng : ReplayEngine} {vcpu : Vcpu} {snapshot : Snapshot}
    {names : List Reg} {m : Machine} (heng : eng.activeVcpu = .ok vcpu)
    (hapart : RegionsApart snapshot) (hm : m.maps = []) (ord ord' : Order U64 AlignedMemory)
    (msg : String) :
    Agree Rearranged (expect msg (eng.restoreSnapshot w ord snapshot names m))
      (expect msg (eng.restoreSnapshot w ord' snapshot names m)) := by
  have hcalls : ∀ {ord : Order U64 AlignedMemory} (ord' : Order U64 AlignedMemory) {m1 : Machine},
      ReplayEngine.mapRegions w (ord.entries snapshot.memoryRegions) m = .ok m1 →
      ReplayEngine.mapRegions w (ord'.entries snapshot.memoryRegions) m =
        .ok (mapped (ord'.entries snapshot.memoryRegions) m) := by
    intro ord ord' m1 h
    refine mapRegions_eq_ok.mpr ⟨?_, rfl⟩
    rintro ⟨g, mem⟩ he
    exact (mapRegions_eq_ok.mp h).1 _ ((ord.lists snapshot.memoryRegions).mem_iff.mpr
      ((ord'.lists snapshot.memoryRegions).mem_iff.mp he))
  cases hmap : ReplayEngine.mapRegions w (ord.entries snapshot.memoryRegions) m with
  | ok m1 =>
    rw [ReplayEngine.restoreSnapshot, ReplayEngine.restoreSnapshot, bind_of_ok (hcalls ord hmap),
      bind_of_ok (hcalls ord' hmap)]
    have hrel := rearranged_mapped hapart ord ord' hm
    apply expect_agree
    split
    · rw [bind_of_ok heng, bind_of_ok heng]
      exact (Bisimilar.rearranged w vcpu).setRegisters hrel _ _
    · exact .ok hrel
  | error e =>
    -- then some call fails in the other order too, though perhaps another one
    obtain ⟨code, rfl⟩ := mapRegions_error hmap
    cases hmap' : ReplayEngine.mapRegions w (ord'.entries snapshot.memoryRegions) m with
    | ok m1 =>
      rw [hcalls ord hmap'] at hmap
      cases hmap
    | error e' =>
      obtain ⟨code', rfl⟩ := mapRegions_error hmap'
      rw [ReplayEngine.restoreSnapshot, ReplayEngine.restoreSnapshot, bind_of_error hmap,
        bind_of_error hmap']
      exact .error _

/-! ## The Replay command, twice -/

/-- Two replays that no observer can tell apart: the lines printed about every event, the guest and
    the buffers at the start and at the end, the final snapshot and both hashes. -/
structure SameReplay (r r' : Replayed) : Prop where
  start : Rearranged r.start r'.start
  finish : Rearranged r.finish r'.finish
  lines : r.lines = r'.lines
  final : r.final = r'.final
  replayHash : r.replayHash = r'.replayHash
  expectedHash : r.expectedHash = r'.expectedHash

theorem rearranged_lastRun {w : Whp} {vcpu : Vcpu} {m n : Machine} (h : Rearranged m n) :
    Rearranged (lastRun w vcpu m) (lastRun w vcpu n) := by
  have hrun := (Bisimilar.rearranged w vcpu).run h
  unfold lastRun
  cases hm : VmRunner.run w vcpu m with
  | error e =>
    rw [hm] at hrun
    cases hn : VmRunner.run w vcpu n with
    | error e' => exact h
    | ok y =>
      rw [hn] at hrun
      cases hrun
  | ok x =>
    rw [hm] at hrun
    obtain ⟨y, hn, -, hrel⟩ := hrun.of_ok rfl
    rw [hn]
    exact hrel

/-- The final registers are captured alike. -/
theorem captureRegisters_agree {w : Whp} {vcpu : Vcpu} {m n : Machine} (h : Rearranged m n)
    (names : List Reg) (snapshot : Snapshot) :
    snapshot.captureRegisters w vcpu names m = snapshot.captureRegisters w vcpu names n := by
  rw [Snapshot.captureRegisters, Snapshot.captureRegisters, Vcpu.getRegisters, Vcpu.getRegisters,
    h.vps]

theorem replayRun_agree {w : Whp} {hasher : Bytes → U64} {archive archive' : Bytes}
    (hsame : decode archive = decode archive')
    (hapart : ∀ v, decode archive = .ok v → RegionsApart v.1)
    (ordRestore ordHash ordRestore' ordHash' : Order U64 AlignedMemory) (fuel : Nat) :
    Agree SameReplay (replayRun w hasher ordRestore ordHash fuel archive)
      (replayRun w hasher ordRestore' ordHash' fuel archive') := by
  rw [replayRun, replayRun, ← hsame]
  refine (Agree.self (P := fun v => decode archive = .ok v) fun v => expect_eq_ok.mp).bind ?_
  rintro ⟨snapshot, events, hash⟩ _ ⟨rfl, hdecode⟩
  -- up to the snapshot the two do the same, on a partition with nothing mapped
  refine (Agree.self (P := fun m => m.maps = []) fun m h => ?_).bind ?_
  · obtain ⟨-, -, -, rfl⟩ := VmPartition.new_eq_ok.mp (expect_eq_ok.mp h)
    rfl
  rintro m _ ⟨rfl, hm⟩
  refine (Agree.self (P := fun m => m.maps = []) fun m1 h => ?_).bind ?_
  · obtain ⟨-, rfl⟩ := VmPartition.configureInterceptions_eq_ok.mp (expect_eq_ok.mp h)
    exact hm
  rintro m _ ⟨rfl, hm⟩
  refine (Agree.self (P := fun x => x.1 = ⟨0⟩ ∧ x.2.maps = []) fun x h => ?_).bind ?_
  · obtain ⟨-, hvcpu, hx⟩ := Vcpu.new_eq_ok.mp (expect_eq_ok.mp h)
    refine ⟨hvcpu, ?_⟩
    rw [hx]
    exact hm
  rintro ⟨vcpu, m⟩ _ ⟨rfl, hvcpu, hm⟩
  obtain rfl : vcpu = ⟨0⟩ := hvcpu
  refine (Agree.self (P := fun m => m.maps = []) fun m1 h => ?_).bind ?_
  · obtain ⟨-, -, rfl⟩ := Vcpu.setRegisters_eq_ok.mp (expect_eq_ok.mp h)
    exact hm
  rintro m _ ⟨rfl, hm⟩
  refine (restoreSnapshot_agree engine_activeVcpu (hapart _ hdecode) hm ordRestore ordRestore' _).bind ?_
  intro start start' hstart
  have hR := Bisimilar.rearranged w ⟨0⟩
  refine (expect_agree _ (ReplayEngine.replayEvents_agree hR engine_activeVcpu hstart fuel
    events.toList)).bind ?_
  rintro ⟨m1, lines⟩ ⟨n1, lines'⟩ ⟨hrel, hlines⟩
  obtain rfl : lines = lines' := hlines
  have hfinish : Rearranged (lastRun w ⟨0⟩ m1) (lastRun w ⟨0⟩ n1) := rearranged_lastRun hrel
  dsimp only
  rw [← captureRegisters_agree hfinish]
  refine (Agree.self (P := fun _ => True) fun _ _ => trivial).bind ?_
  rintro final _ ⟨rfl, -⟩
  refine .ok ⟨hstart, hfinish, rfl, rfl, ?_, rfl⟩
  -- what is hashed are the buffers, under sorted keys
  rw [hfinish.host]
  exact congrArg hasher (Snapshot.hashStream_congr rfl (fun _ => Iff.rfl) fun _ _ => rfl)

/-! ## The Record command, twice -/

/-- Two recordings that differ at most in the order in which the regions stand in the file. -/
structure SameRecording (r r' : Recording) : Prop where
  size : r.size = r'.size
  start : r.start = r'.start
  stopped : r.stopped = r'.stopped
  snapshot : r.snapshot = r'.snapshot
  final : r.final = r'.final
  events : r.events = r'.events
  hash : r.hash = r'.hash
  decoded : decode r.archive = decode r'.archive

theorem record_agree (w : Whp) (sim : SimAnswers) (peParse : PeParser) (hasher : Bytes → U64)
    (ordHash ordWrite ordHash' ordWrite' : Order U64 AlignedMemory) (fuel : Nat) (target : Bytes) :
    Agree SameRecording (record w sim peParse hasher ordHash ordWrite fuel target)
      (record w sim peParse hasher ordHash' ordWrite' fuel target) := by
  have hself : ∀ {α : Type} (x : Except Fail α), Agree Eq x x := fun x => .refl (fun _ => rfl) x
  rw [record, record]
  refine (hself _).bind ?_
  rintro loader _ rfl
  refine (hself _).bind ?_
  rintro image _ rfl
  refine (hself _).bind ?_
  rintro m _ rfl
  refine (hself _).bind ?_
  rintro snap _ rfl
  refine (hself _).bind ?_
  rintro ⟨vcpu, m⟩ _ rfl
  refine (hself _).bind ?_
  rintro snapshot _ rfl
  refine (hself _).bind ?_
  rintro stopped _ rfl
  refine (hself _).bind ?_
  rintro fin _ rfl
  refine (hself _).bind ?_
  rintro final _ rfl
  dsimp only
  split
  · have hhash : final.hashState hasher ordHash final.own = final.hashState hasher ordHash' final.own :=
      congrArg hasher (Snapshot.hashStream_congr rfl (fun _ => Iff.rfl) fun _ _ => rfl)
    refine .ok ⟨rfl, rfl, rfl, rfl, rfl, rfl, hhash, ?_⟩
    dsimp only
    rw [decode_written, decode_written, hhash]
  · exact .error _

/-- The regions hold the same bytes wherever they overlap. -/
def RegionsAgree (snapshot : Snapshot) : Prop :=
  ∀ g mem g' mem', snapshot.memoryRegions.lookup g = some mem →
    snapshot.memoryRegions.lookup g' = some mem' →
    ∀ i j (hi : i < mem.bytes.length) (hj : j < mem'.bytes.length),
      g.toNat + i = g'.toNat + j → mem.bytes[i] = mem'.bytes[j]

section Overlap

variable {w : Whp} {eng : ReplayEngine} {ord : Order U64 AlignedMemory} {snapshot : Snapshot}
  {names : List Reg} {m m' : Machine}

/-- The guest reads a region where it is backed by it. -/
theorem ram_of_backing_region (hm : FreshFor snapshot m)
    (h : eng.restoreSnapshot w ord snapshot names m = .ok m') {g : U64} {mem : AlignedMemory} {i : Nat}
    (hlook : snapshot.memoryRegions.lookup g = some mem) (hi : i < mem.bytes.length)
    (hback : m'.backing (g.toNat + i) = some (regionMapping ⟨g, mem⟩)) :
    m'.ram (g.toNat + i) = some (mem.bytes[i], allFlags) := by
  rw [Machine.ram_of_backing hback, (restoreSnapshot_maps h).2, regionMapping_eq,
    hm.buffers g mem hlook, Nat.add_sub_cancel_left, List.getElem?_eq_getElem hi]
  rfl

/-- **What the guest reads after a restore**: a byte of some region that has the address, or nothing
    where none has. -/
theorem ram_of_restore (hm : FreshFor snapshot m)
    (h : eng.restoreSnapshot w ord snapshot names m = .ok m') (a : Nat) :
    (∃ g mem i, ∃ hi : i < mem.bytes.length, snapshot.memoryRegions.lookup g = some mem ∧
      a = g.toNat + i ∧ m'.ram a = some (mem.bytes[i], allFlags)) ∨
    m'.ram a = none ∧ ∀ g mem, snapshot.memoryRegions.lookup g = some mem →
      ¬ (g.toNat ≤ a ∧ a < g.toNat + mem.bytes.length) := by
  have hregions := mapsRegions_of_restore h (.inr hm.maps)
  cases hback : m'.backing a with
  | none =>
    refine .inr ⟨Machine.ram_of_unmapped hback, fun g mem hlook hcov => ?_⟩
    have hnot := List.find?_eq_none.mp hback _ ((hregions _).mpr ⟨g, mem, hlook, rfl⟩)
    rw [regionMapping_eq, Mapping.covers_iff] at hnot
    exact hnot hcov
  | some mp =>
    obtain ⟨hmem, hcov⟩ := Machine.backing_mem hback
    obtain ⟨g, mem, hlook, rfl⟩ := (hregions mp).mp hmem
    rw [regionMapping_eq] at hcov
    obtain ⟨i, rfl⟩ := Nat.exists_eq_add_of_le hcov.1
    have hi : i < mem.bytes.length := by
      have hlt : g.toNat + i < g.toNat + mem.bytes.length := hcov.2
      omega
    exact .inl ⟨g, mem, i, hi, hlook, rfl, ram_of_backing_region hm h hlook hi hback⟩

/-- The region that is mapped last is read throughout. -/
theorem ram_of_last (hm : FreshFor snapshot m)
    (h : eng.restoreSnapshot w ord snapshot names m = .ok m') {g : U64} {mem : AlignedMemory}
    {rest : List (Entry U64 AlignedMemory)}
    (hlast : ord.entries snapshot.memoryRegions = rest ++ [⟨g, mem⟩])
    (hlook : snapshot.memoryRegions.lookup g = some mem) {i : Nat} (hi : i < mem.bytes.length) :
    m'.ram (g.toNat + i) = some (mem.bytes[i], allFlags) := by
  refine ram_of_backing_region hm h hlook hi ?_
  rw [Machine.backing, (restoreSnapshot_maps h).1, hlast, List.map_append, List.reverse_append]
  refine List.find?_cons_of_pos ?_
  rw [regionMapping_eq, Mapping.covers_iff]
  exact ⟨Nat.le_add_right _ _, Nat.add_lt_add_left hi _⟩

/-- **When the order is immaterial.**  A snapshot restores to the same memory in every order of its
    regions exactly if these hold the same bytes wherever they overlap. -/
theorem restore_order_immaterial_iff (hm : FreshFor snapshot m)
    (h : eng.restoreSnapshot w ord snapshot names m = .ok m') :
    (∀ ord' m'', eng.restoreSnapshot w ord' snapshot names m = .ok m'' → m''.ram = m'.ram) ↔
      RegionsAgree snapshot := by
  constructor
  · intro hsame g mem g' mem' hlook hlook' i j hi hj ha
    -- either region can be the last one that is mapped
    have hlast : ∀ {g : U64} {mem : AlignedMemory} {i : Nat} (hi : i < mem.bytes.length),
        snapshot.memoryRegions.lookup g = some mem →
        m'.ram (g.toNat + i) = some (mem.bytes[i], allFlags) := by
      intro g mem i hi hlook
      obtain ⟨ord', rest, hord⟩ := HashMap.exists_order_last hlook
      obtain ⟨m'', h'', -⟩ := restoreSnapshot_reorder h ord'
      rw [← hsame ord' m'' h'']
      exact ram_of_last hm h'' hord hlook hi
    have hboth := hlast hi hlook
    rw [ha, hlast hj hlook'] at hboth
    exact (Prod.mk.inj (Option.some.inj hboth)).1.symm
  · intro hagree ord' m'' h''
    funext a
    rcases ram_of_restore hm h a with ⟨g, mem, i, hi, hlook, rfl, hram⟩ | ⟨hram, hnone⟩
    · rcases ram_of_restore hm h'' (g.toNat + i) with ⟨g', mem', j, hj, hlook', ha, hram'⟩ | ⟨-, hnone⟩
      · rw [hram, hram', hagree g mem g' mem' hlook hlook' i j hi hj ha]
      · exact absurd ⟨Nat.le_add_right _ _, Nat.add_lt_add_left hi _⟩ (hnone g mem hlook)
    · rcases ram_of_restore hm h'' a with ⟨g', mem', j, hj, hlook', rfl, -⟩ | ⟨hram', -⟩
      · exact absurd ⟨Nat.le_add_right _ _, Nat.add_lt_add_left hj _⟩ (hnone g' mem' hlook')
      · rw [hram, hram']

end Overlap

/-- Two pages of different bytes, half of the one over half of the other. -/
def overlappingSnapshot : Snapshot where
  memoryRegions := Finmap.insert 0x800 (page 1) (Finmap.insert 0 (page 0) ∅)
  registers := pagesSnapshot.registers
  regions_lt := by
    have hone := HashMap.card_insert_le (∅ : Regions) 0 (page 0)
    have htwo := HashMap.card_insert_le (Finmap.insert 0 (page 0) ∅ : Regions) 0x800 (page 1)
    have hempty : (∅ : Regions).entries.card = 0 := rfl
    omega

/-- What the overlapping pages restore to is a matter of the order. -/
theorem restore_order_immaterial_iff_sample : ∃ m',
    engine.restoreSnapshot SampleCpu.whp (HashMap.someOrder _ _) overlappingSnapshot restoreNames
        (fresh SampleCpu.whp overlappingSnapshot) = .ok m' ∧
      ¬ ∀ ord' m'', engine.restoreSnapshot SampleCpu.whp ord' overlappingSnapshot restoreNames
        (fresh SampleCpu.whp overlappingSnapshot) = .ok m'' → m''.ram = m'.ram := by
  have h : engine.restoreSnapshot SampleCpu.whp (HashMap.someOrder _ _) overlappingSnapshot
      restoreNames (fresh SampleCpu.whp overlappingSnapshot) = .ok _ :=
    restoreSnapshot_cases.mpr ⟨fun _ _ => rfl, .inr ⟨by decide, ⟨0⟩, engine_activeVcpu,
      Vcpu.setRegisters_eq_ok.mpr ⟨rfl, rfl, rfl⟩⟩⟩
  refine ⟨_, h, fun hsame => ?_⟩
  have hagree := (restore_order_immaterial_iff (fresh_freshFor _ _) h).mp hsame
  have hlen : ∀ b, (page b).bytes.length = 4096 := fun b => List.length_replicate
  have hzero : overlappingSnapshot.memoryRegions.lookup 0 = some (page 0) := by
    rw [overlappingSnapshot, Finmap.lookup_insert_of_ne _ (by decide), Finmap.lookup_insert]
  -- byte 0x800 is the first of the one page and halfway through the other
  have hbytes := hagree 0 (page 0) 0x800 (page 1) hzero (Finmap.lookup_insert _) 0x800 0
    (by rw [hlen]; decide) (by rw [hlen]; decide) rfl
  have hbyte : ∀ b i (hi : i < (page b).bytes.length), (page b).bytes[i] = b :=
    fun b i hi => List.getElem_replicate _
  rw [hbyte, hbyte] at hbytes
  cases hbytes

end Vestigium.Cli

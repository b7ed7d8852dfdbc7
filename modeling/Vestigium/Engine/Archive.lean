/-
  THE ARCHIVE — what the Record command writes and the Replay command reads.

  The two sides are different code.  A region is written with `serialize_bytes` and read as a
  `Vec<u8>` that is copied into a fresh allocation; registers pass through `[u8; 16]` arrays; the
  regions are written in whatever order the map yields and inserted one by one into a new map.
  `decode_encode` is the round trip, for every such order and with anything behind the archive.

  What Replay accepts need not come from Record: the regions may be listed in any order and a key
  may come twice.  But it is spelled the same way (`delimited_archive`), so it says itself where it
  ends, and a truncated archive is never a shorter one (`decode_truncated`).
-/
import Vestigium.Engine.Snapshot

namespace Vestigium

open Codec
open Vestigium.HashMap (Order Entry collect)
open Vestigium.Loop (bind_eq_ok)

/-! ## Writing -/

/-- `AlignedMemory::serialize`: the length, then the bytes. -/
def putAligned (mem : AlignedMemory) : Bytes := toLE 8 mem.bytes.length ++ mem.bytes

/-- One entry of the region map. -/
def putRegion (e : Entry U64 AlignedMemory) : Bytes := putWord 8 e.1 ++ putAligned e.2

/-- `register_serde`: a union as its 16 bytes. -/
def putRegister (r : RegVal) : Bytes := putWord 16 r

/-- `Snapshot::serialize`, with the regions in the order `ord` yields them. -/
def putSnapshot (ord : Order U64 AlignedMemory) (s : Snapshot) : Bytes :=
  toLE 8 (ord.entries s.memoryRegions).length ++
    ((ord.entries s.memoryRegions).flatMap putRegion ++ putVec putRegister s.registers)

/-- `bincode::serialize(&(&snapshot, &recorded_events, final_hash))`. -/
def encode (ord : Order U64 AlignedMemory) (snapshot : Snapshot) (events : Vec TraceEvent)
    (hash : U64) : Bytes :=
  putSnapshot ord snapshot ++ (putVec putTraceEvent events ++ putWord 8 hash)

/-! ## Reading -/

/-- `AlignedMemory::deserialize`. -/
def readAligned : Reader Fail AlignedMemory := do
  let bytes ← readByteVec
  StateT.lift (AlignedMemory.newFrom bytes.toList)

def readRegion : Reader Fail (Entry U64 AlignedMemory) := do
  let gpa ← readU64
  let mem ← readAligned
  return ⟨gpa, mem⟩

def readRegister : Reader Fail RegVal := readWord eof 16 128

/-- `Snapshot::deserialize`: the entries are inserted as they come. -/
def readSnapshot : Reader Fail Snapshot := do
  let n ← readU64
  let entries ← readN readRegion n.toNat
  let registers ← readVec eof readRegister
  return {
    memoryRegions := collect entries.1
    registers
    regions_lt := by
      have hcard := HashMap.card_foldl_insert_le entries.1 (∅ : Regions)
      have hn : n.toNat < 2 ^ 64 := n.isLt
      rw [entries.2] at hcard
      rw [show (∅ : Regions).entries.card = 0 from rfl, Nat.zero_add] at hcard
      exact Nat.lt_of_le_of_lt hcard hn }

def readArchive : Reader Fail (Snapshot × Vec TraceEvent × U64) := do
  let snapshot ← readSnapshot
  let events ← readVec eof readTraceEvent
  let hash ← readU64
  return (snapshot, events, hash)

/-- `bincode::deserialize`: what is behind the value is ignored. -/
def decode (archive : Bytes) : Except Fail (Snapshot × Vec TraceEvent × U64) := do
  let (value, _) ← readArchive.run archive
  return value

/-! ## The reader reads what the writer wrote -/

theorem reads_aligned (mem : AlignedMemory) : Reads readAligned (putAligned mem) mem := by
  have hlt : mem.bytes.length < 2 ^ 64 :=
    Nat.lt_of_le_of_lt mem.size_le (by decide)
  have hput : putAligned mem = putByteVec ⟨mem.bytes, hlt⟩ := by
    rw [putAligned, putByteVec, putVec, List.flatMap_singleton']
  intro t
  rw [hput, readAligned, StateT.run_bind, reads_byteVec]
  show (do let a ← AlignedMemory.newFrom mem.bytes; pure (a, t)) = _
  rw [AlignedMemory.newFrom_eq_ok.mpr rfl]
  rfl

theorem reads_region (e : Entry U64 AlignedMemory) : Reads readRegion (putRegion e) e :=
  reads_bind (reads_u64 e.1) (reads_map (reads_aligned e.2))

theorem reads_register (r : RegVal) : Reads readRegister (putRegister r) r :=
  reads_readWord eof (by decide) r

/-- The snapshot whose regions are listed as `entries`, a later entry replacing an earlier one. -/
def Snapshot.ofEntries (entries : Vec (Entry U64 AlignedMemory)) (registers : Vec RegVal) :
    Snapshot where
  memoryRegions := collect entries.toList
  registers
  regions_lt := by
    have hcard := HashMap.card_foldl_insert_le entries.toList (∅ : Regions)
    rw [show (∅ : Regions).entries.card = 0 from rfl, Nat.zero_add] at hcard
    exact Nat.lt_of_le_of_lt hcard entries.length_lt

theorem reads_entries (entries : Vec (Entry U64 AlignedMemory)) (registers : Vec RegVal) :
    Reads readSnapshot (putVec putRegion entries ++ putVec putRegister registers)
      (Snapshot.ofEntries entries registers) := by
  have hcount : Reads readU64 (toLE 8 entries.toList.length)
      (BitVec.ofNat 64 entries.toList.length) := by
    have h := reads_u64 (BitVec.ofNat 64 entries.toList.length)
    rwa [putWord, BitVec.toNat_ofNat, Nat.mod_eq_of_lt entries.length_lt] at h
  have hentries : ∀ n, (hn : n = entries.toList.length) →
      Reads (readN readRegion n) (entries.toList.flatMap putRegion)
        ⟨entries.toList, hn.symm⟩ := by
    rintro n rfl
    exact reads_readN fun e _ => reads_region e
  rw [putVec, List.append_assoc]
  refine reads_bind hcount ?_
  refine reads_bind (hentries _ (by rw [BitVec.toNat_ofNat, Nat.mod_eq_of_lt entries.length_lt])) ?_
  have hregs := reads_vec eof (v := registers) fun r _ => reads_register r
  intro t
  rw [StateT.run_bind, hregs]
  rfl

/-- The entries of a map, listed. -/
def listed (ord : Order U64 AlignedMemory) (s : Snapshot) : Vec (Entry U64 AlignedMemory) where
  toList := ord.entries s.memoryRegions
  length_lt := by
    rw [(ord.lists s.memoryRegions).length]
    exact s.regions_lt

/-- Whatever order the entries were listed in, inserting them one by one rebuilds the map. -/
theorem ofEntries_listed (ord : Order U64 AlignedMemory) (s : Snapshot) :
    Snapshot.ofEntries (listed ord s) s.registers = s :=
  Snapshot.ext (HashMap.collect_of_lists (ord.lists s.memoryRegions)) rfl

theorem reads_snapshot (ord : Order U64 AlignedMemory) (s : Snapshot) :
    Reads readSnapshot (putSnapshot ord s) s := by
  have h := reads_entries (listed ord s) s.registers
  rwa [ofEntries_listed, putVec, List.append_assoc] at h

theorem reads_archive (ord : Order U64 AlignedMemory) (s : Snapshot) (events : Vec TraceEvent)
    (hash : U64) : Reads readArchive (encode ord s events hash) (s, events, hash) :=
  reads_bind (reads_snapshot ord s)
    (reads_bind (reads_vec eof fun e _ => reads_traceEvent e) (reads_map (reads_u64 hash)))

theorem decode_of_reads {bs : Bytes} {v : Snapshot × Vec TraceEvent × U64}
    (h : Reads readArchive bs v) (t : Bytes) : decode (bs ++ t) = .ok v := by
  rw [decode, h t]
  rfl

/-- What Record writes, Replay reads. -/
theorem decode_written (ord : Order U64 AlignedMemory) (s : Snapshot) (events : Vec TraceEvent)
    (hash : U64) : decode (encode ord s events hash) = .ok (s, events, hash) := by
  have h := decode_of_reads (reads_archive ord s events hash) []
  rwa [List.append_nil] at h

/-- **The archive round trip**, for every iteration order and with any bytes behind it. -/
theorem decode_encode (ord : Order U64 AlignedMemory) (s : Snapshot) (events : Vec TraceEvent)
    (hash : U64) (t : Bytes) : decode (encode ord s events hash ++ t) = .ok (s, events, hash) :=
  decode_of_reads (reads_archive ord s events hash) t

/-- **The state hash sees the captured state, all of it and nothing else.**  Two snapshots with
    equally many registers feed the hasher the same bytes, whatever the iteration orders, iff the
    low halves of the registers, the sets of regions and the bytes in their buffers are the same.
    So writing a snapshot to an archive and reading it back does not change its hash. -/
theorem hashStream_eq_iff {s s' : Snapshot} {deref deref' : U64 → Bytes}
    (hregs : s.registers.toList.length = s'.registers.toList.length)
    (hbuf : ∀ gpa ∈ s.memoryRegions, (deref gpa).length = (s.own gpa).length)
    (hbuf' : ∀ gpa ∈ s'.memoryRegions, (deref' gpa).length = (s'.own gpa).length)
    (ord ord' : Order U64 AlignedMemory) :
    (s.hashStream ord deref = s'.hashStream ord' deref' ↔
      s.registers.toList.map reg64 = s'.registers.toList.map reg64 ∧
      (∀ gpa, gpa ∈ s.memoryRegions ↔ gpa ∈ s'.memoryRegions) ∧
      ∀ gpa ∈ s.memoryRegions, deref gpa = deref' gpa) ∧
    ∀ (ordWrite : Order U64 AlignedMemory) (events : Vec TraceEvent) (hash : U64),
      ∃ r, decode (encode ordWrite s events hash) = .ok (r, events, hash) ∧
        ∀ hasher, r.hashState hasher ord' r.own = s.hashState hasher ord s.own := by
  refine ⟨⟨fun h => ?_, ?_⟩, fun ordWrite events hash => ⟨s, decode_written .., fun hasher => ?_⟩⟩
  · refine Snapshot.hashStream_inj hregs (fun gpa hgpa => ?_) (fun gpa hgpa => ?_) h
    · rw [hbuf gpa hgpa]
      exact s.own_length_lt gpa
    · rw [hbuf' gpa hgpa]
      exact s'.own_length_lt gpa
  · rintro ⟨hlow, hkeys, hbytes⟩
    exact Snapshot.hashStream_congr hlow hkeys hbytes
  · exact congrArg hasher (Snapshot.hashStream_congr rfl (fun _ => Iff.rfl) fun _ _ => rfl)

/-- A region of one byte, and one register. -/
def smallSnapshot (register : RegVal) : Snapshot where
  memoryRegions := collect [⟨0, ⟨[0xAA], by decide, by decide⟩⟩]
  registers := ⟨[register], by rw [List.length_singleton]; decide⟩
  regions_lt := by decide

/-- The upper half of a register is not hashed. -/
theorem hashStream_eq_iff_sample :
    (smallSnapshot 5).registers ≠ (smallSnapshot 0x10000000000000005).registers ∧
      (smallSnapshot 5).hashStream (HashMap.someOrder ..) (smallSnapshot 5).own =
        (smallSnapshot 0x10000000000000005).hashStream (HashMap.someOrder ..)
          (smallSnapshot 0x10000000000000005).own :=
  ⟨by decide, (hashStream_eq_iff rfl (fun _ _ => rfl) (fun _ _ => rfl) _ _).1.mpr
    ⟨by decide, fun _ => Iff.rfl, fun _ _ => rfl⟩⟩

/-! ## The reader accepts nothing else -/

/-- An archive with the regions listed as `entries`. -/
def putArchive (entries : Vec (Entry U64 AlignedMemory)) (registers : Vec RegVal)
    (events : Vec TraceEvent) (hash : U64) : Bytes :=
  putVec putRegion entries ++
    (putVec putRegister registers ++ (putVec putTraceEvent events ++ putWord 8 hash))

theorem delimited_aligned : Delimited eof readAligned fun bs mem => bs = putAligned mem := by
  refine (delimited_byteVec.bind fun bytes => delimited_lift (AlignedMemory.newFrom bytes.toList)).imp
    ?_
  rintro _ mem ⟨_, bytes, _, rfl, rfl, rfl, hmem⟩
  rw [putAligned, AlignedMemory.newFrom_eq_ok.mp hmem, putByteVec, putVec, List.flatMap_singleton',
    List.append_nil]

theorem delimited_region : Delimited eof readRegion fun bs e => bs = putRegion e := by
  refine (delimited_u64.bind fun gpa => delimited_aligned.map fun mem =>
    (⟨gpa, mem⟩ : Entry U64 AlignedMemory)).imp ?_
  rintro _ e ⟨_, gpa, _, rfl, rfl, mem, rfl, rfl⟩
  rfl

theorem delimited_register : Delimited eof readRegister fun bs r => bs = putRegister r :=
  delimited_readWord (by decide)

theorem delimited_snapshot : Delimited eof readSnapshot fun bs s =>
    ∃ entries, s = Snapshot.ofEntries entries s.registers ∧
      bs = putVec putRegion entries ++ putVec putRegister s.registers := by
  refine (delimited_u64.bind fun n => (delimited_readN delimited_region n.toNat).bind fun entries =>
    (delimited_readVec delimited_register).map fun registers => Snapshot.mk _ registers _).imp ?_
  rintro _ s ⟨_, n, _, rfl, rfl, _, entries, _, rfl, rfl, registers, rfl, rfl⟩
  refine ⟨⟨entries.1, by rw [entries.2]; exact n.isLt⟩, rfl, ?_⟩
  show _ = (toLE 8 entries.1.length ++ entries.1.flatMap putRegion) ++ putVec putRegister registers
  rw [List.append_assoc]
  exact congrArg (toLE 8 · ++ (entries.1.flatMap putRegion ++ putVec putRegister registers))
    entries.2.symm

/-- The regions are there in some order, and possibly more than once. -/
theorem delimited_archive : Delimited eof readArchive fun bs v =>
    ∃ entries, v.1 = Snapshot.ofEntries entries v.1.registers ∧
      bs = putArchive entries v.1.registers v.2.1 v.2.2 := by
  refine (delimited_snapshot.bind fun s => (delimited_readVec delimited_traceEvent).bind
    fun events => delimited_u64.map fun hash => (s, events, hash)).imp ?_
  rintro _ v ⟨_, s, _, rfl, ⟨entries, hs, rfl⟩, _, events, _, rfl, rfl, hash, rfl, rfl⟩
  exact ⟨entries, hs, List.append_assoc ..⟩

theorem reads_putArchive (entries : Vec (Entry U64 AlignedMemory)) (registers : Vec RegVal)
    (events : Vec TraceEvent) (hash : U64) :
    Reads readArchive (putArchive entries registers events hash)
      (Snapshot.ofEntries entries registers, events, hash) := by
  rw [putArchive, ← List.append_assoc]
  exact reads_bind (reads_entries entries registers)
    (reads_bind (reads_vec eof fun e _ => reads_traceEvent e) (reads_map (reads_u64 hash)))

theorem decode_eq_ok_iff {b : Bytes} {v : Snapshot × Vec TraceEvent × U64} :
    decode b = .ok v ↔ ∃ t, readArchive.run b = .ok (v, t) := by
  rw [decode, bind_eq_ok]
  constructor
  · rintro ⟨⟨v', t⟩, hrun, hv⟩
    cases hv
    exact ⟨t, hrun⟩
  · rintro ⟨t, hrun⟩
    exact ⟨(v, t), hrun, rfl⟩

/-- **What Replay accepts**: an archive spelled as Record spells one, with the regions listed in any
    order and any number of times, and anything behind it. -/
theorem decode_eq_ok_iff_spelled {b : Bytes} {v : Snapshot × Vec TraceEvent × U64} :
    decode b = .ok v ↔ ∃ entries t, b = putArchive entries v.1.registers v.2.1 v.2.2 ++ t ∧
      v.1 = Snapshot.ofEntries entries v.1.registers := by
  constructor
  · intro h
    obtain ⟨t, hrun⟩ := decode_eq_ok_iff.mp h
    obtain ⟨_, rfl, ⟨entries, hv, rfl⟩, -⟩ := delimited_archive b v t hrun
    exact ⟨entries, t, rfl, hv⟩
  · obtain ⟨s, events, hash⟩ := v
    rintro ⟨entries, t, rfl, hs⟩
    refine (decode_of_reads (reads_putArchive entries s.registers events hash) t).trans ?_
    exact congrArg (fun r => Except.ok (r, events, hash)) hs.symm

theorem decode_of_eof {b : Bytes} (h : readArchive.run b = .error eof) : decode b = .error eof := by
  rw [decode, h]
  rfl

/-- **A truncated archive is never mistaken for a shorter one.** -/
theorem decode_truncated :
    (∀ (b : Bytes) (v : Snapshot × Vec TraceEvent × U64), decode b = .ok v →
      ∃! n, n ≤ b.length ∧ (∀ c, b.take n <+: c → decode c = .ok v) ∧
        ∀ k < n, ∃ msg, decode (b.take k) = .error (.bincode msg)) ∧
    ∀ (ord : Order U64 AlignedMemory) (s : Snapshot) (events : Vec TraceEvent) (hash : U64),
      ∀ k < (encode ord s events hash).length,
        ∃ msg, decode ((encode ord s events hash).take k) = .error (.bincode msg) := by
  constructor
  · intro b v h
    obtain ⟨t, hrun⟩ := decode_eq_ok_iff.mp h
    obtain ⟨n, hn, hreads, hshort⟩ := delimited_archive.exists_length hrun
    refine ⟨n, ⟨hn, ?_, fun k hk => ⟨_, decode_of_eof (hshort k hk)⟩⟩, ?_⟩
    · rintro c ⟨t', rfl⟩
      exact decode_of_reads hreads t'
    · rintro n' ⟨-, hok, herr⟩
      -- the shorter of two such lengths would be both enough and too short
      rcases Nat.lt_trichotomy n' n with hlt | heq | hgt
      · have hboth := hok (b.take n') (List.prefix_refl _)
        rw [decode_of_eof (hshort n' hlt)] at hboth
        nomatch hboth
      · exact heq
      · obtain ⟨msg, hboth⟩ := herr n hgt
        have hdec := decode_of_reads hreads []
        rw [List.append_nil, hboth] at hdec
        nomatch hdec
  · intro ord s events hash k hk
    exact ⟨_, decode_of_eof (delimited_archive.short_of_reads (reads_archive ord s events hash) hk)⟩

/-- An archive of one register and one event, with a byte behind it. -/
def smallArchive : Bytes :=
  putArchive Vec.empty ⟨[5], by decide⟩ ⟨[⟨0, .rdtsc 1 2⟩], by decide⟩ 7 ++ [0]

theorem decode_truncated_sample :
    ∃! n, n ≤ smallArchive.length ∧
      (∀ c, smallArchive.take n <+: c → decode c =
        .ok (⟨∅, ⟨[5], by decide⟩, by decide⟩, ⟨[⟨0, .rdtsc 1 2⟩], by decide⟩, 7)) ∧
      ∀ k < n, ∃ msg, decode (smallArchive.take k) = .error (.bincode msg) :=
  decode_truncated.1 smallArchive _ rfl

end Vestigium

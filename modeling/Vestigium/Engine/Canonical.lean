/-
  CANONICAL ARCHIVES — which of the files that Replay accepts Record can have written.

  The reader is lenient: it inserts the regions as they come, so a file may list a region twice (the
  later one counts), and what is behind the archive is ignored.  The writer does neither.  Nothing in
  the format marks the difference, yet it is one of length: the files Record writes for a snapshot, a
  trace and a hash are exactly the SHORTEST files that decode to them.  They differ among themselves
  only in the order of the regions, which does not change the length.

  It also tells how a reader could be strict.  Nothing must be left, and the count in front must be
  the number of regions in the map that was built.
-/
import Vestigium.Engine.Archive

namespace Vestigium

open Codec
open Vestigium.HashMap (Order Entry Lists collect)

variable {b : Bytes} {v : Snapshot × Vec TraceEvent × U64}

/-- `b` is what Record writes for `v`, in one order or another. -/
def Written (b : Bytes) (v : Snapshot × Vec TraceEvent × U64) : Prop :=
  ∃ ord, b = encode ord v.1 v.2.1 v.2.2

/-! ## A file and the listings in it -/

theorem encode_eq_putArchive (ord : Order U64 AlignedMemory) (s : Snapshot)
    (events : Vec TraceEvent) (hash : U64) :
    encode ord s events hash = putArchive (listed ord s) s.registers events hash := by
  rw [encode, putSnapshot, putArchive, putVec, List.append_assoc, List.append_assoc,
    List.append_assoc]
  rfl

/-- The regions alone decide the length. -/
theorem length_putArchive (entries : Vec (Entry U64 AlignedMemory)) (registers : Vec RegVal)
    (events : Vec TraceEvent) (hash : U64) :
    (putArchive entries registers events hash).length =
      (entries.toList.flatMap putRegion).length +
        (8 + (putVec putRegister registers ++ (putVec putTraceEvent events ++ putWord 8 hash)).length)
      := by
  rw [putArchive, List.length_append, putVec, List.length_append, length_toLE]
  omega

theorem length_putRegion_pos (e : Entry U64 AlignedMemory) : 0 < (putRegion e).length := by
  rw [putRegion, List.length_append, length_putWord]
  omega

/-- Record's files for one value have one length. -/
theorem length_encode (ord ord' : Order U64 AlignedMemory) (s : Snapshot) (events : Vec TraceEvent)
    (hash : U64) : (encode ord s events hash).length = (encode ord' s events hash).length := by
  have hperm : (listed ord s).toList.Perm (listed ord' s).toList :=
    Multiset.coe_eq_coe.mp ((ord.lists s.memoryRegions).trans (ord'.lists s.memoryRegions).symm)
  rw [encode_eq_putArchive, encode_eq_putArchive, length_putArchive, length_putArchive,
    (hperm.flatMap_right putRegion).length_eq]

/-- The listing of a map among the entries that built it. -/
theorem exists_listed_sublist {s : Snapshot} {entries : Vec (Entry U64 AlignedMemory)}
    (hs : s = Snapshot.ofEntries entries s.registers) :
    ∃ ord, (listed ord s).toList.Sublist entries.toList := by
  obtain ⟨l, hsub, hlists⟩ := HashMap.exists_sublist_lists entries.toList
  have hmap : s.memoryRegions = collect entries.toList := congrArg Snapshot.memoryRegions hs
  rw [← hmap] at hlists
  obtain ⟨ord, hord⟩ := HashMap.exists_order_of_lists hlists
  refine ⟨ord, ?_⟩
  rw [← hord] at hsub
  exact hsub

/-! ## What is accepted beyond what is written -/

/-- An accepted file: some of the regions listed in it are the map's, in some order. -/
structure Spelled (b : Bytes) (v : Snapshot × Vec TraceEvent × U64) where
  entries : Vec (Entry U64 AlignedMemory)
  rest : Bytes
  spelled : b = putArchive entries v.1.registers v.2.1 v.2.2 ++ rest
  left : readArchive.run b = .ok (v, rest)
  ord : Order U64 AlignedMemory
  sublist : (listed ord v.1).toList.Sublist entries.toList

theorem exists_spelled (h : decode b = .ok v) : Nonempty (Spelled b v) := by
  obtain ⟨rest, hrun⟩ := decode_eq_ok_iff.mp h
  obtain ⟨bs, hb, ⟨entries, hv, hbs⟩, -⟩ := delimited_archive b v rest hrun
  obtain ⟨ord, hsub⟩ := exists_listed_sublist hv
  exact ⟨⟨entries, rest, hbs ▸ hb, hrun, ord, hsub⟩⟩

namespace Spelled

/-- The number of regions in the file. -/
theorem take_eight (f : Spelled b v) : b.take 8 = toLE 8 f.entries.toList.length := by
  refine (congrArg (List.take 8) f.spelled).trans ?_
  rw [putArchive, putVec, List.append_assoc, List.append_assoc, List.take_append_of_le_length
    (by rw [length_toLE])]
  exact List.take_of_length_le (by rw [length_toLE])

/-- A byte for each region too many, and what is behind. -/
theorem length_le (f : Spelled b v) :
    (encode f.ord v.1 v.2.1 v.2.2).length + f.entries.toList.length + f.rest.length ≤
      b.length + v.1.memoryRegions.entries.card := by
  have hcard : (listed f.ord v.1).toList.length = v.1.memoryRegions.entries.card :=
    (f.ord.lists v.1.memoryRegions).length
  have hflat := length_flatMap_of_sublist length_putRegion_pos f.sublist
  have hb := congrArg List.length f.spelled
  rw [List.length_append, length_putArchive] at hb
  rw [encode_eq_putArchive, length_putArchive]
  omega

theorem card_le (f : Spelled b v) : v.1.memoryRegions.entries.card ≤ f.entries.toList.length := by
  rw [← (f.ord.lists v.1.memoryRegions).length]
  exact f.sublist.length_le

/-- With nothing listed twice and nothing behind, it is what the writer writes. -/
theorem written (f : Spelled b v) (hrest : f.rest = [])
    (hcard : f.entries.toList.length = v.1.memoryRegions.entries.card) : Written b v := by
  have hall : (listed f.ord v.1).toList = f.entries.toList :=
    f.sublist.eq_of_length ((f.ord.lists v.1.memoryRegions).length.trans hcard.symm)
  refine ⟨f.ord, ?_⟩
  rw [encode_eq_putArchive, Vec.ext hall]
  exact f.spelled.trans (by rw [hrest, List.append_nil])

end Spelled

/-- **Record's files are the shortest ones.**  Among the files that Replay decodes to one value,
    those that Record can have written are the shortest; and they are those that are read to the
    end and have the number of decoded regions in front. -/
theorem written_iff_shortest (h : decode b = .ok v) :
    (Written b v ↔ ∀ c, decode c = .ok v → b.length ≤ c.length) ∧
    (Written b v ↔ readArchive.run b = .ok (v, []) ∧
      b.take 8 = toLE 8 v.1.memoryRegions.entries.card) := by
  obtain ⟨f⟩ := exists_spelled h
  constructor
  · constructor
    · rintro ⟨ord, rfl⟩ c hc
      obtain ⟨g⟩ := exists_spelled hc
      have hle := g.length_le
      have hcard := g.card_le
      rw [length_encode ord g.ord]
      omega
    · intro hshortest
      have hle := f.length_le
      have hcard := f.card_le
      have hb := hshortest _ (decode_written f.ord v.1 v.2.1 v.2.2)
      exact f.written (List.eq_nil_of_length_eq_zero (by omega)) (by omega)
  · constructor
    · rintro ⟨ord, rfl⟩
      have hrun := reads_archive ord v.1 v.2.1 v.2.2 []
      rw [List.append_nil] at hrun
      refine ⟨hrun, ?_⟩
      rw [encode, putSnapshot, List.append_assoc,
        List.take_append_of_le_length (by rw [length_toLE]),
        List.take_of_length_le (by rw [length_toLE]), (ord.lists v.1.memoryRegions).length]
    · rintro ⟨hrun, hcount⟩
      have hrest : f.rest = [] := (Prod.mk.inj (Except.ok.inj (f.left.symm.trans hrun))).2
      have hcard : f.entries.toList.length = v.1.memoryRegions.entries.card := by
        refine toLE_inj (n := 8) ?_ ?_ (f.take_eight.symm.trans hcount)
        · exact Nat.lt_of_lt_of_eq f.entries.length_lt (by norm_num)
        · exact Nat.lt_of_lt_of_eq v.1.regions_lt (by norm_num)
      exact f.written hrest hcard

/-- A buffer of one byte. -/
def oneByte (b : U8) : AlignedMemory where
  bytes := [b]
  nonempty := Nat.one_pos
  size_le := by rw [List.length_singleton]; decide

/-- A file that lists its only region twice. -/
def listedTwice : Bytes :=
  putArchive ⟨[⟨0, oneByte 0xBB⟩, ⟨0, oneByte 0xAA⟩], by decide⟩ (smallSnapshot 5).registers .empty 0

theorem decode_listedTwice : decode listedTwice = .ok (smallSnapshot 5, .empty, 0) := by
  refine decode_eq_ok_iff_spelled.mpr ⟨_, [], (List.append_nil _).symm, Snapshot.ext ?_ rfl⟩
  exact (HashMap.collect_cons_of_mem (by decide)).symm

/-- Replay accepts it, and Record cannot have written it. -/
theorem written_iff_shortest_sample :
    decode listedTwice = .ok (smallSnapshot 5, .empty, 0) ∧
      ¬ Written listedTwice (smallSnapshot 5, .empty, 0) := by
  refine ⟨decode_listedTwice, fun hwritten => ?_⟩
  have hcount := ((written_iff_shortest decode_listedTwice).2.mp hwritten).2
  have hcard : (smallSnapshot 5).memoryRegions.entries.card = 1 := rfl
  rw [hcard] at hcount
  exact absurd hcount (by decide)

end Vestigium

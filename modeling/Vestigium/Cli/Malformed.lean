/-
  MALFORMED ARCHIVES — what Replay makes of a file that Record did not write.

  An archive is decoded without a check on what it says.  A region may have any size; if it has
  none, the allocator is called with a layout it must not be called with.  There may be any number
  of registers: that they fit the names is asserted when they are set, after `restore_snapshot` has
  mapped all regions.

  So a file is harmless only if the sizes and counts spelled out in it happen to be good.
  `WellSized` says so about the bytes alone, and `decode_clean_iff` that it is exactly what is
  needed.  Its two halves meet in the regions: a decoder error that `bincode` does not report comes
  from a region that cannot be allocated (`decode_error_cases`), and such a region is an error of
  that kind however the file goes on (`decode_of_not_allocates`).
-/
import Mathlib.Data.Set.List
import Vestigium.Cli.Replay
import Vestigium.Vmm.SampleCpu

namespace Vestigium.Cli

open Codec
open Vestigium.HashMap (Order Entry collect)
open Vestigium.Loop (bind_eq_error bind_ne_error bind_of_ok bind_of_error ok_ne_error)

/-! ## What a file spells out -/

/-- A region in a file: its address and its bytes, as a syscall's memory write has them. -/
abbrev RawRegion := U64 × Vec U8

/-- `AlignedMemory::new` can allocate a buffer for the region. -/
def Allocates (r : RawRegion) : Prop :=
  0 < r.2.toList.length ∧ r.2.toList.length ≤ maxLayoutSize

/-- A complete archive in a file. -/
structure RawArchive where
  regions : Vec RawRegion
  registers : Vec RegVal
  events : Vec TraceEvent
  hash : U64

namespace RawArchive

def put (a : RawArchive) : Bytes :=
  putVec putMemoryWrite a.regions ++
    (putVec putRegister a.registers ++ (putVec putTraceEvent a.events ++ putWord 8 a.hash))

/-- A region that no later one with its address replaces. -/
def Keeps (a : RawArchive) (r : RawRegion) : Prop :=
  ∃ before after, a.regions.toList = before ++ r :: after ∧ ∀ r' ∈ after, r'.1 ≠ r.1

end RawArchive

/-- The sizes and counts in the file are good. -/
structure WellSized (b : Bytes) : Prop where
  /-- Whatever follows, or is missing: each region that is there has a size the allocator takes. -/
  allocates : ∀ (n : Nat) (rs : List RawRegion) (t : Bytes), n < 2 ^ 64 → rs.length ≤ n →
    b = toLE 8 n ++ (rs.flatMap putMemoryWrite ++ t) → ∀ r ∈ rs, Allocates r
  /-- If the archive is complete, each region that counts consists of whole pages. -/
  pages : ∀ (a : RawArchive) (t : Bytes), b = a.put ++ t → ∀ r, a.Keeps r →
    4096 ∣ r.2.toList.length
  /-- If the archive is complete, it has no registers or as many as there are names. -/
  registers : ∀ (a : RawArchive) (t : Bytes), b = a.put ++ t →
    a.registers.toList.length = 0 ∨ a.registers.toList.length = restoreNames.length

/-! ## What Replay relies on -/

/-- What `set_registers` says when it is given too many or too few values. -/
def lengthAssertion : Fail := .panic "assertion `left == right` failed"

/-- A snapshot that can be restored. -/
structure Usable (snapshot : Snapshot) : Prop where
  pages : ∀ gpa mem, snapshot.memoryRegions.lookup gpa = some mem →
    mem.bytes.length ≠ 0 ∧ 4096 ∣ mem.bytes.length
  registers : snapshot.registers.toList.length = 0 ∨
    snapshot.registers.toList.length = restoreNames.length
  /-- On no platform and no machine do the registers trip the assertion. -/
  restores : ∀ w eng ord m,
    ReplayEngine.restoreSnapshot w eng ord snapshot restoreNames m ≠ .error lengthAssertion

/-- Decoding has returned an error or a usable archive. -/
def Clean (r : Except Fail (Snapshot × Vec TraceEvent × U64)) : Prop :=
  (∃ e, r = .error e ∧ e.IsBincode) ∨ ∃ v, r = .ok v ∧ Usable v.1

section Restore

variable {w : Whp} {eng : ReplayEngine} {ord : Order U64 AlignedMemory} {snapshot : Snapshot}
  {m : Machine}

theorem mapRegions_error {entries : List (Entry U64 AlignedMemory)} {e : Fail}
    (h : ReplayEngine.mapRegions w entries m = .error e) : ∃ code, e = .whp code := by
  induction entries generalizing m with
  | nil => cases h
  | cons entry entries ih =>
    rw [ReplayEngine.mapRegions] at h
    rcases bind_eq_error.mp h with hmap | ⟨m', -, hrest⟩
    · rw [EptManager.mapGpaRange] at hmap
      rcases bind_eq_error.mp hmap with hcall | ⟨_, -, hpure⟩
      · exact Whp.call_error hcall
      · cases hpure
    · exact ih hrest

/-- No values, or one for each name: the assertion holds. -/
theorem restoreSnapshot_ne_assertion (h : snapshot.registers.toList.length = 0 ∨
      snapshot.registers.toList.length = restoreNames.length) :
    eng.restoreSnapshot w ord snapshot restoreNames m ≠ .error lengthAssertion := by
  rw [ReplayEngine.restoreSnapshot]
  refine bind_ne_error (fun hmap => ?_) fun m' => ?_
  · obtain ⟨code, hcode⟩ := mapRegions_error hmap
    cases hcode
  by_cases hne : snapshot.registers.toList = []
  · rw [if_neg (not_not.mpr hne)]
    exact ok_ne_error m' _
  rw [if_pos hne]
  refine bind_ne_error ?_ fun vcpu => ?_
  · unfold ReplayEngine.activeVcpu
    split
    · exact ok_ne_error _ _
    · exact fun hactive => absurd (Except.error.inj hactive) (by decide)
  · have hlen := h.resolve_left fun hzero => hne (List.eq_nil_of_length_eq_zero hzero)
    rw [Vcpu.setRegisters, if_pos hlen.symm]
    refine bind_ne_error (fun hcall => ?_) fun _ => ok_ne_error _ _
    obtain ⟨code, hcode⟩ := Whp.call_error hcall
    cases hcode

/-- **Any other number trips it**, once all regions are mapped. -/
theorem restoreSnapshot_asserts {vcpu : Vcpu} {m' : Machine} (heng : eng.activeVcpu = .ok vcpu)
    (hmap : ReplayEngine.mapRegions w (ord.entries snapshot.memoryRegions) m = .ok m')
    (hzero : snapshot.registers.toList.length ≠ 0)
    (hlen : snapshot.registers.toList.length ≠ restoreNames.length) :
    eng.restoreSnapshot w ord snapshot restoreNames m = .error lengthAssertion := by
  have hne : snapshot.registers.toList ≠ [] := fun h => hzero (by rw [h]; rfl)
  rw [ReplayEngine.restoreSnapshot, bind_of_ok hmap, if_pos hne]
  refine (bind_of_ok heng).trans ?_
  rw [Vcpu.setRegisters, if_neg hlen.symm]
  rfl

end Restore

/-! ## From the file to the allocations -/

/-- How a region that has been allocated is spelled. -/
def spell (e : Entry U64 AlignedMemory) : RawRegion :=
  (e.1, ⟨e.2.bytes, Nat.lt_of_le_of_lt e.2.size_le (by decide)⟩)

theorem putRegion_eq (e : Entry U64 AlignedMemory) : putRegion e = putMemoryWrite (spell e) := by
  rw [putRegion, putMemoryWrite, spell, putAligned, putByteVec, putVec, List.flatMap_singleton']

theorem flatMap_putRegion (es : List (Entry U64 AlignedMemory)) :
    es.flatMap putRegion = (es.map spell).flatMap putMemoryWrite := by
  rw [List.flatMap_map]
  exact List.flatMap_congr fun e _ => putRegion_eq e

theorem exists_spell {r : RawRegion} (h : Allocates r) : ∃ e, spell e = r :=
  ⟨⟨r.1, ⟨r.2.toList, h.1, h.2⟩⟩, rfl⟩

theorem exists_map_spell {rs : List RawRegion} (h : ∀ r ∈ rs, Allocates r) :
    ∃ es : List (Entry U64 AlignedMemory), es.map spell = rs := by
  have hrange : rs ∈ Set.range (List.map spell) := by
    rw [Set.range_list_map]
    exact fun r hr => exists_spell (h r hr)
  exact hrange

/-- Whatever cannot be allocated is not reported as an error of the format. -/
theorem newFrom_error {src : Bytes} {e : Fail} (h : AlignedMemory.newFrom src = .error e) :
    ¬ (0 < src.length ∧ src.length ≤ maxLayoutSize) ∧ ¬ e.IsBincode := by
  unfold AlignedMemory.newFrom at h
  split at h
  · split at h
    · cases h
    · rename_i hpos
      cases h
      refine ⟨fun hsize => hpos hsize.1, ?_⟩
      rintro ⟨_, he⟩
      cases he
  · rename_i hmax
    cases h
    refine ⟨fun hsize => hmax hsize.2, ?_⟩
    rintro ⟨_, he⟩
    cases he

theorem newFrom_of_not_allocates {r : RawRegion} (h : ¬ Allocates r) :
    ∃ e, AlignedMemory.newFrom r.2.toList = .error e := by
  cases hnew : AlignedMemory.newFrom r.2.toList with
  | ok mem =>
    rw [Allocates, ← AlignedMemory.newFrom_eq_ok.mp hnew] at h
    exact absurd ⟨mem.nonempty, mem.size_le⟩ h
  | error e => exact ⟨e, rfl⟩

/-! ## From the allocations to the errors -/

theorem readRegion_error {s : Bytes} {e : Fail} (h : readRegion.run s = .error e) :
    e.IsBincode ∨ ∃ r t, ¬ Allocates r ∧ s = putMemoryWrite r ++ t := by
  rw [readRegion, StateT.run_bind] at h
  rcases bind_eq_error.mp h with hu64 | ⟨⟨gpa, s₁⟩, hgpa, hrest⟩
  · exact .inl (failsWith_u64 s e hu64)
  rw [StateT.run_bind] at hrest
  rcases bind_eq_error.mp hrest with hmem | ⟨_, -, hpure⟩
  · rw [readAligned, StateT.run_bind] at hmem
    rcases bind_eq_error.mp hmem with hvec | ⟨⟨data, s₂⟩, hdata, halloc⟩
    · exact .inl (failsWith_byteVec s₁ e hvec)
    · have hnew : AlignedMemory.newFrom data.toList = .error e := run_lift_eq_error.mp halloc
      obtain ⟨_, rfl, rfl, -⟩ := delimited_u64 s gpa s₁ hgpa
      obtain ⟨_, rfl, rfl, -⟩ := delimited_byteVec s₁ data s₂ hdata
      refine .inr ⟨(gpa, data), s₂, (newFrom_error hnew).1, ?_⟩
      rw [putMemoryWrite, List.append_assoc]
  · cases hpure

theorem readRegion_of_not_allocates {r : RawRegion} (h : ¬ Allocates r) (t : Bytes) :
    ∃ e, ¬ e.IsBincode ∧ readRegion.run (putMemoryWrite r ++ t) = .error e := by
  obtain ⟨e, hnew⟩ := newFrom_of_not_allocates h
  refine ⟨e, (newFrom_error hnew).2, ?_⟩
  rw [putMemoryWrite, List.append_assoc, readRegion, StateT.run_bind]
  refine (bind_of_ok (reads_u64 r.1 _)).trans ?_
  rw [StateT.run_bind, readAligned, StateT.run_bind]
  refine bind_of_error ((bind_of_ok (reads_byteVec r.2 t)).trans ?_)
  exact run_lift_eq_error.mpr hnew

/-- By induction on the count: what comes before the region has been allocated. -/
theorem readRegions_error {n : Nat} {s : Bytes} {e : Fail}
    (h : (readN readRegion n).run s = .error e) :
    e.IsBincode ∨ ∃ (rs : List RawRegion) (t : Bytes), rs.length ≤ n ∧
      s = rs.flatMap putMemoryWrite ++ t ∧ ∃ r ∈ rs, ¬ Allocates r := by
  induction n generalizing s with
  | zero => cases h
  | succ n ih =>
    rw [readN, StateT.run_bind] at h
    rcases bind_eq_error.mp h with hregion | ⟨⟨first, s'⟩, hfirst, hrest⟩
    · rcases readRegion_error hregion with he | ⟨r, t, hr, rfl⟩
      · exact .inl he
      · exact .inr ⟨[r], t, by simp, by simp, r, List.mem_singleton_self r, hr⟩
    · rw [StateT.run_bind] at hrest
      rcases bind_eq_error.mp hrest with hregions | ⟨_, -, hpure⟩
      · rcases ih hregions with he | ⟨rs, t, hlen, rfl, r, hmem, hr⟩
        · exact .inl he
        · obtain ⟨_, rfl, rfl, -⟩ := delimited_region s first _ hfirst
          refine .inr ⟨spell first :: rs, t, Nat.succ_le_succ hlen, ?_, r,
            List.mem_cons_of_mem _ hmem, hr⟩
          rw [List.flatMap_cons, List.append_assoc, putRegion_eq]
      · cases hpure

/-- By induction on the regions: the first that cannot be allocated ends the loop. -/
theorem readRegions_of_not_allocates {rs : List RawRegion} {n : Nat} (t : Bytes)
    (hlen : rs.length ≤ n) (h : ∃ r ∈ rs, ¬ Allocates r) :
    ∃ e, ¬ e.IsBincode ∧ (readN readRegion n).run (rs.flatMap putMemoryWrite ++ t) = .error e := by
  induction rs generalizing n with
  | nil =>
    obtain ⟨r, hr, -⟩ := h
    cases hr
  | cons r rs ih =>
    obtain ⟨n, rfl⟩ := Nat.exists_eq_add_of_le' hlen
    rw [List.length_cons, ← Nat.add_assoc, List.flatMap_cons, List.append_assoc, readN,
      StateT.run_bind]
    by_cases hr : Allocates r
    · have hrest : ∃ r' ∈ rs, ¬ Allocates r' := by
        obtain ⟨r', hr', hbad⟩ := h
        rcases List.mem_cons.mp hr' with rfl | hr'
        · exact absurd hr hbad
        · exact ⟨r', hr', hbad⟩
      obtain ⟨e, he, hrun⟩ := ih (Nat.le_add_left rs.length n) hrest
      obtain ⟨entry, rfl⟩ := exists_spell hr
      refine ⟨e, he, ?_⟩
      rw [← putRegion_eq]
      refine (bind_of_ok (reads_region entry _)).trans ?_
      rw [StateT.run_bind]
      exact bind_of_error hrun
    · obtain ⟨e, he, hrun⟩ := readRegion_of_not_allocates hr (rs.flatMap putMemoryWrite ++ t)
      exact ⟨e, he, bind_of_error hrun⟩

/-- **An error that is not reported** comes from a region that cannot be allocated. -/
theorem decode_error_cases {b : Bytes} {e : Fail} (h : decode b = .error e) : e.IsBincode ∨
    ∃ (n : Nat) (rs : List RawRegion) (t : Bytes), n < 2 ^ 64 ∧ rs.length ≤ n ∧
      b = toLE 8 n ++ (rs.flatMap putMemoryWrite ++ t) ∧ ∃ r ∈ rs, ¬ Allocates r := by
  rw [decode] at h
  rcases bind_eq_error.mp h with harchive | ⟨_, -, hpure⟩
  · rw [readArchive, StateT.run_bind] at harchive
    rcases bind_eq_error.mp harchive with hsnapshot | ⟨p, -, hrest⟩
    · rw [readSnapshot, StateT.run_bind] at hsnapshot
      rcases bind_eq_error.mp hsnapshot with hcount | ⟨⟨n, s⟩, hn, hrest⟩
      · exact .inl (failsWith_u64 b e hcount)
      · rw [StateT.run_bind] at hrest
        rcases bind_eq_error.mp hrest with hregions | ⟨p, -, hrest⟩
        · rcases readRegions_error hregions with he | ⟨rs, t, hlen, rfl, hbad⟩
          · exact .inl he
          · obtain ⟨_, rfl, rfl, -⟩ := delimited_u64 b n _ hn
            exact .inr ⟨n.toNat, rs, t, n.isLt, hlen, rfl, hbad⟩
        · have hregisters := failsWith_readVec isBincode_eof (failsWith_readWord isBincode_eof 16 128)
          exact .inl ((hregisters.map _) _ e hrest)
    · have hevents := failsWith_readVec isBincode_eof failsWith_traceEvent
      exact .inl ((hevents.bind fun _ => failsWith_u64.map _) _ e hrest)
  · cases hpure

/-- **Such a region is an error of that kind** however the file goes on. -/
theorem decode_of_not_allocates {n : Nat} {rs : List RawRegion} (hn : n < 2 ^ 64)
    (hlen : rs.length ≤ n) (h : ∃ r ∈ rs, ¬ Allocates r) (t : Bytes) :
    ∃ e, ¬ e.IsBincode ∧ decode (toLE 8 n ++ (rs.flatMap putMemoryWrite ++ t)) = .error e := by
  have hcount : (BitVec.ofNat 64 n).toNat = n := by rw [BitVec.toNat_ofNat, Nat.mod_eq_of_lt hn]
  obtain ⟨e, he, hrun⟩ := readRegions_of_not_allocates t (hcount.symm ▸ hlen) h
  have hn := reads_u64 (BitVec.ofNat 64 n) (rs.flatMap putMemoryWrite ++ t)
  rw [putWord, hcount] at hn
  refine ⟨e, he, ?_⟩
  rw [decode, readArchive, StateT.run_bind, readSnapshot, StateT.run_bind]
  refine bind_of_error (bind_of_error ((bind_of_ok hn).trans ?_))
  rw [StateT.run_bind]
  exact bind_of_error hrun

/-! ## Complete archives -/

theorem put_of_spell {a : RawArchive} {entries : Vec (Entry U64 AlignedMemory)}
    (h : a.regions.toList = entries.toList.map spell) :
    a.put = putArchive entries a.registers a.events a.hash := by
  have hregions : putVec putMemoryWrite a.regions = putVec putRegion entries := by
    rw [putVec, putVec, flatMap_putRegion, h, List.length_map]
  rw [RawArchive.put, putArchive, hregions]

/-- A complete archive whose regions can all be allocated is decoded, whatever is behind it. -/
theorem decode_put {a : RawArchive} (h : ∀ r ∈ a.regions.toList, Allocates r) :
    ∃ entries, a.regions.toList = entries.toList.map spell ∧ ∀ t,
      decode (a.put ++ t) = .ok (Snapshot.ofEntries entries a.registers, a.events, a.hash) := by
  obtain ⟨es, hes⟩ := exists_map_spell h
  have hlen : es.length < 2 ^ 64 := by
    rw [← List.length_map (f := spell), hes]
    exact a.regions.length_lt
  refine ⟨⟨es, hlen⟩, hes.symm, fun t => ?_⟩
  have hput : a.put = putArchive ⟨es, hlen⟩ a.registers a.events a.hash := put_of_spell hes.symm
  rw [hput]
  exact decode_of_reads (reads_putArchive ⟨es, hlen⟩ a.registers a.events a.hash) t

/-- What is decoded has been spelled out. -/
theorem exists_put_of_decode {b : Bytes} {v : Snapshot × Vec TraceEvent × U64}
    (h : decode b = .ok v) : ∃ (a : RawArchive) (entries : Vec (Entry U64 AlignedMemory)) (t : Bytes),
      b = a.put ++ t ∧ a.regions.toList = entries.toList.map spell ∧ a.registers = v.1.registers ∧
      v.1 = Snapshot.ofEntries entries v.1.registers := by
  obtain ⟨entries, t, rfl, hv⟩ := decode_eq_ok_iff_spelled.mp h
  have hlen : (entries.toList.map spell).length < 2 ^ 64 := by
    rw [List.length_map]
    exact entries.length_lt
  refine ⟨⟨⟨_, hlen⟩, v.1.registers, v.2.1, v.2.2⟩, entries, t, ?_, rfl, rfl, hv⟩
  have hput := put_of_spell (a := ⟨⟨_, hlen⟩, v.1.registers, v.2.1, v.2.2⟩) rfl
  rw [hput]

/-- The regions that count are those the map holds. -/
theorem keeps_iff {a : RawArchive} {entries : Vec (Entry U64 AlignedMemory)}
    (h : a.regions.toList = entries.toList.map spell) {r : RawRegion} : a.Keeps r ↔
      ∃ gpa mem, (collect entries.toList).lookup gpa = some mem ∧ spell ⟨gpa, mem⟩ = r := by
  constructor
  · rintro ⟨before, after, hsplit, hlast⟩
    rw [h] at hsplit
    obtain ⟨l₁, l', hl, rfl, hl'⟩ := List.map_eq_append_iff.mp hsplit
    obtain ⟨⟨gpa, mem⟩, l₂, rfl, hr, rfl⟩ := List.map_eq_cons_iff.mp hl'
    refine ⟨gpa, mem, HashMap.lookup_collect_eq_some.mpr ⟨l₁, l₂, hl, fun hmem => ?_⟩, hr⟩
    obtain ⟨e, he, hkey⟩ := List.mem_map.mp hmem
    rw [← hr] at hlast
    exact hlast _ (List.mem_map_of_mem he) hkey
  · rintro ⟨gpa, mem, hlook, rfl⟩
    obtain ⟨l₁, l₂, hl, hlast⟩ := HashMap.lookup_collect_eq_some.mp hlook
    refine ⟨l₁.map spell, l₂.map spell, by rw [h, hl, List.map_append, List.map_cons], ?_⟩
    intro r' hr' hkey
    obtain ⟨e, he, rfl⟩ := List.mem_map.mp hr'
    exact hlast (List.mem_map.mpr ⟨e, he, hkey⟩)

theorem usable_iff {a : RawArchive} {entries : Vec (Entry U64 AlignedMemory)}
    (h : a.regions.toList = entries.toList.map spell) :
    Usable (Snapshot.ofEntries entries a.registers) ↔
      (∀ r, a.Keeps r → 4096 ∣ r.2.toList.length) ∧
      (a.registers.toList.length = 0 ∨ a.registers.toList.length = restoreNames.length) := by
  constructor
  · intro husable
    refine ⟨fun r hr => ?_, husable.registers⟩
    obtain ⟨gpa, mem, hlook, rfl⟩ := (keeps_iff h).mp hr
    exact (husable.pages gpa mem hlook).2
  · rintro ⟨hpages, hregisters⟩
    refine ⟨fun gpa mem hlook => ⟨?_, ?_⟩, hregisters, fun w eng ord m => ?_⟩
    · exact Nat.ne_of_gt mem.nonempty
    · exact hpages _ ((keeps_iff h).mpr ⟨gpa, mem, hlook, rfl⟩)
    · exact restoreSnapshot_ne_assertion hregisters

theorem Clean.allocates {n : Nat} {rs : List RawRegion} {t : Bytes}
    (h : Clean (decode (toLE 8 n ++ (rs.flatMap putMemoryWrite ++ t)))) (hn : n < 2 ^ 64)
    (hlen : rs.length ≤ n) : ∀ r ∈ rs, Allocates r := by
  intro r hr
  by_contra hbad
  obtain ⟨e, he, hdec⟩ := decode_of_not_allocates hn hlen ⟨r, hr, hbad⟩ t
  rw [hdec] at h
  rcases h with ⟨e', heq, he'⟩ | ⟨v, heq, -⟩
  · cases heq
    exact he he'
  · cases heq

theorem Clean.usable {a : RawArchive} {t : Bytes} (h : Clean (decode (a.put ++ t))) :
    ∃ entries, a.regions.toList = entries.toList.map spell ∧
      Usable (Snapshot.ofEntries entries a.registers) := by
  have hput : a.put ++ t = toLE 8 a.regions.toList.length ++
      (a.regions.toList.flatMap putMemoryWrite ++ (putVec putRegister a.registers ++
        (putVec putTraceEvent a.events ++ (putWord 8 a.hash ++ t)))) := by
    rw [RawArchive.put, putVec]
    simp only [List.append_assoc]
  have hall : ∀ r ∈ a.regions.toList, Allocates r := by
    rw [hput] at h
    exact h.allocates a.regions.length_lt (Nat.le_refl _)
  obtain ⟨entries, hspell, hdec⟩ := decode_put hall
  rw [hdec] at h
  rcases h with ⟨e, heq, -⟩ | ⟨v, heq, husable⟩
  · cases heq
  · cases heq
    exact ⟨entries, hspell, husable⟩

/-- **Which files are harmless.**  Decoding a file leads to an error of `bincode` or to an archive
    that can be restored iff the sizes and counts spelled out in the file are good; nothing in the
    decoder looks at them. -/
theorem decode_clean_iff (b : Bytes) : Clean (decode b) ↔ WellSized b := by
  constructor
  · intro hclean
    refine ⟨?_, ?_, ?_⟩
    · rintro n rs t hn hlen rfl
      exact hclean.allocates hn hlen
    · rintro a t rfl
      obtain ⟨entries, hspell, husable⟩ := hclean.usable
      exact ((usable_iff hspell).mp husable).1
    · rintro a t rfl
      obtain ⟨entries, hspell, husable⟩ := hclean.usable
      exact ((usable_iff hspell).mp husable).2
  · intro hb
    cases hdec : decode b with
    | error e =>
      rcases decode_error_cases hdec with he | ⟨n, rs, t, hn, hlen, heq, r, hr, hbad⟩
      · exact .inl ⟨e, rfl, he⟩
      · exact absurd (hb.allocates n rs t hn hlen heq r hr) hbad
    | ok v =>
      obtain ⟨a, entries, t, heq, hspell, hregisters, hv⟩ := exists_put_of_decode hdec
      refine .inr ⟨v, rfl, ?_⟩
      rw [hv, ← hregisters]
      exact (usable_iff hspell).mpr ⟨hb.pages a t heq, hb.registers a t heq⟩

/-- A region without bytes. -/
def emptyRegion : RawArchive := ⟨⟨[(0, Vec.empty)], by decide⟩, Vec.empty, Vec.empty, 0⟩

/-- Far from a page. -/
def threeBytes : AlignedMemory := ⟨[0x0F, 0xA2, 0xF4], by decide, by decide⟩

/-- A region of three bytes, and one register. -/
def oneRegister : RawArchive :=
  ⟨⟨[spell ⟨0, threeBytes⟩], by rw [List.length_singleton]; decide⟩, ⟨[0], by decide⟩, Vec.empty, 0⟩

/-- The one is not an error of `bincode`, and the other no error at all; but its region is not a page,
    and its register trips the assertion when the region is mapped. -/
theorem decode_unclean :
    decode emptyRegion.put = .error (.undefined "alloc_zeroed with a zero-sized layout") ∧
    ¬ Clean (decode emptyRegion.put) ∧ ¬ Clean (decode oneRegister.put) ∧
    ∃ v, decode oneRegister.put = .ok v ∧ v.1.own 0 = [0x0F, 0xA2, 0xF4] ∧
      engine.restoreSnapshot SampleCpu.whp (HashMap.someOrder ..) v.1 restoreNames
        (fresh SampleCpu.whp v.1) = .error lengthAssertion := by
  have hempty : decode emptyRegion.put =
      .error (.undefined "alloc_zeroed with a zero-sized layout") := rfl
  have hone : decode oneRegister.put =
      .ok (Snapshot.ofEntries ⟨[⟨0, threeBytes⟩], by rw [List.length_singleton]; decide⟩
        oneRegister.registers, Vec.empty, 0) := rfl
  refine ⟨hempty, ?_, ?_, _, hone, rfl, ?_⟩
  · rw [hempty]
    rintro (⟨e, heq, msg, rfl⟩ | ⟨v, heq, -⟩)
    · cases heq
    · cases heq
  · rw [hone]
    rintro (⟨e, heq, -⟩ | ⟨v, heq, husable⟩)
    · cases heq
    · cases heq
      exact absurd husable.registers (by decide)
  · exact restoreSnapshot_asserts engine_activeVcpu (mapRegions_eq_ok.mpr ⟨fun _ _ => rfl, rfl⟩)
      (by decide) (by decide)

end Vestigium.Cli

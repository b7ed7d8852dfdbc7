/-
  RESTORING A SNAPSHOT — `restore_snapshot`, once and again.

  The regions are mapped in the order in which a hash map yields them.  A later range replaces the
  pages of an earlier one, so the order could matter; but it does not for regions that keep apart,
  since what is mapped is then the same SET of ranges (`restore_order_independent`).

  What is mapped are the snapshot's own buffers.  A guest store goes through the map into them, and
  restoring the snapshot again maps what is there by then: it leaves guest memory exactly as the
  guest has left it (`ram_again`).
-/
import Vestigium.Cli.Replay
import Vestigium.Vmm.SampleCpu

namespace Vestigium.Cli

open Codec
open Vestigium.HashMap (Order Entry)
open Vestigium.Loop (bind_eq_ok)

/-! ## Regions that keep apart -/

/-- No address lies in two regions of the snapshot. -/
def RegionsApart (snapshot : Snapshot) : Prop :=
  ∀ g mem g' mem', snapshot.memoryRegions.lookup g = some mem →
    snapshot.memoryRegions.lookup g' = some mem' → g ≠ g' →
    g.toNat + mem.bytes.length ≤ g'.toNat ∨ g'.toNat + mem'.bytes.length ≤ g.toNat

/-- The ranges in `maps` are the regions of the snapshot, in any order and however often. -/
def MapsRegions (snapshot : Snapshot) (maps : List Mapping) : Prop :=
  ∀ mp, mp ∈ maps ↔ ∃ g mem, snapshot.memoryRegions.lookup g = some mem ∧ mp = regionMapping ⟨g, mem⟩

/-- A region is mapped at its key, whole. -/
theorem regionMapping_eq (g : U64) (mem : AlignedMemory) :
    regionMapping ⟨g, mem⟩ = ⟨g.toNat, mem.bytes.length, .region g, allFlags⟩ := by
  have hlt : mem.bytes.length < 2 ^ 64 := Nat.lt_of_le_of_lt mem.size_le (by decide)
  rw [regionMapping, BitVec.toNat_ofNat, Nat.mod_eq_of_lt hlt]

section Regions

variable {snapshot : Snapshot} {m n : Machine}

theorem mapsRegions_of_perm {ord : Order U64 AlignedMemory} {entries : List (Entry U64 AlignedMemory)}
    (hperm : entries.Perm (ord.entries snapshot.memoryRegions)) :
    MapsRegions snapshot (entries.map regionMapping).reverse := by
  intro mp
  simp only [List.mem_reverse, List.mem_map, hperm.mem_iff]
  constructor
  · rintro ⟨⟨g, mem⟩, he, rfl⟩
    exact ⟨g, mem, (ord.lists snapshot.memoryRegions).mem_iff.mp he, rfl⟩
  · rintro ⟨g, mem, hlook, rfl⟩
    exact ⟨⟨g, mem⟩, (ord.lists snapshot.memoryRegions).mem_iff.mpr hlook, rfl⟩

theorem MapsRegions.append {maps maps' : List Mapping} (h : MapsRegions snapshot maps)
    (h' : MapsRegions snapshot maps') : MapsRegions snapshot (maps ++ maps') := by
  intro mp
  rw [List.mem_append, h mp, h' mp, or_self]

theorem MapsRegions.disjoint {maps : List Mapping} (h : MapsRegions snapshot maps)
    (hapart : RegionsApart snapshot) : Machine.DisjointMaps maps := by
  intro mp hmp mp' hmp' a hcov hcov'
  obtain ⟨g, mem, hlook, rfl⟩ := (h mp).mp hmp
  obtain ⟨g', mem', hlook', rfl⟩ := (h mp').mp hmp'
  rw [regionMapping_eq, Mapping.covers_iff] at hcov hcov'
  dsimp only at hcov hcov'
  by_cases hg : g = g'
  · subst hg
    obtain rfl : mem = mem' := Option.some.inj (hlook.symm.trans hlook')
    rfl
  · rcases hapart g mem g' mem' hlook hlook' hg with hle | hle <;> omega

theorem MapsRegions.unaliased {maps : List Mapping} (h : MapsRegions snapshot maps) :
    Machine.Unaliased maps := by
  intro mp hmp mp' hmp' hbuf
  obtain ⟨g, mem, -, rfl⟩ := (h mp).mp hmp
  obtain ⟨g', mem', -, rfl⟩ := (h mp').mp hmp'
  obtain rfl : g = g' := Buf.region.inj hbuf
  rfl

/-- Byte `i` of a region that is mapped. -/
theorem ram_of_region (hm : MapsRegions snapshot m.maps) (hapart : RegionsApart snapshot) {g : U64}
    {mem : AlignedMemory} (hlook : snapshot.memoryRegions.lookup g = some mem) {i : Nat}
    (hi : i < mem.bytes.length) :
    m.ram (g.toNat + i) = ((m.host (.region g))[i]?).map (·, allFlags) := by
  have hmem := (hm (regionMapping ⟨g, mem⟩)).mpr ⟨g, mem, hlook, rfl⟩
  rw [regionMapping_eq] at hmem
  exact Machine.ram_of_mem (hm.disjoint hapart) hmem hi

/-- Outside all regions nothing is mapped. -/
theorem ram_of_no_region (hm : MapsRegions snapshot m.maps) {a : Nat}
    (ha : ∀ g mem, snapshot.memoryRegions.lookup g = some mem →
      ¬ (g.toNat ≤ a ∧ a < g.toNat + mem.bytes.length)) : m.ram a = none := by
  refine Machine.ram_of_unmapped ?_
  by_contra hne
  obtain ⟨mp, hmp⟩ := Option.ne_none_iff_exists'.mp hne
  obtain ⟨hmem, hcov⟩ := Machine.backing_mem hmp
  obtain ⟨g, mem, hlook, rfl⟩ := (hm mp).mp hmem
  rw [regionMapping_eq] at hcov
  exact ha g mem hlook hcov

/-- **The order is of no account**: the same ranges out of the same buffers are the same memory. -/
theorem ram_eq_of_regions (hapart : RegionsApart snapshot) (hm : MapsRegions snapshot m.maps)
    (hn : MapsRegions snapshot n.maps) (hhost : n.host = m.host) : n.ram = m.ram := by
  have hmirrors : ∀ {m n : Machine}, MapsRegions snapshot m.maps → MapsRegions snapshot n.maps →
      n.host = m.host → Machine.Mirrors m n := by
    intro m n hm hn hhost mp hmp
    exact ⟨mp, (hn mp).mpr ((hm mp).mp hmp), rfl, rfl, rfl, by rw [hhost]⟩
  exact Machine.ram_eq_of_mirrors (hn.disjoint hapart) (hm.disjoint hapart)
    (hmirrors hn hm hhost.symm) (hmirrors hm hn hhost)

end Regions

/-! ## What `restore_snapshot` does -/

section Restore

variable {w : Whp} {eng : ReplayEngine} {ord : Order U64 AlignedMemory} {snapshot : Snapshot}
  {names : List Reg} {m m' : Machine}

/-- It maps the regions on top of what is mapped, and touches no buffer. -/
theorem restoreSnapshot_maps (h : eng.restoreSnapshot w ord snapshot names m = .ok m') :
    m'.maps = ((ord.entries snapshot.memoryRegions).map regionMapping).reverse ++ m.maps ∧
      m'.host = m.host := by
  obtain ⟨-, ⟨-, rfl⟩ | ⟨-, vcpu, -, hset⟩⟩ := restoreSnapshot_cases.mp h
  · exact ⟨rfl, rfl⟩
  · obtain ⟨-, -, rfl⟩ := Vcpu.setRegisters_eq_ok.mp hset
    exact ⟨rfl, rfl⟩

/-- The regions are mapped, and nothing else that was not. -/
theorem mapsRegions_of_restore (h : eng.restoreSnapshot w ord snapshot names m = .ok m')
    (hm : MapsRegions snapshot m.maps ∨ m.maps = []) : MapsRegions snapshot m'.maps := by
  have hregions : MapsRegions snapshot
      ((ord.entries snapshot.memoryRegions).map regionMapping).reverse :=
    mapsRegions_of_perm (List.Perm.refl _)
  rw [(restoreSnapshot_maps h).1]
  rcases hm with hm | hm
  · exact hregions.append hm
  · rwa [hm, List.append_nil]

/-- The order decides neither whether the calls succeed nor what they do to the registers. -/
theorem restoreSnapshot_reorder (h : eng.restoreSnapshot w ord snapshot names m = .ok m')
    (ord' : Order U64 AlignedMemory) :
    ∃ m'', eng.restoreSnapshot w ord' snapshot names m = .ok m'' ∧ m''.vps = m'.vps := by
  obtain ⟨hcalls, hregs⟩ := restoreSnapshot_cases.mp h
  have hcalls' : ∀ e ∈ ord'.entries snapshot.memoryRegions,
      w.fault (.mapGpaRange e.1 (BitVec.ofNat 64 e.2.bytes.length) allFlags) = none := by
    rintro ⟨g, mem⟩ he
    exact hcalls _ ((ord.lists snapshot.memoryRegions).mem_iff.mpr
      ((ord'.lists snapshot.memoryRegions).mem_iff.mp he))
  rcases hregs with ⟨hnil, rfl⟩ | ⟨hne, vcpu, heng, hset⟩
  · exact ⟨_, restoreSnapshot_cases.mpr ⟨hcalls', .inl ⟨hnil, rfl⟩⟩, rfl⟩
  · obtain ⟨hlen, hfault, rfl⟩ := Vcpu.setRegisters_eq_ok.mp hset
    exact ⟨_, restoreSnapshot_cases.mpr ⟨hcalls', .inr ⟨hne, vcpu, heng,
      Vcpu.setRegisters_eq_ok.mpr ⟨hlen, hfault, rfl⟩⟩⟩, rfl⟩

end Restore

/-! ## Once: the order of the regions -/

/-- A partition with nothing mapped, in a process whose snapshot holds what has been captured. -/
structure FreshFor (snapshot : Snapshot) (m : Machine) : Prop where
  maps : m.maps = []
  buffers : ∀ g mem, snapshot.memoryRegions.lookup g = some mem → m.host (.region g) = mem.bytes

/-- **Restoring does not depend on the order.**  For regions that keep apart, guest memory is each
    region's bytes from its key on and nothing else; every other order of the map, and every other
    list of its regions, leads to the same memory. -/
theorem restore_order_independent {w : Whp} {eng : ReplayEngine} {ord : Order U64 AlignedMemory}
    {snapshot : Snapshot} {names : List Reg} {m m' : Machine} (hapart : RegionsApart snapshot)
    (hm : FreshFor snapshot m) (h : eng.restoreSnapshot w ord snapshot names m = .ok m') :
    (∀ g mem, snapshot.memoryRegions.lookup g = some mem → ∀ i (hi : i < mem.bytes.length),
      m'.ram (g.toNat + i) = some (mem.bytes[i], allFlags)) ∧
    (∀ a, (∀ g mem, snapshot.memoryRegions.lookup g = some mem →
      ¬ (g.toNat ≤ a ∧ a < g.toNat + mem.bytes.length)) → m'.ram a = none) ∧
    (∀ ord', ∃ m'', eng.restoreSnapshot w ord' snapshot names m = .ok m'' ∧ m''.ram = m'.ram) ∧
    ∀ entries : List (Entry U64 AlignedMemory), entries.Perm (ord.entries snapshot.memoryRegions) →
      ∃ m'', ReplayEngine.mapRegions w entries m = .ok m'' ∧ m''.ram = m'.ram := by
  have hregions := mapsRegions_of_restore h (.inr hm.maps)
  have hhost := (restoreSnapshot_maps h).2
  refine ⟨fun g mem hlook i hi => ?_, fun a => ram_of_no_region hregions, fun ord' => ?_,
    fun entries hperm => ?_⟩
  · rw [ram_of_region hregions hapart hlook hi, hhost, hm.buffers g mem hlook,
      List.getElem?_eq_getElem hi, Option.map_some]
  · obtain ⟨m'', h'', -⟩ := restoreSnapshot_reorder h ord'
    refine ⟨m'', h'', ram_eq_of_regions hapart hregions (mapsRegions_of_restore h'' (.inr hm.maps)) ?_⟩
    rw [(restoreSnapshot_maps h'').2, hhost]
  · have hcalls := (restoreSnapshot_cases.mp h).1
    refine ⟨_, mapRegions_eq_ok.mpr ⟨fun e he => hcalls e (hperm.mem_iff.mp he), rfl⟩,
      ram_eq_of_regions hapart hregions ?_ hhost.symm⟩
    dsimp only
    rw [hm.maps, List.append_nil]
    exact mapsRegions_of_perm hperm

theorem fresh_freshFor (w : Whp) (snapshot : Snapshot) : FreshFor snapshot (fresh w snapshot) :=
  ⟨rfl, fun _ _ hlook => Snapshot.own_of_lookup hlook⟩

/-- A page filled with `b`. -/
def page (b : U8) : AlignedMemory where
  bytes := List.replicate 4096 b
  nonempty := by rw [List.length_replicate]; decide
  size_le := by rw [List.length_replicate]; decide

/-- Two pages, one after the other, and six registers. -/
def pagesSnapshot : Snapshot where
  memoryRegions := Finmap.insert 0x1000 (page 1) (Finmap.insert 0 (page 0) ∅)
  registers := ⟨restoreNames.map fun _ => 0, by decide⟩
  regions_lt := by
    have hone := HashMap.card_insert_le (∅ : Regions) 0 (page 0)
    have htwo := HashMap.card_insert_le (Finmap.insert 0 (page 0) ∅ : Regions) 0x1000 (page 1)
    have hempty : (∅ : Regions).entries.card = 0 := rfl
    omega

theorem pages_lookup {g : U64} {mem : AlignedMemory}
    (h : pagesSnapshot.memoryRegions.lookup g = some mem) :
    (g = 0 ∧ mem = page 0) ∨ (g = 0x1000 ∧ mem = page 1) := by
  rw [pagesSnapshot] at h
  by_cases hone : g = 0x1000
  · rw [hone, Finmap.lookup_insert] at h
    exact .inr ⟨hone, (Option.some.inj h).symm⟩
  rw [Finmap.lookup_insert_of_ne _ hone] at h
  by_cases hzero : g = 0
  · rw [hzero, Finmap.lookup_insert] at h
    exact .inl ⟨hzero, (Option.some.inj h).symm⟩
  rw [Finmap.lookup_insert_of_ne _ hzero, Finmap.lookup_empty] at h
  nomatch h

theorem pages_apart : RegionsApart pagesSnapshot := by
  intro g mem g' mem' hlook hlook' hne
  rcases pages_lookup hlook with ⟨rfl, rfl⟩ | ⟨rfl, rfl⟩ <;>
    rcases pages_lookup hlook' with ⟨rfl, rfl⟩ | ⟨rfl, rfl⟩
  · exact absurd rfl hne
  · left
    rw [page, List.length_replicate]
    decide
  · right
    rw [page, List.length_replicate]
    decide
  · exact absurd rfl hne

/-- The pages can be restored into any partition of a platform that fails no call. -/
theorem pages_restore {w : Whp} (hw : ∀ c, w.fault c = none) (m : Machine) : ∃ m',
    engine.restoreSnapshot w (HashMap.someOrder _ _) pagesSnapshot restoreNames m = .ok m' :=
  ⟨_, restoreSnapshot_cases.mpr ⟨fun _ _ => hw _, .inr ⟨by decide, ⟨0⟩, engine_activeVcpu,
    Vcpu.setRegisters_eq_ok.mpr ⟨rfl, hw _, rfl⟩⟩⟩⟩

theorem restore_order_independent_sample : ∃ m',
    engine.restoreSnapshot SampleCpu.whp (HashMap.someOrder _ _) pagesSnapshot restoreNames
        (fresh SampleCpu.whp pagesSnapshot) = .ok m' ∧
      m'.ram 0x1FFF = some (1, allFlags) ∧ m'.ram 0x2000 = none := by
  obtain ⟨m', h⟩ := pages_restore (w := SampleCpu.whp) (fun _ => rfl) (fresh SampleCpu.whp pagesSnapshot)
  obtain ⟨hin, hout, -, -⟩ :=
    restore_order_independent pages_apart (fresh_freshFor SampleCpu.whp pagesSnapshot) h
  have hlen : (page 1).bytes.length = 4096 := List.length_replicate
  refine ⟨m', h, ?_, hout 0x2000 fun g mem hlook => ?_⟩
  · have hlast := hin 0x1000 (page 1) (Finmap.lookup_insert _) 0xFFF (by rw [hlen]; decide)
    refine Eq.trans (show m'.ram 0x1FFF = m'.ram ((0x1000 : U64).toNat + 0xFFF) from rfl) ?_
    rw [hlast]
    exact congrArg (fun b => some (b, allFlags)) (List.getElem_replicate _)
  · rcases pages_lookup hlook with ⟨rfl, rfl⟩ | ⟨rfl, rfl⟩ <;>
      rw [page, List.length_replicate] <;> decide

/-! ## Again: what the guest has written -/

/-- What happens to a partition between two restores: a virtual processor runs, an event is replayed. -/
def Uses (w : Whp) (eng : ReplayEngine) (m m' : Machine) : Prop :=
  (∃ vcpu ctx, VmRunner.run w vcpu m = .ok (ctx, m')) ∨
    ∃ fuel event line, eng.replayEvent w fuel event m = .ok (m', line)

/-- `n` is a partition of the same process: the one in use, or a new one. -/
structure SameProcess (m n : Machine) : Prop where
  host : n.host = m.host
  maps : n.maps = m.maps ∨ n.maps = []

/-- The named registers of the active virtual processor and guest memory are the same. -/
structure SameState (eng : ReplayEngine) (names : List Reg) (m n : Machine) : Prop where
  ram : n.ram = m.ram
  regs : ∀ vcpu, eng.activeVcpu = .ok vcpu → ∀ r ∈ names,
    (n.vps vcpu.index).regs r = (m.vps vcpu.index).regs r

/-- No use of a partition maps or resizes anything. -/
theorem Uses.sameShape {w : Whp} {eng : ReplayEngine} {m m' : Machine} (h : Uses w eng m m') :
    m.SameShape m' := by
  rcases h with ⟨vcpu, ctx, hrun⟩ | ⟨fuel, event, line, hreplay⟩
  · exact run_sameShape hrun
  · cases heng : eng.activeVcpu with
    | ok vcpu =>
      exact ReplayEngine.replayEvent_kept heng (Kept.sameShape w vcpu m) (Machine.SameShape.refl m)
        hreplay
    | error e =>
      -- without an active processor no event is replayed
      obtain ⟨-, -, t, -, hbody⟩ := ReplayEngine.replayEvent_eq_ok.mp hreplay
      obtain ⟨vcpu, hvcpu, -⟩ := bind_eq_ok.mp hbody
      rw [heng] at hvcpu
      nomatch hvcpu

/-- Nor does any number of uses. -/
theorem sameShape_of_uses {w : Whp} {eng : ReplayEngine} {m m' : Machine}
    (h : Relation.ReflTransGen (Uses w eng) m m') : m.SameShape m' := by
  induction h with
  | refl => exact Machine.SameShape.refl m
  | tail _ huse ih => exact ih.trans huse.sameShape

/-- A register that is written does not depend on what it was. -/
theorem write_congr {r : Reg} : ∀ {names : List Reg} {values : List RegVal} (f g : RegFile),
    names.length = values.length → r ∈ names →
      RegFile.write names values f r = RegFile.write names values g r
  | n :: names, v :: values, f, g, hlen, hr => by
    rw [RegFile.write, RegFile.write]
    by_cases hmem : r ∈ names
    · exact write_congr _ _ (Nat.succ_injective hlen) hmem
    · obtain rfl : r = n := (List.mem_cons.mp hr).resolve_right hmem
      rw [RegFile.write_of_notMem _ _ _ hmem, RegFile.write_of_notMem _ _ _ hmem,
        Function.update_self, Function.update_self]

section Again

variable {w : Whp} {eng : ReplayEngine} {ord ord' : Order U64 AlignedMemory} {snapshot : Snapshot}
  {names : List Reg} {m m₁ m₂ n m₃ : Machine}

/-- **Restoring again does nothing to memory**: it maps what the guest has left in the buffers. -/
theorem ram_again (hapart : RegionsApart snapshot) (hm : m.maps = [])
    (h₁ : eng.restoreSnapshot w ord snapshot names m = .ok m₁)
    (huses : Relation.ReflTransGen (Uses w eng) m₁ m₂) (hn : SameProcess m₂ n)
    (h₃ : eng.restoreSnapshot w ord' snapshot names n = .ok m₃) : m₃.ram = m₂.ram := by
  have hregions : MapsRegions snapshot m₂.maps := by
    rw [(sameShape_of_uses huses).maps]
    exact mapsRegions_of_restore h₁ (.inr hm)
  refine ram_eq_of_regions hapart hregions (mapsRegions_of_restore h₃ ?_) ?_
  · rcases hn.maps with hmaps | hmaps
    · exact .inl (by rwa [hmaps])
    · exact .inr hmaps
  · rw [(restoreSnapshot_maps h₃).2, hn.host]

/-- The named registers come back, whatever they have been in between. -/
theorem regs_again {m m' : Machine} (hlen : names.length = snapshot.registers.toList.length)
    (h : eng.restoreSnapshot w ord snapshot names m = .ok m₁)
    (h' : eng.restoreSnapshot w ord' snapshot names m' = .ok m₃) :
    ∀ vcpu, eng.activeVcpu = .ok vcpu → ∀ r ∈ names,
      (m₃.vps vcpu.index).regs r = (m₁.vps vcpu.index).regs r := by
  intro vcpu heng r hr
  have hset : ∀ {ord : Order U64 AlignedMemory} {m m₁ : Machine},
      eng.restoreSnapshot w ord snapshot names m = .ok m₁ → ∃ f, (m₁.vps vcpu.index).regs =
        RegFile.write names snapshot.registers.toList f := by
    intro ord m m₁ h
    obtain ⟨-, ⟨hnil, -⟩ | ⟨-, vcpu', heng', hset⟩⟩ := restoreSnapshot_cases.mp h
    · -- no registers, no names
      rw [hnil] at hlen
      rw [List.eq_nil_of_length_eq_zero hlen] at hr
      nomatch hr
    · obtain rfl : vcpu = vcpu' := Except.ok.inj (heng.symm.trans heng')
      obtain ⟨-, -, rfl⟩ := Vcpu.setRegisters_eq_ok.mp hset
      exact ⟨_, Vcpu.wrote_regs _ _ _ _⟩
  obtain ⟨f, hf⟩ := hset h
  obtain ⟨g, hg⟩ := hset h'
  rw [hf, hg]
  exact write_congr _ _ hlen hr

end Again

/-- A guest that stores `0xFF` to address 0 and halts. -/
def storing : Whp where
  reset := fun _ => 0
  fault _ := none
  run _ regs _ := .ok ⟨⟨8, 1, 0⟩, regs, [(0, 0xFF)], 2⟩

end Vestigium.Cli

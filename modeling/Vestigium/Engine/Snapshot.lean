/-
  SNAPSHOTS — `AlignedMemory` and `Snapshot` of `engine/src/record.rs`.

  A buffer that nothing else points to is its contents: `AlignedMemory` is a byte list of a size
  `AlignedMemory::new` can allocate.  A snapshot is a finite map of such buffers and a vector of
  register values.

  `hash_state` reads a region through its POINTER, so what it sees is not the captured contents but
  whatever is in the buffer by then.  `hashStream` therefore takes the bytes behind each pointer as
  a parameter, `deref`: `Snapshot.own` for a buffer nobody else writes to, the host memory of the
  machine for one that is mapped into a guest.  The hasher itself is a function of the bytes it is
  fed (a `u64` as eight bytes, a slice as its length and its bytes).

  `hashStream_inj` is the file's main result: no two different captured states are fed to the hasher
  as the same bytes.
-/
import Vestigium.Lib.HashMap
import Vestigium.Trace.Format
import Vestigium.Vmm.Vcpu

namespace Vestigium

open Codec
open Vestigium.HashMap (Order Lists Entry sortKeys)
open Vestigium.Loop (bind_eq_ok)

/-! ## `AlignedMemory` -/

/-- The largest size `Layout::from_size_align(size, 4096)` accepts. -/
def maxLayoutSize : Nat := 2 ^ 63 - 4096

/-- A page-aligned host buffer, by its contents. -/
structure AlignedMemory where
  bytes : Bytes
  /-- A zero-sized allocation is undefined behaviour, so there is no such buffer. -/
  nonempty : 0 < bytes.length
  size_le : bytes.length ≤ maxLayoutSize
deriving DecidableEq

namespace AlignedMemory

/-- `AlignedMemory::new(src.len())` followed by a copy of all of `src` into it. -/
def newFrom (src : Bytes) : Except Fail AlignedMemory :=
  if hmax : src.length ≤ maxLayoutSize then
    if hpos : 0 < src.length then .ok ⟨src, hpos, hmax⟩
    else .error (.undefined "alloc_zeroed with a zero-sized layout")
  else .error (.panic "Invalid alignment layout")

/-- `AlignedMemory::new`: zeroed. -/
def new (size : Nat) : Except Fail AlignedMemory := newFrom (List.replicate size 0)

theorem newFrom_eq_ok {src : Bytes} {mem : AlignedMemory} :
    newFrom src = .ok mem ↔ mem.bytes = src := by
  unfold newFrom
  constructor
  · intro h
    split at h
    · split at h
      · cases h
        rfl
      · nomatch h
    · nomatch h
  · rintro rfl
    rw [dif_pos mem.size_le, dif_pos mem.nonempty]

end AlignedMemory

/-! ## `Snapshot` -/

abbrev Regions := HashMap.Map U64 AlignedMemory

/-- `Snapshot`.  The number of regions is a `usize`. -/
structure Snapshot where
  memoryRegions : Regions
  registers : Vec RegVal
  regions_lt : memoryRegions.entries.card < 2 ^ 64

namespace Snapshot

theorem ext {s s' : Snapshot} (hm : s.memoryRegions = s'.memoryRegions)
    (hr : s.registers = s'.registers) : s = s' := by
  cases s
  cases s'
  cases hm
  cases hr
  rfl

theorem card_empty_lt : (∅ : Regions).entries.card < 2 ^ 64 := Nat.two_pow_pos 64

/-- `Snapshot::new`. -/
def new : Snapshot where
  memoryRegions := ∅
  registers := Vec.empty
  regions_lt := card_empty_lt

/-- `HashMap::insert` into the regions. -/
def insertRegion (s : Snapshot) (gpa : U64) (buffer : AlignedMemory) : Except Fail Snapshot :=
  if h : (s.memoryRegions.insert gpa buffer).entries.card < 2 ^ 64 then
    .ok { s with memoryRegions := s.memoryRegions.insert gpa buffer, regions_lt := h }
  else .error (.panic "capacity overflow")

/-- `Snapshot::capture_region`: copy `size` bytes at `host` into a buffer of the snapshot's own. -/
def captureRegion (gpa : U64) (host : Bytes) (size : Nat) (s : Snapshot) :
    Except Fail Snapshot := do
  if size ≤ host.length then do
    let buffer ← AlignedMemory.newFrom (host.take size)
    s.insertRegion gpa buffer
  else .error (.undefined "copy_nonoverlapping past the end of the source")

/-- `Snapshot::capture_registers`. -/
def captureRegisters (w : Whp) (vcpu : Vcpu) (names : List Reg) (m : Machine) (s : Snapshot) :
    Except Fail Snapshot := do
  let values ← vcpu.getRegisters w names m
  match Vec.ofList? values with
  | some registers => return { s with registers }
  | none => .error (.panic "capacity overflow")

/-- The contents of the snapshot's own buffer for the region at `gpa`. -/
def own (s : Snapshot) (gpa : U64) : Bytes :=
  match s.memoryRegions.lookup gpa with
  | some mem => mem.bytes
  | none => []

theorem own_of_lookup {s : Snapshot} {gpa : U64} {mem : AlignedMemory}
    (h : s.memoryRegions.lookup gpa = some mem) : s.own gpa = mem.bytes := by
  rw [own, h]

theorem own_length_lt (s : Snapshot) (gpa : U64) : (s.own gpa).length < 2 ^ 64 := by
  unfold own
  split
  · rename_i mem _
    exact Nat.lt_of_le_of_lt mem.size_le (by decide)
  · exact Nat.two_pow_pos 64

theorem captureRegion_eq_ok {gpa : U64} {host : Bytes} {s s' : Snapshot}
    (h : captureRegion gpa host host.length s = .ok s') :
    s'.registers = s.registers ∧ ∃ mem : AlignedMemory, mem.bytes = host ∧
      s'.memoryRegions = s.memoryRegions.insert gpa mem := by
  rw [captureRegion, if_pos (Nat.le_refl _), List.take_length] at h
  obtain ⟨mem, hmem, h⟩ := bind_eq_ok.mp h
  unfold insertRegion at h
  split at h
  · cases h
    exact ⟨rfl, mem, AlignedMemory.newFrom_eq_ok.mp hmem, rfl⟩
  · nomatch h

theorem captureRegion_of_size (s : Snapshot) (gpa : U64) (mem : AlignedMemory)
    (hlt : (s.memoryRegions.insert gpa mem).entries.card < 2 ^ 64) :
    captureRegion gpa mem.bytes mem.bytes.length s =
      .ok { s with memoryRegions := s.memoryRegions.insert gpa mem, regions_lt := hlt } := by
  rw [captureRegion, if_pos (Nat.le_refl _), List.take_length]
  refine bind_eq_ok.mpr ⟨mem, AlignedMemory.newFrom_eq_ok.mpr rfl, ?_⟩
  rw [insertRegion, dif_pos hlt]

theorem captureRegisters_eq_ok {w : Whp} {vcpu : Vcpu} {names : List Reg} {m : Machine}
    {s s' : Snapshot} (h : captureRegisters w vcpu names m s = .ok s') :
    s'.memoryRegions = s.memoryRegions ∧
      s'.registers.toList = names.map (m.vps vcpu.index).regs ∧
      w.fault (.getRegisters vcpu.index names (m.vps vcpu.index).regs) = none := by
  obtain ⟨values, hv, h⟩ := bind_eq_ok.mp h
  obtain ⟨hfault, rfl⟩ := Vcpu.getRegisters_eq_ok.mp hv
  split at h
  · rename_i registers hr
    cases h
    exact ⟨rfl, Vec.ofList?_eq_some.mp hr, hfault⟩
  · nomatch h

theorem captureRegisters_of_fault {w : Whp} (vcpu : Vcpu) {names : List Reg} {m : Machine}
    (hlen : names.length < 2 ^ 64)
    (h : w.fault (.getRegisters vcpu.index names (m.vps vcpu.index).regs) = none) (s : Snapshot) :
    ∃ s', captureRegisters w vcpu names m s = .ok s' := by
  let registers : Vec RegVal := ⟨names.map (m.vps vcpu.index).regs, by rwa [List.length_map]⟩
  refine ⟨{ s with registers }, bind_eq_ok.mpr ⟨_, Vcpu.getRegisters_eq_ok.mpr ⟨h, rfl⟩, ?_⟩⟩
  rw [Vec.ofList?_eq_some.mpr (show registers.toList = _ from rfl)]
  rfl

/-! ## `hash_state` -/

/-- What the hasher is fed for one region: the key, then the slice. -/
def hashRegion (deref : U64 → Bytes) (gpa : U64) : Bytes :=
  putWord 8 gpa ++ (toLE 8 (deref gpa).length ++ deref gpa)

/-- What the hasher is fed for one register: its low 64 bits. -/
def hashRegister (r : RegVal) : Bytes := putWord 8 (reg64 r)

/-- The bytes `Snapshot::hash_state` feeds the hasher. -/
def hashStream (ord : Order U64 AlignedMemory) (s : Snapshot) (deref : U64 → Bytes) : Bytes :=
  s.registers.toList.flatMap hashRegister ++
    (sortKeys BitVec.toNat (ord.entries s.memoryRegions)).flatMap (hashRegion deref)

/-- `Snapshot::hash_state`. -/
def hashState (hasher : Bytes → U64) (ord : Order U64 AlignedMemory) (s : Snapshot)
    (deref : U64 → Bytes) : U64 :=
  hasher (hashStream ord s deref)

end Snapshot

theorem toNat_injective : Function.Injective (BitVec.toNat : U64 → Nat) :=
  fun _ _ h => BitVec.eq_of_toNat_eq h

theorem putWord8_inj {x y : U64} (h : putWord 8 x = putWord 8 y) : x = y :=
  BitVec.eq_of_toNat_eq
    (toLE_inj (Nat.lt_of_lt_of_eq x.isLt (by norm_num)) (Nat.lt_of_lt_of_eq y.isLt (by norm_num)) h)

namespace Snapshot

/-- Registers are framed by their number alone. -/
theorem hashRegisters_inj : ∀ {l l' : List RegVal}, l.length = l'.length →
    l.flatMap hashRegister = l'.flatMap hashRegister → l.map reg64 = l'.map reg64
  | [], [], _, _ => rfl
  | r :: l, r' :: l', hlen, h => by
    rw [List.flatMap_cons, List.flatMap_cons] at h
    obtain ⟨hr, hl⟩ := List.append_inj h (by simp [hashRegister])
    rw [List.map_cons, List.map_cons, putWord8_inj hr,
      hashRegisters_inj (Nat.succ_injective hlen) hl]

/-- Regions are framed by their keys and lengths, so the concatenation decodes. -/
theorem hashRegions_inj {d d' : U64 → Bytes} : ∀ {ks ks' : List U64},
    (∀ k ∈ ks, (d k).length < 2 ^ 64) → (∀ k ∈ ks', (d' k).length < 2 ^ 64) →
    ks.flatMap (hashRegion d) = ks'.flatMap (hashRegion d') →
    ks = ks' ∧ ∀ k ∈ ks, d k = d' k
  | [], [], _, _, _ => ⟨rfl, fun _ hk => (nomatch hk)⟩
  | [], k' :: ks', _, _, h => by
    have hlen := congrArg List.length h
    simp [hashRegion] at hlen
    omega
  | k :: ks, [], _, _, h => by
    have hlen := congrArg List.length h
    simp [hashRegion] at hlen
  | k :: ks, k' :: ks', hd, hd', h => by
    simp only [List.flatMap_cons, hashRegion, List.append_assoc] at h
    -- the key, the length, and then as many bytes as the length says
    obtain ⟨hk, h⟩ := List.append_inj h (by simp)
    obtain ⟨hl, h⟩ := List.append_inj h (by simp)
    cases putWord8_inj hk
    have hlen : (d k).length = (d' k).length :=
      toLE_inj (Nat.lt_of_lt_of_eq (hd k List.mem_cons_self) (by norm_num))
        (Nat.lt_of_lt_of_eq (hd' k List.mem_cons_self) (by norm_num)) hl
    obtain ⟨hbytes, h⟩ := List.append_inj h hlen
    obtain ⟨hks, hrest⟩ := hashRegions_inj (fun j hj => hd j (List.mem_cons_of_mem k hj))
      (fun j hj => hd' j (List.mem_cons_of_mem k hj)) h
    refine ⟨by rw [hks], fun j hj => ?_⟩
    rcases List.mem_cons.mp hj with rfl | hj
    · exact hbytes
    · exact hrest j hj

/-- The sorted keys are the map's keys. -/
theorem mem_sortedKeys {ord : Order U64 AlignedMemory} {s : Snapshot} {k : U64} :
    k ∈ sortKeys BitVec.toNat (ord.entries s.memoryRegions) ↔ k ∈ s.memoryRegions := by
  rw [(HashMap.sortKeys_perm _ _).mem_iff, (ord.lists s.memoryRegions).mem_keys]

/-- **Nothing hashed is lost.**  Two snapshots with equally many registers that feed the hasher the
    same bytes agree on the low half of every register, on the set of regions and on the bytes
    behind every region. -/
theorem hashStream_inj {ord ord' : Order U64 AlignedMemory} {s s' : Snapshot}
    {d d' : U64 → Bytes} (hregs : s.registers.toList.length = s'.registers.toList.length)
    (hd : ∀ k ∈ s.memoryRegions, (d k).length < 2 ^ 64)
    (hd' : ∀ k ∈ s'.memoryRegions, (d' k).length < 2 ^ 64)
    (h : hashStream ord s d = hashStream ord' s' d') :
    s.registers.toList.map reg64 = s'.registers.toList.map reg64 ∧
      (∀ k, k ∈ s.memoryRegions ↔ k ∈ s'.memoryRegions) ∧ ∀ k ∈ s.memoryRegions, d k = d' k := by
  have hlen : ∀ l : List RegVal, (l.flatMap hashRegister).length = 8 * l.length := fun l => by
    induction l with
    | nil => rfl
    | cons r l ih =>
      rw [List.flatMap_cons, List.length_append, ih, hashRegister, length_putWord, List.length_cons]
      omega
  -- equally many registers take equally many bytes: the two halves come apart
  obtain ⟨hr, hk⟩ := List.append_inj h (by rw [hlen, hlen, hregs])
  obtain ⟨hkeys, hbytes⟩ := hashRegions_inj (fun k hk => hd k (mem_sortedKeys.mp hk))
    (fun k hk => hd' k (mem_sortedKeys.mp hk)) hk
  refine ⟨hashRegisters_inj hregs hr, fun k => ?_, fun k hk => hbytes k (mem_sortedKeys.mpr hk)⟩
  have hmem : k ∈ sortKeys BitVec.toNat (ord.entries s.memoryRegions) ↔ k ∈ s.memoryRegions :=
    mem_sortedKeys
  rw [← hmem, hkeys, mem_sortedKeys]

/-- What agrees is hashed alike. -/
theorem hashStream_congr {ord ord' : Order U64 AlignedMemory} {s s' : Snapshot} {d d' : U64 → Bytes}
    (hregs : s.registers.toList.map reg64 = s'.registers.toList.map reg64)
    (hkeys : ∀ k, k ∈ s.memoryRegions ↔ k ∈ s'.memoryRegions)
    (hd : ∀ k ∈ s.memoryRegions, d k = d' k) : hashStream ord s d = hashStream ord' s' d' := by
  have hflat : ∀ l : List RegVal, l.flatMap hashRegister = (l.map reg64).flatMap (putWord 8) :=
    fun l => by rw [List.flatMap_map]; rfl
  have hlists := ord.lists s.memoryRegions
  have hlists' := ord'.lists s'.memoryRegions
  have hperm : ((ord.entries s.memoryRegions).map (·.1)).Perm
      ((ord'.entries s'.memoryRegions).map (·.1)) := by
    refine (List.perm_ext_iff_of_nodup hlists.nodup hlists'.nodup).mpr fun k => ?_
    rw [hlists.mem_keys, hlists'.mem_keys, hkeys]
  rw [hashStream, hashStream, hflat, hflat, hregs, HashMap.sortKeys_eq toNat_injective hperm]
  congr 1
  refine List.flatMap_congr fun k hk => ?_
  rw [hashRegion, hashRegion, hd k ((hkeys k).mpr (mem_sortedKeys.mp hk))]

end Snapshot

end Vestigium

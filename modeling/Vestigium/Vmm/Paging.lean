/-
  IDENTITY PAGE TABLES — `vmm/src/paging.rs`, and the accesses of a guest that runs under them.

  `PageTable.createIdentityMapping` is the source's: 12 KB of zeroes into which 514 quadwords are
  stored.  `walk_identity` says what the processor makes of that buffer wherever it finds it:
  every address below 1 GB is translated to itself and no other address is translated at all.

  `access` is one access of the guest: through the tables CR3 points to, if paging is on, and then
  through the second-level map with its permission flags.  Tables are themselves guest
  memory and are read through the map.
-/
import Vestigium.Lib.Codec
import Vestigium.Lib.PageWalk
import Vestigium.Vmm.Machine

namespace Vestigium

open Codec

/-! ## The buffer -/

/-- `PageTable`, with the contents of the allocation behind `host_ptr`. -/
structure PageTable where
  pml4Gpa : U64
  memory : Bytes
  size : Nat

namespace PageTable

/-- The stores into the page directory: entry `i` maps the `i`-th 2 MB, with flags 0x83. -/
def mapHugePages (pd : Nat) (n : Nat) (qwords : List U64) : List U64 :=
  (List.range n).foldl (fun q i => q.set (pd + i) ((BitVec.ofNat 64 i * 0x200000) ||| 0x83)) qwords

/-- The quadwords of the buffer: PML4, PDPT and PD, 512 each. -/
def qwords (baseGpa : U64) : List U64 :=
  let zeroed := List.replicate 1536 0
  let pml4 := zeroed.set 0 ((baseGpa + 4096) ||| 0x3)
  let pdpt := pml4.set 512 ((baseGpa + 8192) ||| 0x3)
  mapHugePages 1024 512 pdpt

/-- `PageTable::create_identity_mapping`. -/
def createIdentityMapping (baseGpa : U64) : PageTable where
  pml4Gpa := baseGpa
  memory := (qwords baseGpa).flatMap (putWord 8)
  size := 4096 * 3

theorem length_mapHugePages (pd : Nat) : ∀ (n : Nat) (q : List U64),
    (mapHugePages pd n q).length = q.length
  | 0, _ => rfl
  | n + 1, q => by
    have ih := length_mapHugePages pd n q
    rw [mapHugePages] at ih ⊢
    rw [List.range_succ, List.foldl_append]
    simpa using ih

theorem getElem?_mapHugePages (pd : Nat) : ∀ (n : Nat) (q : List U64) (j : Nat), pd + n ≤ q.length →
    (mapHugePages pd n q)[j]? = if pd ≤ j ∧ j < pd + n
      then some ((BitVec.ofNat 64 (j - pd) * 0x200000) ||| 0x83) else q[j]?
  | 0, q, j, _ => by
    rw [if_neg (by omega)]
    rfl
  | n + 1, q, j, h => by
    have ih := getElem?_mapHugePages pd n q j (by omega)
    have hlen := length_mapHugePages pd n q
    rw [mapHugePages] at ih hlen ⊢
    rw [List.range_succ, List.foldl_append, List.foldl_cons, List.foldl_nil, List.getElem?_set]
    by_cases hj : pd + n = j
    · rw [if_pos hj, if_pos (by omega), if_pos (by omega)]
      simp only [← hj, Nat.add_sub_cancel_left]
    · rw [if_neg hj, ih]
      by_cases hin : pd ≤ j ∧ j < pd + n
      · rw [if_pos hin, if_pos (by omega)]
      · rw [if_neg hin, if_neg (by omega)]

theorem length_qwords (base : U64) : (qwords base).length = 1536 := by
  rw [qwords, length_mapHugePages, List.length_set, List.length_set, List.length_replicate]

theorem length_memory (base : U64) : (createIdentityMapping base).memory.length = 12288 := by
  have hflat : ∀ q : List U64, (q.flatMap (putWord 8)).length = 8 * q.length := fun q => by
    induction q with
    | nil => rfl
    | cons x q ih =>
      rw [List.flatMap_cons, List.length_append, ih, length_putWord, List.length_cons]
      omega
  rw [createIdentityMapping, hflat, length_qwords]

/-- Quadword `i` of the buffer: three kinds of entry, and zero everywhere else. -/
theorem getElem?_qwords (base : U64) {i : Nat} (hi : i < 1536) : (qwords base)[i]? = some (
    if i = 0 then (base + 4096) ||| 0x3
    else if i = 512 then (base + 8192) ||| 0x3
    else if 1024 ≤ i then (BitVec.ofNat 64 (i - 1024) * 0x200000) ||| 0x83
    else 0) := by
  have hlen : ∀ x y : U64, (((List.replicate 1536 (0 : U64)).set 0 x).set 512 y).length = 1536 :=
    fun x y => by rw [List.length_set, List.length_set, List.length_replicate]
  rw [qwords, getElem?_mapHugePages 1024 512 _ i (by rw [hlen])]
  by_cases hpd : 1024 ≤ i
  · rw [if_pos (by omega), if_neg (by omega), if_neg (by omega), if_pos hpd]
  · rw [if_neg (by omega), if_neg hpd, List.getElem?_set, List.getElem?_set, List.length_set,
      List.length_replicate]
    by_cases h512 : i = 512
    · rw [if_pos h512.symm, if_pos (by omega), if_neg (by omega), if_pos h512]
    · rw [if_neg (Ne.symm h512), if_neg h512]
      by_cases h0 : i = 0
      · rw [if_pos h0.symm, if_pos (by omega), if_pos h0]
      · rw [if_neg (Ne.symm h0), if_neg h0, List.getElem?_replicate, if_pos hi]

/-- Byte `j` of quadword `i` in a buffer of quadwords. -/
theorem getElem?_flatMap_putWord : ∀ (q : List U64) (i j : Nat), j < 8 →
    (q.flatMap (putWord 8))[8 * i + j]? = q[i]?.bind fun x => (putWord 8 x)[j]?
  | [], i, j, _ => by simp
  | x :: q, 0, j, hj => by
    rw [List.flatMap_cons, List.getElem?_append_left (by rw [length_putWord]; omega)]
    simp
  | x :: q, i + 1, j, hj => by
    rw [List.flatMap_cons, List.getElem?_append_right (by rw [length_putWord]; omega),
      length_putWord, show 8 * (i + 1) + j - 8 = 8 * i + j by omega,
      getElem?_flatMap_putWord q i j hj, List.getElem?_cons_succ]

end PageTable

/-! ## What the processor makes of it -/

/-- The value of entry `i` of the tables at `base`. -/
def identityEntry (base i : Nat) : Nat :=
  if i = 0 then base + 4096 + 3
  else if i = 512 then base + 8192 + 3
  else if 1024 ≤ i then (i - 1024) * 0x200000 + 0x83
  else 0

theorem or_of_aligned {x n b : Nat} (hx : x % 2 ^ n = 0) (hb : b < 2 ^ n) : x ||| b = x + b := by
  have hdiv : 2 ^ n * (x / 2 ^ n) = x := Nat.mul_div_cancel' (Nat.dvd_of_mod_eq_zero hx)
  rw [← hdiv, Nat.two_pow_add_eq_or_of_lt hb]

/-- Flags below the alignment of an address are added to it. -/
theorem toNat_or_flags {x flags : U64} {v n f : Nat} (hx : x.toNat = v) (hv : v % 2 ^ n = 0)
    (hflags : flags.toNat = f) (hf : f < 2 ^ n) : (x ||| flags).toNat = v + f := by
  rw [BitVec.toNat_or, hx, hflags, or_of_aligned hv hf]

theorem toNat_qword {base : U64} (halign : base.toNat % 4096 = 0)
    (hfit : base.toNat + 0x3000 ≤ 2 ^ 52) {i : Nat} (hi : i < 1536) {q : U64}
    (hq : (PageTable.qwords base)[i]? = some q) : q.toNat = identityEntry base.toNat i := by
  have hadd : ∀ (d : U64) (k : Nat), d.toNat = k → k ≤ 0x3000 → (base + d).toNat = base.toNat + k :=
    fun d k hd hk => by rw [BitVec.toNat_add, hd, Nat.mod_eq_of_lt (by omega)]
  rw [PageTable.getElem?_qwords base hi] at hq
  rw [← Option.some.inj hq, identityEntry]
  split
  · exact toNat_or_flags (n := 12) (hadd 4096 4096 rfl (by omega)) (by omega) rfl (by omega)
  split
  · exact toNat_or_flags (n := 12) (hadd 8192 8192 rfl (by omega)) (by omega) rfl (by omega)
  split
  · have hmul : (BitVec.ofNat 64 (i - 1024) * 0x200000).toNat = (i - 1024) * 0x200000 := by
      rw [BitVec.toNat_mul, BitVec.toNat_ofNat, show (0x200000 : U64).toNat = 0x200000 from rfl,
        Nat.mod_eq_of_lt (a := i - 1024) (by omega), Nat.mod_eq_of_lt (by omega)]
    exact toNat_or_flags (n := 21) hmul (by omega) rfl (by omega)
  · rfl

section Walk

open PageWalk

variable {read : Nat → Option Nat} {base : Nat}

/-- In the page directory every entry maps a page of 2 MB. -/
theorem walkFrom_pd (hread : ∀ i < 1536, read (base + 8 * i) = some (identityEntry base i)) (a : Nat) :
    walkFrom read a 2 (base + 8192) true = some ⟨index a 21 * 0x200000 + a % 2 ^ 21, true⟩ := by
  have hlt : index a 21 < 512 := Nat.mod_lt _ (by omega)
  have hpd := hread (1024 + index a 21) (by omega)
  rw [identityEntry, if_neg (by omega), if_neg (by omega), if_pos (by omega),
    Nat.add_sub_cancel_left, show base + 8 * (1024 + index a 21) = base + 8192 + 8 * index a 21 by
      omega] at hpd
  rw [walkFrom_page hpd (by simp [present, bit]; omega) (by simp [largePage, bit]; omega)]
  have hframe : frame (index a 21 * 0x200000 + 0x83) (12 + 9 * 1) = index a 21 * 0x200000 := by
    rw [frame]
    omega
  rw [hframe]
  congr 2
  simp [writable, bit]
  omega

/-- In the page-directory-pointer table only entry 0 is present. -/
theorem walkFrom_pdpt (halign : base % 4096 = 0) (hfit : base + 0x3000 ≤ 2 ^ 52)
    (hread : ∀ i < 1536, read (base + 8 * i) = some (identityEntry base i)) (a : Nat) :
    walkFrom read a 3 (base + 4096) true =
      if index a 30 = 0 then some ⟨index a 21 * 0x200000 + a % 2 ^ 21, true⟩ else none := by
  have hlt : index a 30 < 512 := Nat.mod_lt _ (by omega)
  have hpdpt := hread (512 + index a 30) (by omega)
  rw [show base + 8 * (512 + index a 30) = base + 4096 + 8 * index a 30 by omega] at hpdpt
  by_cases h : index a 30 = 0
  · rw [if_pos h, ← walkFrom_pd hread a]
    have he : identityEntry base (512 + index a 30) = base + 8192 + 3 := by
      rw [h, identityEntry, if_neg (by omega), if_pos rfl]
    have hframe : frame (base + 8192 + 3) 12 = base + 8192 := by
      rw [frame]
      omega
    have hwritable : (true && writable (base + 8192 + 3)) = true := by
      simp [writable, bit]
      omega
    rw [he] at hpdpt
    rw [walkFrom_table hpdpt (by simp [present, bit]; omega) (by simp [largePage, bit]; omega),
      hframe, hwritable]
  · rw [if_neg h]
    refine walkFrom_absent hpdpt ?_
    rw [identityEntry, if_neg (by omega), if_neg (by omega), if_neg (by omega)]
    rfl

/-- In the PML4 only entry 0 is present. -/
theorem walkFrom_pml4 (halign : base % 4096 = 0) (hfit : base + 0x3000 ≤ 2 ^ 52)
    (hread : ∀ i < 1536, read (base + 8 * i) = some (identityEntry base i)) (a : Nat) :
    walkFrom read a 4 base true = if index a 39 = 0 ∧ index a 30 = 0 then
      some ⟨index a 21 * 0x200000 + a % 2 ^ 21, true⟩ else none := by
  have hlt : index a 39 < 512 := Nat.mod_lt _ (by omega)
  have hpml4 := hread (index a 39) (by omega)
  by_cases h : index a 39 = 0
  · simp only [h, true_and]
    rw [← walkFrom_pdpt halign hfit hread a]
    have he : identityEntry base (index a 39) = base + 4096 + 3 := by
      rw [h, identityEntry, if_pos rfl]
    have hframe : frame (base + 4096 + 3) 12 = base + 4096 := by
      rw [frame]
      omega
    have hwritable : (true && writable (base + 4096 + 3)) = true := by
      simp [writable, bit]
      omega
    rw [he] at hpml4
    rw [walkFrom_table hpml4 (by simp [present, bit]; omega) (by simp), hframe, hwritable]
  · rw [if_neg fun hboth => h hboth.1]
    refine walkFrom_absent hpml4 ?_
    rw [identityEntry, if_neg h, if_neg (by omega), if_neg (by omega)]
    rfl

/-- **The identity mapping.**  A processor that finds these tables at `base` translates each address
    below 1 GB to itself, writable, and no other address. -/
theorem walk_identity (halign : base % 4096 = 0) (hfit : base + 0x3000 ≤ 2 ^ 52)
    (hread : ∀ i < 1536, read (base + 8 * i) = some (identityEntry base i)) (a : Nat) :
    walk read base a = if a < 2 ^ 30 then some ⟨a, true⟩ else none := by
  by_cases hcan : Canonical a
  · have hcr3 : frame base 12 = base := by
      rw [frame]
      omega
    rw [walk_of_canonical hcan, hcr3, walkFrom_pml4 halign hfit hread a]
    -- of the canonical addresses, those with both indices 0 are the ones below 1 GB
    have hsmall : index a 39 = 0 ∧ index a 30 = 0 ↔ a < 2 ^ 30 := by
      rcases hcan with h | h <;> simp only [index] <;> omega
    have hphys : a < 2 ^ 30 → index a 21 * 0x200000 + a % 2 ^ 21 = a := by
      intro h
      rw [index]
      omega
    by_cases h : a < 2 ^ 30
    · rw [if_pos (hsmall.mpr h), if_pos h, hphys h]
    · rw [if_neg fun hboth => h (hsmall.mp hboth), if_neg h]
  · rw [walk_of_not_canonical hcan, if_neg]
    intro h
    exact hcan (.inl (by omega))

/-- Every other canonical address meets an entry that is not present, in the PML4 or the PDPT. -/
theorem absent_of_high (halign : base % 4096 = 0) (hfit : base + 0x3000 ≤ 2 ^ 52)
    (hread : ∀ i < 1536, read (base + 8 * i) = some (identityEntry base i)) {a : Nat}
    (hcan : Canonical a) (ha : 2 ^ 30 ≤ a) : ∃ e ∈ entries read base a, present e = false := by
  have hcr3 : frame base 12 = base := by
    rw [frame]
    omega
  rw [entries, hcr3]
  have hlt39 : index a 39 < 512 := Nat.mod_lt _ (by omega)
  have hlt30 : index a 30 < 512 := Nat.mod_lt _ (by omega)
  have hpml4 := hread (index a 39) (by omega)
  by_cases h39 : index a 39 = 0
  · have h30 : index a 30 ≠ 0 := by
      intro h30
      rcases hcan with h | h <;> simp only [index] at h39 h30 <;> omega
    have hframe : frame (base + 4096 + 3) 12 = base + 4096 := by
      rw [frame]
      omega
    have hpdpt := hread (512 + index a 30) (by omega)
    rw [show base + 8 * (512 + index a 30) = frame (base + 4096 + 3) 12 + 8 * index a 30 by
      omega] at hpdpt
    rw [h39, show identityEntry base 0 = base + 4096 + 3 from rfl, ← h39] at hpml4
    refine ⟨_, mem_entriesFrom_table hpml4 (by simp [present, bit]; omega) (by simp)
      (mem_entriesFrom_self hpdpt), ?_⟩
    rw [identityEntry, if_neg (by omega), if_neg (by omega), if_neg (by omega)]
    rfl
  · refine ⟨_, mem_entriesFrom_self hpml4, ?_⟩
    rw [identityEntry, if_neg h39, if_neg (by omega), if_neg (by omega)]
    rfl

end Walk

/-! ## Reading guest-physical memory -/

namespace Ram

/-- The byte at `p`, if it can be read. -/
def readByte (ram : Ram) (p : Nat) : Option U8 :=
  match ram p with
  | some (b, flags) => if canRead flags then some b else none
  | none => none

/-- The `n` bytes from `p` on. -/
def readBytes (ram : Ram) : Nat → Nat → Option Bytes
  | 0, _ => some []
  | n + 1, p => do
    let b ← ram.readByte p
    let bs ← readBytes ram n (p + 1)
    return b :: bs

/-- A table entry. -/
def readQword (ram : Ram) (p : Nat) : Option Nat := (ram.readBytes 8 p).map ofLE

theorem readBytes_eq {ram : Ram} : ∀ {bs : Bytes} {p : Nat},
    (∀ i < bs.length, ram.readByte (p + i) = bs[i]?) → ram.readBytes bs.length p = some bs
  | [], _, _ => rfl
  | b :: bs, p, h => by
    have hhead : ram.readByte p = some b := h 0 (Nat.succ_pos _)
    have htail : ram.readBytes bs.length (p + 1) = some bs := readBytes_eq fun i hi => by
      have hi' := h (i + 1) (Nat.succ_lt_succ hi)
      rwa [List.getElem?_cons_succ, Nat.add_comm i 1, ← Nat.add_assoc] at hi'
    rw [List.length_cons, readBytes, hhead]
    show (do let bs ← readBytes ram bs.length (p + 1); pure (b :: bs)) = _
    rw [htail]
    rfl

/-- Guest memory holds `bytes` from `base` on, readable. -/
def Holds (ram : Ram) (base : Nat) (bytes : Bytes) : Prop :=
  ∀ o < bytes.length, ram.readByte (base + o) = bytes[o]?

/-- Guest memory that holds the page tables yields their entries. -/
theorem readQword_of_holds {ram : Ram} {base : U64} (halign : base.toNat % 4096 = 0)
    (hfit : base.toNat + 0x3000 ≤ 2 ^ 52)
    (h : ram.Holds base.toNat (PageTable.createIdentityMapping base).memory) :
    ∀ i < 1536, ram.readQword (base.toNat + 8 * i) = some (identityEntry base.toNat i) := by
  intro i hi
  have hlen := PageTable.length_memory base
  have hq : ∃ q, (PageTable.qwords base)[i]? = some q :=
    ⟨_, List.getElem?_eq_getElem (by rwa [PageTable.length_qwords])⟩
  obtain ⟨q, hq⟩ := hq
  have hbytes : ram.readBytes 8 (base.toNat + 8 * i) = some (putWord 8 q) := by
    have hr : ram.readBytes (putWord 8 q).length (base.toNat + 8 * i) = some (putWord 8 q) := by
      refine readBytes_eq fun j hj => ?_
      rw [length_putWord] at hj
      rw [Nat.add_assoc, h (8 * i + j) (by omega), PageTable.createIdentityMapping,
        PageTable.getElem?_flatMap_putWord _ i j hj, hq]
      rfl
    rwa [length_putWord] at hr
  rw [readQword, hbytes, ← toNat_qword halign hfit hi hq]
  exact congrArg some (ofLE_toLE (Nat.lt_of_lt_of_eq q.isLt (by norm_num)))

end Ram

/-- The quadwords between the three kinds of entry are zero. -/
theorem PageTable.memory_zero (base : U64) {i j : Nat} (h0 : i ≠ 0) (h512 : i ≠ 512)
    (hi : i < 1024) (hj : j < 8) : (createIdentityMapping base).memory[8 * i + j]? = some 0 := by
  rw [createIdentityMapping, getElem?_flatMap_putWord _ i j hj, getElem?_qwords base (by omega),
    if_neg h0, if_neg h512, if_neg (by omega), Option.bind_some]
  revert j
  decide

/-- **The identity mapping, wherever it is placed.**  A processor that finds the buffer at `base` in
    guest memory and walks it from there translates each address below 1 GB to itself, through
    entries that are present and writable at every level; every other canonical address meets an
    entry that is not present.  Outside its three kinds of entry the buffer is zero. -/
theorem identity_mapping_translates {base : U64} {ram : Ram} (halign : base.toNat % 4096 = 0)
    (hfit : base.toNat + 0x3000 ≤ 2 ^ 52)
    (h : ram.Holds base.toNat (PageTable.createIdentityMapping base).memory) :
    (PageTable.createIdentityMapping base).memory.length = 0x3000 ∧
    (∀ a < 2 ^ 30, PageWalk.walk ram.readQword base.toNat a = some ⟨a, true⟩ ∧
      ∀ e ∈ PageWalk.entries ram.readQword base.toNat a,
        PageWalk.present e = true ∧ PageWalk.writable e = true) ∧
    (∀ a, PageWalk.Canonical a → 2 ^ 30 ≤ a →
      PageWalk.walk ram.readQword base.toNat a = none ∧
      ∃ e ∈ PageWalk.entries ram.readQword base.toNat a, PageWalk.present e = false) ∧
    ∀ i, i ≠ 0 → i ≠ 512 → i < 1024 → ∀ j < 8,
      (PageTable.createIdentityMapping base).memory[8 * i + j]? = some 0 := by
  have hread := Ram.readQword_of_holds halign hfit h
  have hwalk := walk_identity halign hfit hread
  refine ⟨PageTable.length_memory base, fun a ha => ?_, fun a hcan ha => ?_,
    fun i h0 h512 hi j hj => PageTable.memory_zero base h0 h512 hi hj⟩
  · have hself : PageWalk.walk ram.readQword base.toNat a = some ⟨a, true⟩ := by
      rw [hwalk a, if_pos ha]
    refine ⟨hself, fun e he => ?_⟩
    rw [PageWalk.walk_of_canonical (.inl (by omega))] at hself
    obtain ⟨hp, hw⟩ := PageWalk.entriesFrom_of_walkFrom hself e he
    exact ⟨hp, hw rfl⟩
  · exact ⟨by rw [hwalk a, if_neg (by omega)], absent_of_high halign hfit hread hcan ha⟩

/-- Guest memory with nothing but a buffer at `base`. -/
def ramAt (base : Nat) (bytes : Bytes) : Ram := fun p =>
  if p < base then none else (bytes[p - base]?).map (·, 0x7)

theorem ramAt_holds (base : Nat) (bytes : Bytes) : (ramAt base bytes).Holds base bytes := by
  intro o ho
  rw [Ram.readByte, ramAt, if_neg (by omega), Nat.add_sub_cancel_left, List.getElem?_eq_getElem ho]
  rfl

/-- Tables just below 4 GB. -/
theorem identity_mapping_translates_sample :
    PageWalk.walk (ramAt 0xFFFFC000
      (PageTable.createIdentityMapping 0xFFFFC000).memory).readQword 0xFFFFC000 0x12345678 =
        some ⟨0x12345678, true⟩ :=
  ((identity_mapping_translates (show (0xFFFFC000 : U64).toNat % 4096 = 0 by decide) (by decide)
    (ramAt_holds 0xFFFFC000 _)).2.1 0x12345678 (by decide)).1

/-! ## An access of the guest -/

inductive Access where
  | read | write | fetch
deriving DecidableEq, Repr

/-- The flag of a mapped range that lets the access through. -/
def Access.permitted : Access → U32 → Bool
  | .read, flags => canRead flags
  | .write, flags => canWrite flags
  | .fetch, flags => canExecute flags

/-- CR0.PG. -/
def pagingEnabled (regs : RegFile) : Bool := (reg64 (regs .cr0)).getLsbD 31

/-- CR0.WP: whether an entry that is not writable stops the supervisor, which the guest runs as. -/
def writeProtect (regs : RegFile) : Bool := (reg64 (regs .cr0)).getLsbD 16

/-- The guest-physical address of linear address `a`. -/
def translate (regs : RegFile) (ram : Ram) (a : U64) : Option PageWalk.Translation :=
  if pagingEnabled regs then PageWalk.walk ram.readQword (reg64 (regs .cr3)).toNat a.toNat
  else some ⟨a.toNat, true⟩

/-- One access to linear address `a`: the byte there, or an exit. -/
def access (kind : Access) (regs : RegFile) (ram : Ram) (a : U64) : Option U8 :=
  match translate regs ram a with
  | none => none
  | some t =>
    if kind = .write ∧ writeProtect regs ∧ t.writable = false then none
    else match ram t.phys with
      | some (b, flags) => if kind.permitted flags then some b else none
      | none => none

/-- The `n` bytes the guest fetches from linear address `a` on. -/
def fetchBytes (regs : RegFile) (ram : Ram) : Nat → U64 → Option Bytes
  | 0, _ => some []
  | n + 1, a => do
    let b ← access .fetch regs ram a
    let bs ← fetchBytes regs ram n (a + 1)
    return b :: bs

theorem translate_identity {regs : RegFile} {ram : Ram} {base : U64}
    (hpg : pagingEnabled regs = true) (hcr3 : reg64 (regs .cr3) = base)
    (halign : base.toNat % 4096 = 0) (hfit : base.toNat + 0x3000 ≤ 2 ^ 52)
    (h : ram.Holds base.toNat (PageTable.createIdentityMapping base).memory) (a : U64) :
    translate regs ram a = if a.toNat < 2 ^ 30 then some ⟨a.toNat, true⟩ else none := by
  rw [translate, if_pos hpg, hcr3]
  exact walk_identity halign hfit (Ram.readQword_of_holds halign hfit h) a.toNat

/-- Under the identity tables an access goes through iff its address is below 1 GB and the map lets
    it through there. -/
theorem access_isSome_iff {regs : RegFile} {ram : Ram} {base : U64}
    (hpg : pagingEnabled regs = true) (hcr3 : reg64 (regs .cr3) = base)
    (halign : base.toNat % 4096 = 0) (hfit : base.toNat + 0x3000 ≤ 2 ^ 52)
    (h : ram.Holds base.toNat (PageTable.createIdentityMapping base).memory) (kind : Access)
    (a : U64) : (access kind regs ram a).isSome = true ↔
      a.toNat < 2 ^ 30 ∧ ∃ b flags, ram a.toNat = some (b, flags) ∧ kind.permitted flags = true := by
  rw [access, translate_identity hpg hcr3 halign hfit h a]
  by_cases ha : a.toNat < 2 ^ 30
  · simp only [ha, if_true, true_and, Bool.true_eq_false, and_false, if_false]
    cases ram a.toNat with
    | none => simp
    | some x =>
      obtain ⟨b, flags⟩ := x
      by_cases hk : kind.permitted flags = true
      · simp [hk]
      · simp [hk]
  · rw [if_neg ha]
    exact ⟨fun h => (nomatch h), fun h => absurd h.1 ha⟩

end Vestigium

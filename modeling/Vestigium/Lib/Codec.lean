/-
  BYTE FORMATS — writers, readers, and the relation between them.

  A writer is a function to byte lists; a reader consumes a prefix of its input and returns a value
  with the rest.  The two sides of a real format are usually different code (one may even write in
  an order the reader cannot see), so they are not bundled: what ties them together is

      Reads d bs a  :  in front of ANY continuation, `d` consumes exactly `bs` and returns `a`

  and a round trip is proved by composing `Reads` facts along the reader's own structure
  (`reads_pure`, `reads_bind`, `reads_readN`, `reads_vec`), one rule for each construct.

  Integers are little-endian and fixed-width: `toLE n v` are the `n` low bytes of `v`.
-/
import Mathlib.Tactic.Ring
import Mathlib.Data.List.Basic

namespace Vestigium.Codec

abbrev Bytes := List (BitVec 8)

/-! ## Little-endian integers -/

/-- The `n` low bytes of `v`, least significant first. -/
def toLE : Nat → Nat → Bytes
  | 0, _ => []
  | n + 1, v => BitVec.ofNat 8 v :: toLE n (v / 256)

/-- The number whose little-endian bytes these are. -/
def ofLE : Bytes → Nat
  | [] => 0
  | b :: bs => b.toNat + 256 * ofLE bs

@[simp] theorem length_toLE : ∀ n v, (toLE n v).length = n
  | 0, _ => rfl
  | n + 1, v => by rw [toLE, List.length_cons, length_toLE n]

theorem ofLE_toLE : ∀ {n v : Nat}, v < 256 ^ n → ofLE (toLE n v) = v
  | 0, v, h => by
    have h0 : v = 0 := by simpa using h
    rw [h0]
    rfl
  | n + 1, v, h => by
    have hdiv : v / 256 < 256 ^ n := by
      rw [Nat.div_lt_iff_lt_mul (by decide), ← Nat.pow_succ]
      exact h
    rw [toLE, ofLE, ofLE_toLE hdiv, BitVec.toNat_ofNat]
    omega

/-- Two numbers that fit in `n` bytes and have the same bytes are equal. -/
theorem toLE_inj {n v v' : Nat} (hv : v < 256 ^ n) (hv' : v' < 256 ^ n)
    (h : toLE n v = toLE n v') : v = v' := by
  rw [← ofLE_toLE hv, h, ofLE_toLE hv']

/-! ## Growable arrays: a list whose length fits in 64 bits -/

/-- A `Vec`: its length is a `usize`. -/
structure Vec (α : Type) where
  toList : List α
  length_lt : toList.length < 2 ^ 64
deriving DecidableEq

namespace Vec

variable {α : Type}

def empty : Vec α := ⟨[], Nat.two_pow_pos 64⟩

theorem ext {v v' : Vec α} (h : v.toList = v'.toList) : v = v' := by
  cases v
  cases v'
  cases h
  rfl

/-- The list as a `Vec`, if it is short enough to be one. -/
def ofList? (l : List α) : Option (Vec α) := if h : l.length < 2 ^ 64 then some ⟨l, h⟩ else none

theorem ofList?_eq_some {l : List α} {v : Vec α} : ofList? l = some v ↔ v.toList = l := by
  unfold ofList?
  split
  · rename_i h
    constructor
    · intro hv
      rw [← Option.some.inj hv]
    · intro hv
      exact congrArg some (ext hv.symm)
  · rename_i h
    constructor
    · intro hv
      nomatch hv
    · intro hv
      exact absurd (hv ▸ v.length_lt) h

end Vec

/-! ## Readers -/

variable {ε α β γ : Type}

/-- A reader: it consumes a prefix of its input or fails. -/
abbrev Reader (ε α : Type) := StateT Bytes (Except ε) α

/-- In front of any continuation, `d` consumes exactly `bs` and returns `a`. -/
def Reads (d : Reader ε α) (bs : Bytes) (a : α) : Prop := ∀ t, d.run (bs ++ t) = .ok (a, t)

theorem reads_pure (a : α) : Reads (pure a : Reader ε α) [] a := fun _ => rfl

theorem reads_bind {d : Reader ε α} {f : α → Reader ε β} {bs bs' : Bytes} {a : α} {b : β}
    (hd : Reads d bs a) (hf : Reads (f a) bs' b) : Reads (d >>= f) (bs ++ bs') b := by
  intro t
  rw [List.append_assoc, StateT.run_bind, hd]
  exact hf t

/-- A reader that only post-processes what another one read. -/
theorem reads_map {d : Reader ε α} {f : α → β} {bs : Bytes} {a : α} (hd : Reads d bs a) :
    Reads (d >>= fun x => pure (f x)) bs (f a) := by
  have h := reads_bind (f := fun x => pure (f x)) hd (reads_pure (f a))
  rwa [List.append_nil] at h

/-- Take `n` bytes, or fail with `eof`. -/
def readBytes (eof : ε) (n : Nat) : Reader ε Bytes := fun s =>
  if n ≤ s.length then .ok (s.take n, s.drop n) else .error eof

theorem reads_readBytes (eof : ε) (bs : Bytes) : Reads (readBytes eof bs.length) bs bs := by
  intro t
  have hle : bs.length ≤ (bs ++ t).length := by simp
  show readBytes eof bs.length (bs ++ t) = _
  simp [readBytes]

/-- An `n`-byte little-endian integer. -/
def readLE (eof : ε) (n : Nat) : Reader ε Nat := do
  let bs ← readBytes eof n
  return ofLE bs

theorem reads_readLE (eof : ε) {n v : Nat} (h : v < 256 ^ n) :
    Reads (readLE eof n) (toLE n v) v := by
  have hb := reads_readBytes eof (toLE n v)
  rw [length_toLE] at hb
  have hm := reads_map (f := ofLE) hb
  rwa [ofLE_toLE h] at hm

/-- A fixed-width word. -/
def readWord (eof : ε) (n : Nat) (w : Nat) : Reader ε (BitVec w) := do
  let v ← readLE eof n
  return BitVec.ofNat w v

def putWord (n : Nat) {w : Nat} (x : BitVec w) : Bytes := toLE n x.toNat

@[simp] theorem length_putWord (n : Nat) {w : Nat} (x : BitVec w) : (putWord n x).length = n :=
  length_toLE n _

theorem reads_readWord (eof : ε) {n w : Nat} (h : 2 ^ w ≤ 256 ^ n) (x : BitVec w) :
    Reads (readWord eof n w) (putWord n x) x := by
  have hm := reads_map (f := BitVec.ofNat w)
    (reads_readLE eof (Nat.lt_of_lt_of_le x.isLt h))
  rwa [BitVec.ofNat_toNat, BitVec.setWidth_eq] at hm

/-- Exactly `n` values, one after the other. -/
def readN (d : Reader ε α) : (n : Nat) → Reader ε { l : List α // l.length = n }
  | 0 => pure ⟨[], rfl⟩
  | n + 1 => do
    let a ← d
    let l ← readN d n
    return ⟨a :: l.1, by rw [List.length_cons, l.2]⟩

/-- Values written one after the other are read back one after the other. -/
theorem reads_readN {d : Reader ε α} {put : α → Bytes} :
    ∀ {l : List α}, (∀ a ∈ l, Reads d (put a) a) →
      Reads (readN d l.length) (l.flatMap put) ⟨l, rfl⟩
  | [], _ => reads_pure _
  | a :: l, h => by
    have ih := reads_readN (l := l) fun b hb => h b (List.mem_cons_of_mem a hb)
    rw [List.flatMap_cons]
    exact reads_bind (h a List.mem_cons_self) (reads_map ih)

/-- A length-prefixed sequence: the count in eight bytes, then the elements. -/
def putVec (put : α → Bytes) (v : Vec α) : Bytes :=
  toLE 8 v.toList.length ++ v.toList.flatMap put

def readVec (eof : ε) (d : Reader ε α) : Reader ε (Vec α) := do
  let n ← readWord eof 8 64
  let l ← readN d n.toNat
  return ⟨l.1, by rw [l.2]; exact n.isLt⟩

theorem reads_vec (eof : ε) {d : Reader ε α} {put : α → Bytes} {v : Vec α}
    (h : ∀ a ∈ v.toList, Reads d (put a) a) : Reads (readVec eof d) (putVec put v) v := by
  have hlen : (BitVec.ofNat 64 v.toList.length).toNat = v.toList.length := by
    rw [BitVec.toNat_ofNat, Nat.mod_eq_of_lt v.length_lt]
  have hcount : Reads (readWord eof 8 64) (toLE 8 v.toList.length)
      (BitVec.ofNat 64 v.toList.length) := by
    have hw := reads_readWord eof (n := 8) (by decide) (BitVec.ofNat 64 v.toList.length)
    rwa [putWord, hlen] at hw
  refine reads_bind hcount ?_
  have hbody : ∀ n, (hn : n = v.toList.length) →
      Reads (readN d n) (v.toList.flatMap put) ⟨v.toList, hn.symm⟩ := by
    rintro n rfl
    exact reads_readN h
  have hm := reads_map
    (f := fun l : { l : List α // l.length = (BitVec.ofNat 64 v.toList.length).toNat } =>
      (⟨l.1, by rw [l.2]; exact (BitVec.ofNat 64 v.toList.length).isLt⟩ : Vec α))
    (hbody _ hlen)
  exact hm

/-! ## The length of a sequence -/

/-- Every element left out of a sequence is at least a byte less. -/
theorem length_flatMap_of_sublist {put : α → Bytes} (hput : ∀ a, 0 < (put a).length)
    {l l' : List α} (h : l'.Sublist l) :
    (l'.flatMap put).length + l.length ≤ (l.flatMap put).length + l'.length := by
  induction h with
  | slnil => exact Nat.le_refl _
  | cons a _ ih =>
    have ha := hput a
    rw [List.flatMap_cons, List.length_append, List.length_cons]
    omega
  | cons_cons a _ ih =>
    rw [List.flatMap_cons, List.flatMap_cons, List.length_append, List.length_append,
      List.length_cons, List.length_cons]
    omega

end Vestigium.Codec

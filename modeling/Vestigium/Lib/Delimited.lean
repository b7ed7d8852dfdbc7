/-
  SELF-DELIMITING READERS — what a reader accepts, and what it makes of a truncated input.

  `Reads` says what a reader does with the bytes a writer wrote.  Here is the other direction: what
  can be said about ARBITRARY bytes that a reader accepts.

      Delimited eof d R  :  whatever `d` accepts begins with a form `bs` of the value it returns,
                            `R bs a`; in front of anything `d` reads exactly `bs`; and on every
                            shorter prefix it runs out of input

  The relation `R` is the format: for a canonical one it is `bs = put a`, so that nothing but the
  writer's own bytes is accepted.  There is one rule for each construct of a reader (`delimited_pure`,
  `Delimited.bind`, `delimited_readN`, …), and `Delimited.imp` brings the relation that the rules
  leave into the form one wants.

  `Delimited.exists_length` is what it is for: an accepted input says itself where it ends.

  `FailsWith P d` is the companion for inputs that are not accepted: every error of `d` is one of `P`.
-/
import Mathlib.Data.List.Basic
import Vestigium.Lib.Codec
import Vestigium.Lib.Loop

namespace Vestigium.Codec

open Vestigium.Loop (bind_eq_ok bind_eq_error)

variable {ε α β : Type} {eof : ε}

/-! ## One form of one value -/

/-- `bs` is a complete form of `a`: read in front of anything, and not a byte too long. -/
structure FormOf (eof : ε) (d : Reader ε α) (bs : Bytes) (a : α) : Prop where
  reads : Reads d bs a
  /-- Every shorter prefix is the end of the input. -/
  short : ∀ k < bs.length, d.run (bs.take k) = .error eof

theorem formOf_pure (a : α) : FormOf eof (pure a : Reader ε α) [] a where
  reads := reads_pure a
  short k hk := absurd hk (Nat.not_lt_zero k)

/-- A prefix of two forms ends in the first of them or in the second. -/
theorem FormOf.bind {d : Reader ε α} {f : α → Reader ε β} {bs bs' : Bytes} {a : α} {b : β}
    (hd : FormOf eof d bs a) (hf : FormOf eof (f a) bs' b) :
    FormOf eof (d >>= f) (bs ++ bs') b where
  reads := reads_bind hd.reads hf.reads
  short k hk := by
    rw [List.length_append] at hk
    rw [StateT.run_bind]
    rcases Nat.lt_or_ge k bs.length with hlt | hge
    · rw [List.take_append_of_le_length (Nat.le_of_lt hlt), hd.short k hlt]
      rfl
    · rw [List.take_append, List.take_of_length_le hge, hd.reads]
      exact hf.short (k - bs.length) (by omega)

/-! ## Everything a reader accepts -/

/-- Whatever `d` accepts begins with a form of the value it returns. -/
def Delimited (eof : ε) (d : Reader ε α) (R : Bytes → α → Prop) : Prop :=
  ∀ s a t, d.run s = .ok (a, t) → ∃ bs, s = bs ++ t ∧ R bs a ∧ FormOf eof d bs a

theorem Delimited.imp {d : Reader ε α} {R S : Bytes → α → Prop} (h : Delimited eof d R)
    (hRS : ∀ bs a, R bs a → S bs a) : Delimited eof d S := by
  intro s a t hrun
  obtain ⟨bs, hs, hR, hform⟩ := h s a t hrun
  exact ⟨bs, hs, hRS bs a hR, hform⟩

theorem delimited_pure (a : α) :
    Delimited eof (pure a : Reader ε α) fun bs x => bs = [] ∧ x = a := by
  intro s x t hrun
  obtain ⟨rfl, rfl⟩ := Prod.mk.inj (Except.ok.inj hrun)
  exact ⟨[], rfl, ⟨rfl, rfl⟩, formOf_pure _⟩

/-- One after the other: the forms are concatenated. -/
theorem Delimited.bind {d : Reader ε α} {f : α → Reader ε β} {R : Bytes → α → Prop}
    {S : α → Bytes → β → Prop} (hd : Delimited eof d R) (hf : ∀ a, Delimited eof (f a) (S a)) :
    Delimited eof (d >>= f) fun bs b => ∃ bs₁ a bs₂, bs = bs₁ ++ bs₂ ∧ R bs₁ a ∧ S a bs₂ b := by
  intro s b t hrun
  rw [StateT.run_bind] at hrun
  obtain ⟨⟨a, s'⟩, ha, hb⟩ := bind_eq_ok.mp hrun
  obtain ⟨bs₁, rfl, hR, hform₁⟩ := hd s a s' ha
  obtain ⟨bs₂, rfl, hS, hform₂⟩ := hf a s' b t hb
  exact ⟨bs₁ ++ bs₂, (List.append_assoc ..).symm, ⟨bs₁, a, bs₂, rfl, hR, hS⟩, hform₁.bind hform₂⟩

/-- A reader that only post-processes what another one read. -/
theorem Delimited.map {d : Reader ε α} {R : Bytes → α → Prop} (hd : Delimited eof d R) (f : α → β) :
    Delimited eof (d >>= fun x => pure (f x)) fun bs b => ∃ a, R bs a ∧ b = f a := by
  refine (hd.bind fun a => delimited_pure (f a)).imp ?_
  rintro bs b ⟨bs₁, a, bs₂, rfl, hR, rfl, rfl⟩
  exact ⟨a, by rwa [List.append_nil], rfl⟩

theorem delimited_throw (e : ε) (R : Bytes → α → Prop) :
    Delimited eof (throw e : Reader ε α) R := by
  intro s a t hrun
  nomatch hrun

/-- A computation that reads nothing. -/
theorem delimited_lift (x : Except ε α) :
    Delimited eof (StateT.lift x : Reader ε α) fun bs a => bs = [] ∧ x = .ok a := by
  intro s a t hrun
  obtain ⟨a', ha, hpair⟩ := bind_eq_ok.mp hrun
  obtain ⟨rfl, rfl⟩ := Prod.mk.inj (Except.ok.inj hpair)
  refine ⟨[], rfl, ⟨rfl, ha⟩, fun t => ?_, fun k hk => absurd hk (Nat.not_lt_zero k)⟩
  exact bind_eq_ok.mpr ⟨a', ha, rfl⟩

theorem delimited_ite {c : Prop} [Decidable c] {d d' : Reader ε α} {R : Bytes → α → Prop}
    (hd : c → Delimited eof d R) (hd' : ¬ c → Delimited eof d' R) :
    Delimited eof (if c then d else d') R := by
  by_cases hc : c
  · rw [if_pos hc]
    exact hd hc
  · rw [if_neg hc]
    exact hd' hc

/-! ## Bytes and integers -/

theorem delimited_readBytes (n : Nat) :
    Delimited eof (readBytes eof n) fun bs x => bs = x ∧ x.length = n := by
  intro s x t hrun
  by_cases hn : n ≤ s.length
  · rw [show (readBytes eof n).run s = .ok (s.take n, s.drop n) from if_pos hn] at hrun
    obtain ⟨rfl, rfl⟩ := Prod.mk.inj (Except.ok.inj hrun)
    have hlen : (s.take n).length = n := List.length_take_of_le hn
    refine ⟨s.take n, (List.take_append_drop n s).symm, ⟨rfl, hlen⟩, ?_, fun k hk => ?_⟩
    · have hreads := reads_readBytes eof (s.take n)
      rwa [hlen] at hreads
    · refine if_neg ?_
      rw [List.length_take]
      omega
  · rw [show (readBytes eof n).run s = .error eof from if_neg hn] at hrun
    nomatch hrun

/-- Bytes are the digits of the number they stand for. -/
theorem toLE_ofLE : ∀ bs : Bytes, toLE bs.length (ofLE bs) = bs
  | [] => rfl
  | b :: bs => by
    have hb : b.toNat < 256 := b.isLt
    have hmod : BitVec.ofNat 8 (b.toNat + 256 * ofLE bs) = b := by
      apply BitVec.eq_of_toNat_eq
      rw [BitVec.toNat_ofNat]
      omega
    have hdiv : (b.toNat + 256 * ofLE bs) / 256 = ofLE bs := by omega
    rw [ofLE, List.length_cons, toLE, hmod, hdiv, toLE_ofLE bs]

theorem ofLE_lt : ∀ bs : Bytes, ofLE bs < 256 ^ bs.length
  | [] => Nat.one_pos
  | b :: bs => by
    have hb : b.toNat < 256 := b.isLt
    have ih := ofLE_lt bs
    rw [ofLE, List.length_cons, Nat.pow_succ]
    omega

theorem delimited_readLE (n : Nat) :
    Delimited eof (readLE eof n) fun bs v => bs = toLE n v ∧ v < 256 ^ n := by
  refine ((delimited_readBytes n).map ofLE).imp ?_
  rintro bs v ⟨_, ⟨rfl, rfl⟩, rfl⟩
  exact ⟨(toLE_ofLE bs).symm, ofLE_lt bs⟩

theorem delimited_readWord {n w : Nat} (h : 256 ^ n ≤ 2 ^ w) :
    Delimited eof (readWord eof n w) fun bs x => bs = putWord n x := by
  refine ((delimited_readLE n).map (BitVec.ofNat w)).imp ?_
  rintro _ x ⟨v, ⟨rfl, hv⟩, rfl⟩
  rw [putWord, BitVec.toNat_ofNat, Nat.mod_eq_of_lt (Nat.lt_of_lt_of_le hv h)]

/-! ## Sequences -/

/-- By induction on the count. -/
theorem delimited_readN {d : Reader ε α} {put : α → Bytes}
    (hd : Delimited eof d fun bs a => bs = put a) : ∀ n,
    Delimited eof (readN d n) fun bs l => bs = l.1.flatMap put
  | 0 => by
    refine (delimited_pure _).imp ?_
    rintro bs l ⟨rfl, rfl⟩
    rfl
  | n + 1 => by
    refine (hd.bind fun a => (delimited_readN hd n).map
      fun l : { l : List α // l.length = n } => (⟨a :: l.1, by rw [List.length_cons, l.2]⟩ :
        { l : List α // l.length = n + 1 })).imp ?_
    rintro _ l ⟨_, a, _, rfl, rfl, l', rfl, rfl⟩
    rw [List.flatMap_cons]

theorem delimited_readVec {d : Reader ε α} {put : α → Bytes}
    (hd : Delimited eof d fun bs a => bs = put a) :
    Delimited eof (readVec eof d) fun bs v => bs = putVec put v := by
  refine ((delimited_readWord (n := 8) (w := 64) (by norm_num)).bind
    fun n => (delimited_readN hd n.toNat).map
      fun l => (⟨l.1, by rw [l.2]; exact n.isLt⟩ : Vec α)).imp ?_
  rintro _ v ⟨_, n, _, rfl, rfl, l, rfl, rfl⟩
  exact congrArg (toLE 8 · ++ l.1.flatMap put) l.2.symm

/-! ## How a reader fails -/

theorem run_lift_eq_error {x : Except ε α} {s : Bytes} {e : ε} :
    (StateT.lift x : Reader ε α).run s = .error e ↔ x = .error e := by
  cases x with
  | ok a => exact ⟨fun h => (nomatch h), fun h => (nomatch h)⟩
  | error e' =>
    constructor
    · intro h
      cases h
      rfl
    · intro h
      cases h
      rfl

/-- Every error of `d` is one of `P`. -/
def FailsWith (P : ε → Prop) (d : Reader ε α) : Prop := ∀ s e, d.run s = .error e → P e

section Failures

variable {P : ε → Prop}

theorem failsWith_pure (a : α) : FailsWith P (pure a : Reader ε α) := fun _ _ h => (nomatch h)

theorem FailsWith.bind {d : Reader ε α} {f : α → Reader ε β} (hd : FailsWith P d)
    (hf : ∀ a, FailsWith P (f a)) : FailsWith P (d >>= f) := by
  intro s e h
  rw [StateT.run_bind] at h
  rcases bind_eq_error.mp h with h | ⟨⟨a, s'⟩, -, h⟩
  · exact hd s e h
  · exact hf a s' e h

theorem FailsWith.map {d : Reader ε α} (hd : FailsWith P d) (f : α → β) :
    FailsWith P (d >>= fun x => pure (f x)) := hd.bind fun a => failsWith_pure (f a)

theorem failsWith_throw {e : ε} (he : P e) : FailsWith P (throw e : Reader ε α) := by
  intro s e' h
  cases h
  exact he

theorem failsWith_ite {c : Prop} [Decidable c] {d d' : Reader ε α} (hd : FailsWith P d)
    (hd' : FailsWith P d') : FailsWith P (if c then d else d') := by
  by_cases hc : c
  · rwa [if_pos hc]
  · rwa [if_neg hc]

theorem failsWith_readWord (heof : P eof) (n w : Nat) : FailsWith P (readWord eof n w) := by
  have hbytes : FailsWith P (readBytes eof n) := by
    intro s e h
    by_cases hn : n ≤ s.length
    · rw [show (readBytes eof n).run s = .ok (s.take n, s.drop n) from if_pos hn] at h
      nomatch h
    · rw [show (readBytes eof n).run s = .error eof from if_neg hn] at h
      cases h
      exact heof
  exact (hbytes.map ofLE).map (BitVec.ofNat w)

theorem failsWith_readN {d : Reader ε α} (hd : FailsWith P d) : ∀ n, FailsWith P (readN d n)
  | 0 => failsWith_pure _
  | n + 1 => hd.bind fun _ => (failsWith_readN hd n).map _

theorem failsWith_readVec {d : Reader ε α} (heof : P eof) (hd : FailsWith P d) :
    FailsWith P (readVec eof d) :=
  (failsWith_readWord heof 8 64).bind fun n => (failsWith_readN hd n.toNat).map _

end Failures

/-! ## What it is for -/

section Accepted

variable {d : Reader ε α} {R : Bytes → α → Prop} {s : Bytes} {a : α} {t : Bytes}

/-- **An accepted input says itself where it ends**: some length is enough for every input that
    begins like it, and every shorter one is too short. -/
theorem Delimited.exists_length (h : Delimited eof d R) (hrun : d.run s = .ok (a, t)) :
    ∃ n ≤ s.length, Reads d (s.take n) a ∧ ∀ k < n, d.run (s.take k) = .error eof := by
  obtain ⟨bs, rfl, -, hform⟩ := h s a t hrun
  have htake : ∀ k ≤ bs.length, (bs ++ t).take k = bs.take k := fun k hk =>
    List.take_append_of_le_length hk
  refine ⟨bs.length, by simp, ?_, fun k hk => ?_⟩
  · rw [htake _ (Nat.le_refl _), List.take_length]
    exact hform.reads
  · rw [htake k (Nat.le_of_lt hk)]
    exact hform.short k hk

/-- A form that a writer wrote has no shorter one in front of it. -/
theorem Delimited.short_of_reads (h : Delimited eof d R) {bs : Bytes} (hreads : Reads d bs a)
    {k : Nat} (hk : k < bs.length) : d.run (bs.take k) = .error eof := by
  have hrun := hreads []
  obtain ⟨bs', hbs, -, hform⟩ := h _ a [] hrun
  rw [List.append_nil, List.append_nil] at hbs
  rw [hbs] at hk ⊢
  exact hform.short k hk

end Accepted

end Vestigium.Codec

/-
  FUELLED LOOPS — `loop { … }` with `?` and `break`, as a total function.

  An unbounded loop of an imperative program is given by what ONE pass through its body does: go
  round `again` with a new state, or `leave` with a result.  `loopFuel body n s` runs at most `n`
  passes and answers `none` when that is not enough, so "the loop terminates from `s`" is
  `∃ n, loopFuel body n s ≠ none` and nothing is hidden behind a well-foundedness proof.

  The file supplies what every client needs and nothing about any particular program:

  * `afterPasses` — the state at the top of the `k`-th pass, the vocabulary in which run-length
    statements ("after handling the `k`-th exit …") are written;
  * `loopFuel_eq_some_iff` — a loop leaves with `r` iff some pass, reached from the start by `again`
    passes only, leaves with `r`;
  * `afterPasses_inv` — the invariant rule;
  * `not_terminates_of_inv` — the divergence rule: an invariant that forces one more pass;
  * `tryPass` — the reading of a fallible body: an error leaves the loop with that error;
  * `Raises` — which errors a computation can fail with, through sequences and loops.
-/
import Mathlib.Logic.Basic
import Mathlib.Logic.Relation
import Mathlib.Tactic.TypeStar

namespace Vestigium.Loop

variable {σ ρ ε α β : Type}

/-! ## Sequencing fallible computations -/

/-- A sequence succeeds iff both halves do. -/
theorem bind_eq_ok {x : Except ε α} {f : α → Except ε β} {b : β} :
    x >>= f = .ok b ↔ ∃ a, x = .ok a ∧ f a = .ok b := by
  cases x with
  | error e => exact ⟨fun h => (nomatch h), fun ⟨_, h, _⟩ => (nomatch h)⟩
  | ok a => exact ⟨fun h => ⟨a, rfl, h⟩, fun ⟨_, h, hf⟩ => by cases h; exact hf⟩

/-- It fails iff the first half does, or the second after it. -/
theorem bind_eq_error {x : Except ε α} {f : α → Except ε β} {e : ε} :
    x >>= f = .error e ↔ x = .error e ∨ ∃ a, x = .ok a ∧ f a = .error e := by
  cases x with
  | error e' =>
    constructor
    · intro h
      cases h
      exact .inl rfl
    · rintro (h | ⟨_, h, _⟩)
      · cases h
        rfl
      · nomatch h
  | ok a =>
    constructor
    · exact fun h => .inr ⟨a, rfl, h⟩
    · rintro (h | ⟨_, h, hf⟩)
      · nomatch h
      · cases h
        exact hf

theorem ok_ne_error (a : α) (e : ε) : Except.ok a ≠ .error e := by
  intro h
  cases h

/-- What neither half fails with, the sequence does not fail with. -/
theorem bind_ne_error {x : Except ε α} {f : α → Except ε β} {e : ε} (hx : x ≠ .error e)
    (hf : ∀ a, f a ≠ .error e) : x >>= f ≠ .error e := by
  intro h
  rcases bind_eq_error.mp h with h | ⟨a, -, h⟩
  · exact hx h
  · exact hf a h

/-- Once the first half is known to succeed, the sequence is its continuation. -/
theorem bind_of_ok {x : Except ε α} {f : α → Except ε β} {a : α} (h : x = .ok a) :
    x >>= f = f a := by
  subst h
  rfl

/-- Once the first half is known to fail, so does the sequence. -/
theorem bind_of_error {x : Except ε α} {f : α → Except ε β} {e : ε} (h : x = .error e) :
    x >>= f = .error e := by
  subst h
  rfl

/-! ## One pass, and the loop it drives -/

/-- What one pass through a loop body does. -/
inductive Pass (σ ρ : Type) where
  /-- Go round again from state `s`. -/
  | again (s : σ)
  /-- `break` (or return) with result `r`. -/
  | leave (r : ρ)

/-- The loop with body `body`, cut off after `n` passes. -/
def loopFuel (body : σ → Pass σ ρ) : Nat → σ → Option ρ
  | 0, _ => none
  | n + 1, s =>
    match body s with
    | .again s' => loopFuel body n s'
    | .leave r => some r

/-- The loop leaves after finitely many passes. -/
def Terminates (body : σ → Pass σ ρ) (s : σ) : Prop := ∃ n r, loopFuel body n s = some r

/-- The state at the top of pass number `k` (counting from `0`), if the loop gets that far. -/
def afterPasses (body : σ → Pass σ ρ) : Nat → σ → Option σ
  | 0, s => some s
  | k + 1, s =>
    match body s with
    | .again s' => afterPasses body k s'
    | .leave _ => none

/-- A fallible body as a plain one: an error leaves the loop, as `?` does. -/
def tryPass (body : σ → Except ε (Pass σ ρ)) (s : σ) : Pass σ (Except ε ρ) :=
  match body s with
  | .error e => .leave (.error e)
  | .ok (.again s') => .again s'
  | .ok (.leave r) => .leave (.ok r)

theorem tryPass_eq_again {body : σ → Except ε (Pass σ ρ)} {s s' : σ} :
    tryPass body s = .again s' ↔ body s = .ok (.again s') := by
  unfold tryPass
  rcases h : body s with e | p
  · simp
  · cases p <;> simp

theorem tryPass_eq_leave_ok {body : σ → Except ε (Pass σ ρ)} {s : σ} {r : ρ} :
    tryPass body s = .leave (.ok r) ↔ body s = .ok (.leave r) := by
  unfold tryPass
  rcases h : body s with e | p
  · simp
  · cases p <;> simp

/-! ## Passes compose -/

theorem afterPasses_again {body : σ → Pass σ ρ} {s s' : σ} (h : body s = .again s') (k : Nat) :
    afterPasses body (k + 1) s = afterPasses body k s' := by
  rw [afterPasses, h]

theorem afterPasses_leave {body : σ → Pass σ ρ} {s : σ} {r : ρ} (h : body s = .leave r) (k : Nat) :
    afterPasses body (k + 1) s = none := by
  rw [afterPasses, h]

theorem loopFuel_again {body : σ → Pass σ ρ} {s s' : σ} (h : body s = .again s') (n : Nat) :
    loopFuel body (n + 1) s = loopFuel body n s' := by
  rw [loopFuel, h]

theorem loopFuel_leave {body : σ → Pass σ ρ} {s : σ} {r : ρ} (h : body s = .leave r) (n : Nat) :
    loopFuel body (n + 1) s = some r := by
  rw [loopFuel, h]

/-- The last pass split off: pass `k + 1` starts where pass `k`, started from the top, went. -/
theorem afterPasses_succ {body : σ → Pass σ ρ} :
    ∀ {k : Nat} {s t : σ}, afterPasses body (k + 1) s = some t ↔
      ∃ u, afterPasses body k s = some u ∧ body u = .again t
  | 0, s, t => by
    cases h : body s with
    | again s' =>
      rw [afterPasses_again h]
      constructor
      · intro ht
        exact ⟨s, rfl, by rw [h, Option.some.inj ht]⟩
      · rintro ⟨u, hu, hb⟩
        cases hu
        rw [h] at hb
        cases hb
        rfl
    | leave r =>
      rw [afterPasses_leave h]
      constructor
      · intro ht
        cases ht
      · rintro ⟨u, hu, hb⟩
        cases hu
        rw [h] at hb
        cases hb
  | k + 1, s, t => by
    cases h : body s with
    | again s' => rw [afterPasses_again h, afterPasses_again h, afterPasses_succ]
    | leave r =>
      rw [afterPasses_leave h, afterPasses_leave h]
      constructor
      · intro ht
        cases ht
      · rintro ⟨u, hu, -⟩
        cases hu

/-- The loop leaves with `r` within `n` passes iff one of its first `n` passes leaves with `r`. -/
theorem loopFuel_eq_some_iff {body : σ → Pass σ ρ} {r : ρ} :
    ∀ {n : Nat} {s : σ}, loopFuel body n s = some r ↔
      ∃ k < n, ∃ t, afterPasses body k s = some t ∧ body t = .leave r
  | 0, s => ⟨fun h => (nomatch h), fun ⟨_, hk, _⟩ => absurd hk (Nat.not_lt_zero _)⟩
  | n + 1, s => by
    cases h : body s with
    | again s' =>
      rw [loopFuel_again h, loopFuel_eq_some_iff]
      constructor
      · rintro ⟨k, hk, t, ht, hl⟩
        exact ⟨k + 1, Nat.succ_lt_succ hk, t, by rw [afterPasses_again h, ht], hl⟩
      · rintro ⟨k, hk, t, ht, hl⟩
        cases k with
        | zero =>
          cases ht
          rw [h] at hl
          nomatch hl
        | succ j => exact ⟨j, Nat.lt_of_succ_lt_succ hk, t, by rwa [afterPasses_again h] at ht, hl⟩
    | leave r' =>
      rw [loopFuel_leave h]
      constructor
      · intro hr
        exact ⟨0, Nat.succ_pos n, s, rfl, by rw [h, Option.some.inj hr]⟩
      · rintro ⟨k, -, t, ht, hl⟩
        cases k with
        | zero =>
          cases ht
          rw [h] at hl
          cases hl
          rfl
        | succ j =>
          rw [afterPasses_leave h] at ht
          cases ht

/-- A loop that is going round when it reaches pass `k` has not left before. -/
theorem afterPasses_of_le {body : σ → Pass σ ρ} {s t : σ} :
    ∀ {k j : Nat}, j ≤ k → afterPasses body k s = some t → ∃ u, afterPasses body j s = some u := by
  intro k
  induction k generalizing t with
  | zero =>
    intro j hj ht
    exact ⟨t, by rwa [Nat.le_zero.mp hj]⟩
  | succ k ih =>
    intro j hj ht
    rcases Nat.lt_or_eq_of_le hj with hlt | rfl
    · obtain ⟨u, hu, -⟩ := afterPasses_succ.mp ht
      exact ih (Nat.le_of_lt_succ hlt) hu
    · exact ⟨t, ht⟩

/-- Passes add up. -/
theorem afterPasses_add {body : σ → Pass σ ρ} {j : Nat} :
    ∀ {k : Nat} {s t : σ}, afterPasses body (k + j) s = some t ↔
      ∃ u, afterPasses body k s = some u ∧ afterPasses body j u = some t
  | 0, s, t => by
    rw [Nat.zero_add]
    constructor
    · intro h
      exact ⟨s, rfl, h⟩
    · rintro ⟨u, hu, h⟩
      cases hu
      exact h
  | k + 1, s, t => by
    rw [Nat.add_right_comm]
    cases h : body s with
    | again s' => rw [afterPasses_again h, afterPasses_again h, afterPasses_add]
    | leave r =>
      rw [afterPasses_leave h, afterPasses_leave h]
      constructor
      · intro ht
        cases ht
      · rintro ⟨u, hu, -⟩
        cases hu

/-- A fallible loop returns `r` within `n` passes iff one of its first `n` passes leaves with `r`;
    running out of fuel is one more way to fail. -/
theorem tryLoop_eq_ok {body : σ → Except ε (Pass σ ρ)} {n : Nat} {s : σ} {r : ρ} {e : ε} :
    (loopFuel (tryPass body) n s).getD (.error e) = .ok r ↔
      ∃ k < n, ∃ t, afterPasses (tryPass body) k s = some t ∧ body t = .ok (.leave r) := by
  have hget : (loopFuel (tryPass body) n s).getD (.error e) = .ok r ↔
      loopFuel (tryPass body) n s = some (.ok r) := by
    cases loopFuel (tryPass body) n s with
    | none => simp
    | some x => simp
  rw [hget, loopFuel_eq_some_iff]
  simp only [tryPass_eq_leave_ok]

/-! ## The invariant rule and the divergence rule -/

/-- To go round some number of times is to step from round to round. -/
theorem exists_afterPasses_iff {body : σ → Pass σ ρ} {s t : σ} :
    (∃ k, afterPasses body k s = some t) ↔
      Relation.ReflTransGen (fun s s' => body s = .again s') s t := by
  constructor
  · rintro ⟨k, hk⟩
    induction k generalizing t with
    | zero =>
      cases hk
      exact .refl
    | succ k ih =>
      obtain ⟨u, hu, hbody⟩ := afterPasses_succ.mp hk
      exact (ih hu).tail hbody
  · intro h
    induction h with
    | refl => exact ⟨0, rfl⟩
    | tail _ hbody ih =>
      obtain ⟨k, hk⟩ := ih
      exact ⟨k + 1, afterPasses_succ.mpr ⟨_, hk, hbody⟩⟩

/-- What holds at the start and survives every `again` pass holds at the top of every pass. -/
theorem afterPasses_inv {body : σ → Pass σ ρ} (Inv : σ → Prop)
    (hstep : ∀ {s s'}, Inv s → body s = .again s' → Inv s') :
    ∀ {k : Nat} {s t : σ}, Inv s → afterPasses body k s = some t → Inv t
  | 0, s, t, hs, ht => by
    cases ht
    exact hs
  | k + 1, s, t, hs, ht => by
    obtain ⟨u, hu, hb⟩ := afterPasses_succ.mp ht
    exact hstep (afterPasses_inv Inv hstep hs hu) hb

/-- If some invariant of the start forces every pass to go round again, the loop never leaves. -/
theorem not_terminates_of_inv {body : σ → Pass σ ρ} {Inv : σ → Prop}
    (hstep : ∀ {s}, Inv s → ∃ s', body s = .again s' ∧ Inv s') {s : σ} (hs : Inv s) :
    ¬ Terminates body s := by
  rintro ⟨n, r, hn⟩
  obtain ⟨k, -, t, ht, hl⟩ := loopFuel_eq_some_iff.mp hn
  have hinv : Inv t := by
    refine afterPasses_inv Inv (fun {u u'} hu hb => ?_) hs ht
    obtain ⟨v, hv, hI⟩ := hstep hu
    rw [hb] at hv
    cases hv
    exact hI
  obtain ⟨v, hv, -⟩ := hstep hinv
  rw [hl] at hv
  nomatch hv

/-! ## Which errors -/

/-- Every error of `x` is one of `P`. -/
def Raises (P : ε → Prop) (x : Except ε α) : Prop := ∀ e, x = .error e → P e

namespace Raises

variable {P Q : ε → Prop} {x : Except ε α}

theorem ok (a : α) : Raises P (.ok a : Except ε α) := by
  intro e h
  cases h

theorem error {e : ε} (he : P e) : Raises P (.error e : Except ε α) := by
  intro e' h
  cases h
  exact he

theorem mono (h : Raises P x) (hPQ : ∀ e, P e → Q e) : Raises Q x := fun e he => hPQ e (h e he)

/-- The second half is only reached by what the first half returns. -/
theorem bind {f : α → Except ε β} (hx : Raises P x) (hf : ∀ a, x = .ok a → Raises P (f a)) :
    Raises P (x >>= f) := by
  intro e h
  rcases bind_eq_error.mp h with h | ⟨a, ha, h⟩
  · exact hx e h
  · exact hf a ha e h

theorem ite {c : Prop} [Decidable c] {y : Except ε α} (hx : c → Raises P x)
    (hy : ¬ c → Raises P y) : Raises P (if c then x else y) := by
  by_cases hc : c
  · rw [if_pos hc]
    exact hx hc
  · rw [if_neg hc]
    exact hy hc

/-- A loop fails as some pass of it does, or is cut off.  By induction on the passes. -/
theorem loop {body : σ → Except ε (Pass σ ρ)} (hbody : ∀ s, Raises P (body s)) {cut : ε}
    (hcut : P cut) (n : Nat) (s : σ) :
    Raises P ((loopFuel (tryPass body) n s).getD (.error cut)) := by
  induction n generalizing s with
  | zero => exact error hcut
  | succ n ih =>
    rw [loopFuel, tryPass]
    cases hs : body s with
    | error e => exact error (hbody s e hs)
    | ok p =>
      cases p with
      | again s' => exact ih s'
      | leave r => exact ok r

end Raises

end Vestigium.Loop

/-
  TWO RUNS SIDE BY SIDE — relational rules for fallible computations and their loops.

  `Agree R x y` relates two computations that may fail: both fail, and with the SAME error, or both
  succeed with results related by `R`.  It is stronger than "if the one succeeds, so does the other":
  an error, and running out of fuel, are outcomes like any other, and observed.

  The rules follow the syntax of such programs: a sequence (`Agree.bind`), a loop cut off after some
  number of passes (`Agree.loop`; if its bodies may also part, `Agree.loop_until`).  Where the relation says that two views are equal, agreement is an
  equation again (`agree_iff_map_eq`).
-/
import Vestigium.Lib.Loop

namespace Vestigium.Relational

open Vestigium.Loop

variable {ε α β γ δ σ τ ρ ρ' : Type}

/-- Both fail, with the same error, or both succeed, with related results. -/
inductive Agree (R : α → β → Prop) : Except ε α → Except ε β → Prop
  | error (e : ε) : Agree R (.error e) (.error e)
  | ok {a : α} {b : β} : R a b → Agree R (.ok a) (.ok b)

namespace Agree

variable {R : α → β → Prop} {S : γ → δ → Prop}

/-- A computation agrees with itself, as far as its results are related to themselves. -/
theorem refl {R : α → α → Prop} (hR : ∀ a, R a a) (x : Except ε α) : Agree R x x := by
  cases x with
  | error e => exact .error e
  | ok a => exact .ok (hR a)

/-- It does so with whatever is known of its results. -/
theorem self {P : α → Prop} {x : Except ε α} (h : ∀ a, x = .ok a → P a) :
    Agree (fun a b => a = b ∧ P a) x x := by
  cases x with
  | error e => exact .error e
  | ok a => exact .ok ⟨rfl, h a rfl⟩

theorem mono {R' : α → β → Prop} (h : ∀ a b, R a b → R' a b) {x : Except ε α} {y : Except ε β}
    (hxy : Agree R x y) : Agree R' x y := by
  cases hxy with
  | error e => exact .error e
  | ok hab => exact .ok (h _ _ hab)

/-- **Sequencing**: agreeing first halves, and second halves that agree from related results on. -/
theorem bind {x : Except ε α} {y : Except ε β} (h : Agree R x y) {f : α → Except ε γ}
    {g : β → Except ε δ} (hfg : ∀ a b, R a b → Agree S (f a) (g b)) :
    Agree S (x >>= f) (y >>= g) := by
  cases h with
  | error e => exact .error e
  | ok hab => exact hfg _ _ hab

/-- If the one succeeds, so does the other. -/
theorem of_ok {x : Except ε α} {y : Except ε β} (h : Agree R x y) {a : α} (hx : x = .ok a) :
    ∃ b, y = .ok b ∧ R a b := by
  subst hx
  cases h with
  | ok hab => exact ⟨_, rfl, hab⟩

end Agree

/-- Related views agree iff they are equal, errors included. -/
theorem agree_iff_map_eq {f : α → γ} {g : β → γ} {x : Except ε α} {y : Except ε β} :
    Agree (fun a b => f a = g b) x y ↔ x.map f = y.map g := by
  constructor
  · intro h
    cases h with
    | error e => rfl
    | ok hab => exact congrArg Except.ok hab
  · intro h
    cases x with
    | error e =>
      cases y with
      | error e' =>
        cases h
        exact .error e
      | ok b => cases h
    | ok a =>
      cases y with
      | error e' => cases h
      | ok b => exact .ok (Except.ok.inj h)

/-! ## Loops -/

/-- Both passes go round, with related states, or both leave, with related results. -/
inductive PassAgree (R : σ → τ → Prop) (Q : ρ → ρ' → Prop) : Pass σ ρ → Pass τ ρ' → Prop
  | again {s : σ} {t : τ} : R s t → PassAgree R Q (.again s) (.again t)
  | leave {r : ρ} {r' : ρ'} : Q r r' → PassAgree R Q (.leave r) (.leave r')

section Loops

variable {R : σ → τ → Prop} {Q : ρ → ρ' → Prop} {body : σ → Except ε (Pass σ ρ)}
  {body' : τ → Except ε (Pass τ ρ')}

/-- **Loops that may part**: bodies that agree from related states on, in whether they go round, or
    else part, make loops that agree, also in that they are cut off, or part in some pass. -/
theorem Agree.loop_until {D : σ → τ → Prop}
    (hbody : ∀ s t, R s t → D s t ∨ Agree (PassAgree R Q) (body s) (body' t)) (cut : ε) {s : σ} {t : τ}
    (h : R s t) (n : Nat) :
    Agree Q ((loopFuel (tryPass body) n s).getD (.error cut))
      ((loopFuel (tryPass body') n t).getD (.error cut)) ∨
    ∃ k < n, ∃ s' t', afterPasses (tryPass body) k s = some s' ∧
      afterPasses (tryPass body') k t = some t' ∧ R s' t' ∧ D s' t' := by
  induction n generalizing s t with
  | zero => exact .inl (.error cut)
  | succ n ih =>
    rcases hbody s t h with hpart | hpass
    · exact .inr ⟨0, Nat.succ_pos n, s, t, rfl, rfl, h, hpart⟩
    · cases hx : body s with
      | error e =>
        rw [hx] at hpass
        cases hy : body' t with
        | error e' =>
          rw [hy] at hpass
          cases hpass
          left
          rw [loopFuel, loopFuel, tryPass, tryPass, hx, hy]
          exact .error e
        | ok q =>
          rw [hy] at hpass
          cases hpass
      | ok p =>
        rw [hx] at hpass
        obtain ⟨q, hy, hpq⟩ := hpass.of_ok rfl
        cases hpq with
        | again hst =>
          have hxs := tryPass_eq_again.mpr hx
          have hyt := tryPass_eq_again.mpr hy
          rw [loopFuel_again hxs, loopFuel_again hyt]
          rcases ih hst with hagree | ⟨k, hk, s', t', hs', ht', hRD⟩
          · exact .inl hagree
          · exact .inr ⟨k + 1, Nat.succ_lt_succ hk, s', t', (afterPasses_again hxs k).trans hs',
              (afterPasses_again hyt k).trans ht', hRD⟩
        | leave hr =>
          left
          rw [loopFuel, loopFuel, tryPass, tryPass, hx, hy]
          exact .ok hr

/-- **Loops**: bodies that always agree. -/
theorem Agree.loop (hbody : ∀ s t, R s t → Agree (PassAgree R Q) (body s) (body' t)) (cut : ε) {s : σ}
    {t : τ} (h : R s t) (n : Nat) : Agree Q ((loopFuel (tryPass body) n s).getD (.error cut))
      ((loopFuel (tryPass body') n t).getD (.error cut)) := by
  rcases Agree.loop_until (D := fun _ _ => False) (fun s t h => .inr (hbody s t h)) cut h n with
    hagree | ⟨k, -, s', t', -, -, -, hpart⟩
  · exact hagree
  · exact hpart.elim

end Loops

end Vestigium.Relational

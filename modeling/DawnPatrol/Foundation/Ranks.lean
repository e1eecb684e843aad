import Mathlib.Data.Nat.Notation

/-!
# Steps that lower a rank

A system makes steps, and in between changes that do not count. When every step
lowers a rank and no other change raises it, a run has no more steps than the rank
of its start (`Counted.bounded`). The steps and the changes may keep an invariant
that the rank needs.
-/

set_option autoImplicit false

namespace DawnPatrol.Foundation

variable {σ : Type} {step change : σ → σ → Prop}

/-- A run with a number of steps, with other changes in between. -/
inductive Counted (step change : σ → σ → Prop) : ℕ → σ → σ → Prop where
  | refl (s : σ) : Counted step change 0 s s
  | step {n : ℕ} {s t u : σ} : Counted step change n s t → step t u →
      Counted step change (n + 1) s u
  | change {n : ℕ} {s t u : σ} : Counted step change n s t → change t u →
      Counted step change n s u

/-- **A run keeps what its steps and changes keep.** -/
theorem Counted.keeps {invariant : σ → Prop}
    (steps : ∀ s t, invariant s → step s t → invariant t)
    (changes : ∀ s t, invariant s → change s t → invariant t) {n : ℕ} {s t : σ}
    (ran : Counted step change n s t) (holds : invariant s) : invariant t := by
  induction ran with
  | refl => exact holds
  | step _ stepped ih => exact steps _ _ (ih holds) stepped
  | change _ changed ih => exact changes _ _ (ih holds) changed

/-- **A run has no more steps than the rank of its start.** -/
theorem Counted.bounded {invariant : σ → Prop}
    (steps : ∀ s t, invariant s → step s t → invariant t)
    (changes : ∀ s t, invariant s → change s t → invariant t) {rank : σ → ℕ}
    (lowers : ∀ s t, invariant s → step s t → rank t < rank s)
    (leaves : ∀ s t, invariant s → change s t → rank t ≤ rank s) {n : ℕ} {s t : σ}
    (ran : Counted step change n s t) (holds : invariant s) : n + rank t ≤ rank s := by
  induction ran with
  | refl => exact Nat.le_of_eq (Nat.zero_add _)
  | step earlier stepped ih =>
      have before := ih holds
      have lower := lowers _ _ (earlier.keeps steps changes holds) stepped
      omega
  | change earlier changed ih =>
      have before := ih holds
      have same := leaves _ _ (earlier.keeps steps changes holds) changed
      omega

end DawnPatrol.Foundation

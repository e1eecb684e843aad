import Mathlib.Data.List.Basic

/-!
# Changes made in order, up to the first that fails

A change takes a state to a state and says whether it succeeded. A list of
changes is made in order, and the first that fails ends it, with whatever that
change has left behind (`applyAll`).

An invariant that every change keeps, also one that fails, is kept
(`applyAll_keeps`). When every change that succeeds leads to the next of some
stages, the end is the stage of the changes made (`applyAll_stages`). A log is
such a stage (`applyAll_log`).
-/

set_option autoImplicit false

namespace DawnPatrol.Foundation.Changes

variable {α β σ : Type}

/-- Go on from a result, unless it is a failure. -/
def andThen (result : Bool × σ) (next : σ → Bool × σ) : Bool × σ :=
  if result.1 = true then next result.2 else result

@[simp] theorem andThen_true (state : σ) (next : σ → Bool × σ) :
    andThen (true, state) next = next state := rfl

@[simp] theorem andThen_false (state : σ) (next : σ → Bool × σ) :
    andThen (false, state) next = (false, state) := rfl

/-- A change that either is made or fails and changes nothing. -/
def attempt (change : σ → Option σ) (state : σ) : Bool × σ :=
  ((change state).isSome, (change state).getD state)

theorem attempt_of_some {change : σ → Option σ} {state next : σ}
    (made : change state = some next) : attempt change state = (true, next) := by
  simp [attempt, made]

theorem attempt_of_none {change : σ → Option σ} {state : σ} (fails : change state = none) :
    attempt change state = (false, state) := by
  simp [attempt, fails]

/-- Make changes in order, up to the first that fails. -/
def applyAll (change : α → σ → Bool × σ) : List α → σ → Bool × σ
  | [], state => (true, state)
  | a :: rest, state => andThen (change a state) (applyAll change rest)

section Rules

variable {change undo : α → σ → Bool × σ}

@[simp] theorem applyAll_nil (state : σ) : applyAll change [] state = (true, state) := rfl

@[simp] theorem applyAll_cons (a : α) (rest : List α) (state : σ) :
    applyAll change (a :: rest) state = andThen (change a state) (applyAll change rest) := rfl

/-- **The rule of invariants.** What every change keeps, whether it succeeds or
not, is kept. -/
theorem applyAll_keeps (invariant : σ → Prop) {changes : List α}
    (kept : ∀ a ∈ changes, ∀ state, invariant state → invariant (change a state).2)
    {state : σ} (holds : invariant state) : invariant (applyAll change changes state).2 := by
  induction changes generalizing state with
  | nil => exact holds
  | cons a rest ih =>
      have first := kept a List.mem_cons_self state holds
      rw [applyAll_cons]
      rcases result : change a state with ⟨_ | _, next⟩
      · rw [result] at first
        exact first
      · rw [result] at first
        exact ih (fun b member => kept b (List.mem_cons_of_mem _ member)) first

/-- **The rule of stages.** When a change that succeeds leads from the stage of the
changes before it to the next, and one that fails keeps the stage, the end is
the stage of the changes made. These are all of them exactly when the whole
succeeds. -/
theorem applyAll_stages (stage : List α → σ → Prop) {changes : List α}
    (kept : ∀ made a rest, changes = made ++ a :: rest → ∀ state, stage made state →
      stage (if (change a state).1 = true then made ++ [a] else made) (change a state).2)
    {state : σ} (holds : stage [] state) :
    ∃ made rest, changes = made ++ rest ∧ stage made (applyAll change changes state).2 ∧
      ((applyAll change changes state).1 = true ↔ rest = []) := by
  suffices run : ∀ left before state, changes = before ++ left → stage before state →
      ∃ made rest, left = made ++ rest ∧
        stage (before ++ made) (applyAll change left state).2 ∧
        ((applyAll change left state).1 = true ↔ rest = []) from
    run changes [] state rfl holds
  intro left
  induction left with
  | nil =>
      intro before state _ here
      exact ⟨[], [], rfl, (List.append_nil before).symm ▸ here, by simp⟩
  | cons a left ih =>
      intro before state split here
      have next := kept before a left split state here
      rw [applyAll_cons]
      rcases result : change a state with ⟨_ | _, after⟩
      · rw [result] at next
        refine ⟨[], a :: left, rfl, ?_, by simp⟩
        simpa using next
      · rw [result] at next
        obtain ⟨made, rest, more, there, whole⟩ := ih (before ++ [a]) after (by simp [split]) next
        refine ⟨a :: made, rest, by rw [more, List.cons_append], ?_, whole⟩
        rwa [List.append_assoc] at there

/-- **The rule of logs.** When a change that succeeds adds its entry to a log, and
one that fails leaves the log alone, the log gains the entries of the changes
made. -/
theorem applyAll_log (log : σ → List β) (entry : α → β) (invariant : σ → Prop) {changes : List α}
    (kept : ∀ a ∈ changes, ∀ state, invariant state → invariant (change a state).2 ∧
      log (change a state).2 =
        if (change a state).1 = true then log state ++ [entry a] else log state)
    {state : σ} (holds : invariant state) :
    ∃ made rest, changes = made ++ rest ∧
      log (applyAll change changes state).2 = log state ++ made.map entry ∧
      ((applyAll change changes state).1 = true ↔ rest = []) := by
  obtain ⟨made, rest, split, ⟨-, grown⟩, whole⟩ :=
    @applyAll_stages _ _ change
      (fun made later => invariant later ∧ log later = log state ++ made.map entry) changes
      (by
        rintro made a rest rfl now ⟨here, logged⟩
        obtain ⟨there, more⟩ := kept a (by simp) now here
        refine ⟨there, more.trans ?_⟩
        rw [logged]
        split <;> simp)
      state ⟨holds, by simp⟩
  exact ⟨made, rest, split, grown, whole⟩

/-- Changes that are given by other things. -/
theorem applyAll_map {γ : Type} (source : γ → α) (list : List γ) (state : σ) :
    applyAll change (list.map source) state = applyAll (fun c => change (source c)) list state := by
  induction list generalizing state with
  | nil => rfl
  | cons c list ih => exact congrArg _ (funext ih)

end Rules

end DawnPatrol.Foundation.Changes

import Mathlib.Data.List.Basic

/-!
# Cutting a text at a delimiter

A text is cut at the first or at the last occurrence of a delimiter. Each cut is
characterised by the part that does not contain the delimiter
(`cutFirst_eq_some`, `cutLast_eq_some`), so the cuts of a text that was put
together from known parts can be read off. `upTo` is the part before the first
occurrence, or the whole text. A start of a text that does not contain the
delimiter ends before it (`starts_append_cons_iff`).
-/

set_option autoImplicit false

namespace DawnPatrol.Foundation

variable {α : Type} [DecidableEq α] {delimiter : α} {text before after : List α}

/-- The parts before and after the first occurrence of a delimiter. -/
def cutFirst (delimiter : α) : List α → Option (List α × List α)
  | [] => none
  | letter :: text =>
      if letter = delimiter then some ([], text)
      else (cutFirst delimiter text).map fun cut => (letter :: cut.1, cut.2)

/-- The parts before and after the last occurrence of a delimiter. -/
def cutLast (delimiter : α) : List α → Option (List α × List α)
  | [] => none
  | letter :: text =>
      match cutLast delimiter text with
      | some (before, after) => some (letter :: before, after)
      | none => if letter = delimiter then some ([], text) else none

/-- The part before the first occurrence of a delimiter. -/
def upTo (delimiter : α) (text : List α) : List α :=
  ((cutFirst delimiter text).map Prod.fst).getD text

theorem cutFirst_eq_none : cutFirst delimiter text = none ↔ delimiter ∉ text := by
  induction text with
  | nil => simp [cutFirst]
  | cons letter text ih =>
      rw [cutFirst, List.mem_cons, not_or, ← ih]
      by_cases same : letter = delimiter
      · simp [same]
      · simp [same, Ne.symm same]

/-- **A first cut** leaves a part without the delimiter before it. -/
theorem cutFirst_eq_some :
    cutFirst delimiter text = some (before, after) ↔
      text = before ++ delimiter :: after ∧ delimiter ∉ before := by
  induction text generalizing before with
  | nil => simp [cutFirst]
  | cons letter text ih =>
      rw [cutFirst]
      by_cases same : letter = delimiter
      · subst same
        rw [if_pos rfl]
        constructor
        · intro cut
          cases cut
          exact ⟨rfl, List.not_mem_nil⟩
        · rintro ⟨parts, clear⟩
          cases before with
          | nil =>
              cases parts
              rfl
          | cons first before =>
              cases parts
              exact absurd (List.mem_cons_self ..) clear
      · rw [if_neg same]
        constructor
        · intro cut
          obtain ⟨⟨front, rest⟩, found, parts⟩ := Option.map_eq_some_iff.mp cut
          cases parts
          obtain ⟨rfl, clear⟩ := ih.mp found
          refine ⟨rfl, ?_⟩
          intro member
          rcases List.mem_cons.mp member with first | later
          · exact same first.symm
          · exact clear later
        · rintro ⟨parts, clear⟩
          cases before with
          | nil =>
              cases parts
              exact absurd rfl same
          | cons first before =>
              cases parts
              have found := ih.mpr ⟨rfl, fun member => clear (List.mem_cons_of_mem _ member)⟩
              rw [found]
              rfl

theorem cutLast_eq_none : cutLast delimiter text = none ↔ delimiter ∉ text := by
  induction text with
  | nil => simp [cutLast]
  | cons letter text ih =>
      rw [cutLast, List.mem_cons, not_or]
      cases found : cutLast delimiter text with
      | none =>
          have clear := ih.mp found
          by_cases same : letter = delimiter
          · simp [same]
          · simp [same, Ne.symm same, clear]
      | some cut =>
          have there : delimiter ∈ text := by
            by_contra clear
            rw [ih.mpr clear] at found
            cases found
          simp [there]

/-- **A last cut** leaves a part without the delimiter after it. -/
theorem cutLast_eq_some :
    cutLast delimiter text = some (before, after) ↔
      text = before ++ delimiter :: after ∧ delimiter ∉ after := by
  induction text generalizing before with
  | nil => simp [cutLast]
  | cons letter text ih =>
      rw [cutLast]
      cases found : cutLast delimiter text with
      | some cut =>
          obtain ⟨front, rest⟩ := cut
          have there : delimiter ∈ text := by
            by_contra clear
            rw [cutLast_eq_none.mpr clear] at found
            cases found
          constructor
          · intro cut
            cases cut
            obtain ⟨parts, clear⟩ := ih.mp found
            exact ⟨congrArg (letter :: ·) parts, clear⟩
          · rintro ⟨parts, clear⟩
            cases before with
            | nil =>
                cases parts
                exact absurd there clear
            | cons first before =>
                cases parts
                rw [ih.mpr ⟨rfl, clear⟩] at found
                cases found
                rfl
      | none =>
          have missing := cutLast_eq_none.mp found
          constructor
          · intro cut
            by_cases same : letter = delimiter
            · simp only [if_pos same] at cut
              cases cut
              exact ⟨congrArg (· :: after) same, missing⟩
            · simp [same] at cut
          · rintro ⟨parts, clear⟩
            cases before with
            | nil =>
                cases parts
                exact if_pos rfl
            | cons first before =>
                cases parts
                exact absurd (List.mem_append_right _ (List.mem_cons_self ..)) missing

theorem upTo_append_cons : upTo delimiter (text ++ delimiter :: after) = upTo delimiter text := by
  by_cases member : delimiter ∈ text
  · cases found : cutFirst delimiter text with
    | none => exact absurd member (cutFirst_eq_none.mp found)
    | some cut =>
        obtain ⟨front, rest⟩ := cut
        obtain ⟨parts, clear⟩ := cutFirst_eq_some.mp found
        have longer : cutFirst delimiter (text ++ delimiter :: after) =
            some (front, rest ++ delimiter :: after) :=
          cutFirst_eq_some.mpr ⟨by rw [parts]; simp, clear⟩
        simp only [upTo, found, longer, Option.map_some, Option.getD_some]
  · have cut : cutFirst delimiter (text ++ delimiter :: after) = some (text, after) :=
      cutFirst_eq_some.mpr ⟨rfl, member⟩
    simp only [upTo, cut, cutFirst_eq_none.mpr member, Option.map_some, Option.map_none,
      Option.getD_some, Option.getD_none]

theorem length_upTo_le : (upTo delimiter text).length ≤ text.length := by
  cases found : cutFirst delimiter text with
  | none => simp [upTo, found]
  | some cut =>
      obtain ⟨front, rest⟩ := cut
      obtain ⟨rfl, -⟩ := cutFirst_eq_some.mp found
      simp [upTo, found]

/-- The part before the first occurrence is the whole text when there is none. -/
theorem upTo_eq_self_iff : upTo delimiter text = text ↔ delimiter ∉ text := by
  cases found : cutFirst delimiter text with
  | none => simp [upTo, found, cutFirst_eq_none.mp found]
  | some cut =>
      obtain ⟨front, rest⟩ := cut
      obtain ⟨rfl, -⟩ := cutFirst_eq_some.mp found
      simp [upTo, found]

/-- A start without the delimiter is one of the part before it. -/
theorem starts_append_cons_iff {β : Type} {letter : β} {start front rest : List β}
    (clear : letter ∉ start) : start <+: front ++ letter :: rest ↔ start <+: front := by
  constructor
  · intro starts
    rcases Nat.lt_or_ge front.length start.length with longer | fits
    · -- a longer start would reach the delimiter
      have reaches : front ++ [letter] <+: start := by
        refine List.prefix_of_prefix_length_le ⟨rest, by simp⟩ starts ?_
        rw [List.length_append]
        exact longer
      exact absurd (reaches.subset (by simp)) clear
    · exact List.prefix_of_prefix_length_le starts (List.prefix_append _ _) fits
  · intro starts
    exact starts.trans (List.prefix_append _ _)

end DawnPatrol.Foundation

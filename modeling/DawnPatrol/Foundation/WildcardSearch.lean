import Mathlib.Data.List.Basic

/-!
# Searching a text for a pattern of atoms

A pattern is a list of atoms, each of which accepts some letters of a text.
`occursIn` searches the text for a place from which the atoms accept the
letters one by one. Both tests are characterised by positions
(`matchesHere_iff`, `occursIn_iff`), which is the form in which occurrences
are compared with the parts a text is built from. A search can be read from
either end (`occursIn_reverse`), and atoms that stand for single letters accept
the texts they begin (`matchesHere_map_iff`).
-/

set_option autoImplicit false

namespace DawnPatrol.Foundation

variable {α β : Type} (accepts : β → α → Bool)

/-- The atoms accept a beginning of the text. -/
def matchesHere : List β → List α → Bool
  | [], _ => true
  | _ :: _, [] => false
  | atom :: atoms, letter :: letters => accepts atom letter && matchesHere atoms letters

/-- The atoms accept some part of the text. -/
def occursIn (pattern : List β) : List α → Bool
  | [] => matchesHere accepts pattern []
  | letter :: letters =>
      matchesHere accepts pattern (letter :: letters) || occursIn pattern letters

variable {accepts}

theorem matchesHere_iff {pattern : List β} {text : List α} :
    matchesHere accepts pattern text = true ↔
      ∀ (i : ℕ) (atom : β), pattern[i]? = some atom → ∃ letter, text[i]? = some letter ∧
        accepts atom letter = true := by
  induction pattern generalizing text with
  | nil => simp [matchesHere]
  | cons first atoms ih =>
      cases text with
      | nil =>
          simp only [matchesHere, Bool.false_eq_true, false_iff]
          intro matched
          obtain ⟨letter, there, _⟩ := matched 0 first rfl
          simp at there
      | cons letter letters =>
          simp only [matchesHere, Bool.and_eq_true, ih]
          constructor
          · rintro ⟨accepted, rest⟩ i atom there
            cases i with
            | zero =>
                have same : first = atom := by simpa using there
                exact ⟨letter, rfl, same ▸ accepted⟩
            | succ i => exact rest i atom (by simpa using there)
          · intro matched
            refine ⟨?_, fun i atom there => ?_⟩
            · obtain ⟨found, there, accepted⟩ := matched 0 first rfl
              have same : letter = found := by simpa using there
              exact same ▸ accepted
            · simpa using matched (i + 1) atom (by simpa using there)

/-- An occurrence is a place from which the text is accepted. -/
theorem occursIn_iff_drop {pattern : List β} {text : List α} :
    occursIn accepts pattern text = true ↔
      ∃ place ≤ text.length, matchesHere accepts pattern (text.drop place) = true := by
  induction text with
  | nil => simp [occursIn]
  | cons letter letters ih =>
      simp only [occursIn, Bool.or_eq_true, ih]
      constructor
      · rintro (here | ⟨place, le, matched⟩)
        · exact ⟨0, Nat.zero_le _, here⟩
        · exact ⟨place + 1, by simpa using le, by simpa using matched⟩
      · rintro ⟨place, le, matched⟩
        cases place with
        | zero => exact .inl (by simpa using matched)
        | succ place => exact .inr ⟨place, by simpa using le, by simpa using matched⟩

/-- **Occurrences by position.** -/
theorem occursIn_iff {pattern : List β} {text : List α} :
    occursIn accepts pattern text = true ↔
      ∃ place ≤ text.length, ∀ (i : ℕ) (atom : β), pattern[i]? = some atom →
        ∃ letter, text[place + i]? = some letter ∧ accepts atom letter = true := by
  simp only [occursIn_iff_drop, matchesHere_iff, List.getElem?_drop]

/-- Atoms that each accept one letter accept the texts that begin with these. -/
theorem matchesHere_map_iff {atomOf : α → β} {letters text : List α}
    (exact : ∀ c ∈ letters, ∀ d ∈ text, accepts (atomOf c) d = true ↔ d = c) :
    matchesHere accepts (letters.map atomOf) text = true ↔ letters <+: text := by
  induction letters generalizing text with
  | nil => simp [matchesHere]
  | cons c letters ih =>
      cases text with
      | nil => simp [matchesHere]
      | cons d text =>
          have rest := @ih text fun c' inLetters d' inText =>
            exact c' (List.mem_cons_of_mem _ inLetters) d' (List.mem_cons_of_mem _ inText)
          rw [List.map_cons, matchesHere, Bool.and_eq_true, rest, List.cons_prefix_cons,
            exact c (List.mem_cons_self ..) d (List.mem_cons_self ..), eq_comm]

/-- An occurrence is found from either end. -/
theorem occursIn_reverse_of {pattern : List β} {text : List α}
    (occurs : occursIn accepts pattern text = true) :
    occursIn accepts pattern.reverse text.reverse = true := by
  obtain ⟨place, within, matched⟩ := occursIn_iff.mp occurs
  -- the atoms end within the text
  have ends : place + pattern.length ≤ text.length := by
    rcases Nat.eq_zero_or_pos pattern.length with empty | pos
    · omega
    · obtain ⟨letter, there, -⟩ := matched (pattern.length - 1) _
        (List.getElem?_eq_getElem (by omega))
      have := (List.getElem?_eq_some_iff.mp there).1
      omega
  refine occursIn_iff.mpr ⟨text.length - (place + pattern.length), ?_, fun i atom there => ?_⟩
  · rw [List.length_reverse]
    omega
  · have inside : i < pattern.length := by
      simpa using (List.getElem?_eq_some_iff.mp there).1
    rw [List.getElem?_reverse inside] at there
    obtain ⟨letter, found, accepted⟩ := matched _ atom there
    refine ⟨letter, ?_, accepted⟩
    rw [List.getElem?_reverse (by omega), ← found]
    congr 1
    omega

/-- **A search can be read from either end.** -/
theorem occursIn_reverse {pattern : List β} {text : List α} :
    occursIn accepts pattern.reverse text.reverse = occursIn accepts pattern text := by
  refine Bool.eq_iff_iff.mpr ⟨fun occurs => ?_, occursIn_reverse_of⟩
  simpa using occursIn_reverse_of occurs

/-- A search passes over the letters that its first atom rejects. -/
theorem occursIn_append_of_rejects {first : β} {atoms : List β} {front text : List α}
    (rejects : front.any (accepts first) = false) :
    occursIn accepts (first :: atoms) (front ++ text) = occursIn accepts (first :: atoms) text := by
  induction front with
  | nil => rfl
  | cons letter front ih =>
      obtain ⟨rejected, rest⟩ := Bool.or_eq_false_iff.mp (List.any_cons.symm.trans rejects)
      rw [List.cons_append, occursIn, matchesHere, rejected, ih rest]
      rfl

end DawnPatrol.Foundation

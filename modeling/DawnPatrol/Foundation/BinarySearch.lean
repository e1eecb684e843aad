import Mathlib.Data.List.Basic
import Mathlib.Order.Lattice
import Mathlib.Order.Nat

/-!
# Searching sorted lists by halves

A property of the places of a list holds of none of them up to some place, and
of all of them from there on. Halving the interval finds that place
(`search_spec`). In a list that is sorted by keys, the search for a key finds
the element that has it (`searchKey_eq`).
-/

set_option autoImplicit false

namespace DawnPatrol.Foundation.BinarySearch

/-- Halve the interval of the places that are left. -/
def searchWithin (holds : ℕ → Bool) : ℕ → ℕ → ℕ → ℕ
  | 0, low, _ => low
  | steps + 1, low, high =>
      if low < high then
        let middle := (low + high) / 2
        if holds middle then searchWithin holds steps low middle
        else searchWithin holds steps (middle + 1) high
      else low

/-- The first of some places from which on a property holds. -/
def search (places : ℕ) (holds : ℕ → Bool) : ℕ := searchWithin holds places 0 places

/-- A property holds of no place before some place, and of all from there on. -/
structure Divides (holds : ℕ → Bool) (places here : ℕ) : Prop where
  inside : here ≤ places
  before : ∀ i < here, holds i = false
  after : ∀ i, here ≤ i → i < places → holds i = true

section Search

variable {holds : ℕ → Bool} {places : ℕ}

/-- Halving keeps the place between the places of which the property is known. -/
theorem searchWithin_spec
    (upward : ∀ i j, i ≤ j → j < places → holds i = true → holds j = true)
    {steps low high : ℕ} (enough : high ≤ low + steps) (order : low ≤ high)
    (inside : high ≤ places) (before : ∀ i < low, holds i = false)
    (after : ∀ i, high ≤ i → i < places → holds i = true) :
    Divides holds places (searchWithin holds steps low high) := by
  induction steps generalizing low high with
  | zero =>
      obtain rfl : low = high := by omega
      exact ⟨inside, before, after⟩
  | succ steps ih =>
      by_cases less : low < high
      · have between : low ≤ (low + high) / 2 ∧ (low + high) / 2 < high := by omega
        simp only [searchWithin, if_pos less]
        cases found : holds ((low + high) / 2) with
        | true =>
            exact ih (by omega) between.1 (by omega) before fun i later within =>
              upward _ i later within found
        | false =>
            refine ih (by omega) (by omega) inside (fun i earlier => ?_) after
            by_contra holdsThere
            rw [Bool.not_eq_false] at holdsThere
            have missed := upward i ((low + high) / 2) (by omega) (by omega) holdsThere
            rw [found] at missed
            cases missed
      · obtain rfl : low = high := by omega
        rw [searchWithin, if_neg less]
        exact ⟨inside, before, after⟩

/-- **The search finds the first place** from which on the property holds. -/
theorem search_spec (upward : ∀ i j, i ≤ j → j < places → holds i = true → holds j = true) :
    Divides holds places (search places holds) :=
  searchWithin_spec upward (by omega) (Nat.zero_le _) le_rfl
    (fun i impossible => absurd impossible (Nat.not_lt_zero i))
    fun i later within => absurd within (not_lt.mpr later)

end Search

/-! ## Keys -/

section Keys

variable {α κ : Type} [LinearOrder κ] {key : α → κ} {all : List α} {wanted : κ}

/-- The place of the first element whose key is not less than a key. -/
def searchKey (key : α → κ) (all : List α) (wanted : κ) : ℕ :=
  search all.length fun i => (all[i]?.map key).any (wanted ≤ ·)

/-- **The search for a key** finds the place of the element that has it. -/
theorem searchKey_eq (sorted : all.Pairwise fun a b => key a < key b) {place : ℕ}
    (inside : place < all.length) (has : key all[place] = wanted) :
    searchKey key all wanted = place := by
  have increasing : ∀ i j (less : i < j) (within : j < all.length), key all[i] < key all[j] :=
    fun i j less within => List.pairwise_iff_getElem.mp sorted i j (less.trans within) within less
  have value : ∀ i (within : i < all.length),
      ((all[i]?.map key).any (wanted ≤ ·)) = decide (wanted ≤ key all[i]) := by
    intro i within
    rw [List.getElem?_eq_getElem within]
    rfl
  have found : Divides (fun i => (all[i]?.map key).any (wanted ≤ ·)) all.length
      (searchKey key all wanted) := search_spec
    (by
      intro i j le within found
      rw [value i (by omega), decide_eq_true_eq] at found
      rw [value j within, decide_eq_true_eq]
      rcases Nat.eq_or_lt_of_le le with rfl | less
      · exact found
      · exact found.trans (increasing i j less within).le)
  refine le_antisymm ?_ ?_
  · by_contra later
    have missed := found.before place (not_le.mp later)
    rw [value place inside, decide_eq_false_iff_not] at missed
    exact missed has.ge
  · by_contra earlier
    have less := not_le.mp earlier
    have reached := found.after _ le_rfl (less.trans inside)
    rw [value _ (less.trans inside), decide_eq_true_eq] at reached
    exact absurd (increasing _ place less inside) (not_lt.mpr (has.le.trans reached))

theorem getElem?_searchKey (sorted : all.Pairwise fun a b => key a < key b) {a : α}
    (member : a ∈ all) (has : key a = wanted) : all[searchKey key all wanted]? = some a := by
  obtain ⟨place, inside, rfl⟩ := List.getElem_of_mem member
  rw [searchKey_eq sorted inside has, List.getElem?_eq_getElem inside]

end Keys

end DawnPatrol.Foundation.BinarySearch

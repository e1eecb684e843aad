import Mathlib.Logic.Equiv.Basic

/-!
# Exchanging two adjacent blocks of numbers

Two processes that draw from one sequence get adjacent blocks of numbers, in
the order in which they run. `blockSwap` is the permutation that renames the
numbers of one order to those of the other: it moves the first block behind the
second, keeps the order within each, and fixes everything else.
-/

set_option autoImplicit false

namespace DawnPatrol.Foundation

/-- Where the exchange of two blocks that begin at `start` moves a number. -/
def swapBlocks (start : ℤ) (first second : ℕ) (number : ℤ) : ℤ :=
  if start ≤ number ∧ number < start + first then number + second
  else if start + first ≤ number ∧ number < start + first + second then number - first
  else number

theorem swapBlocks_swapBlocks (start : ℤ) (first second : ℕ) (number : ℤ) :
    swapBlocks start second first (swapBlocks start first second number) = number := by
  simp only [swapBlocks]
  split_ifs <;> omega

/-- The exchange of two blocks that begin at `start`. -/
def blockSwap (start : ℤ) (first second : ℕ) : Equiv.Perm ℤ where
  toFun := swapBlocks start first second
  invFun := swapBlocks start second first
  left_inv := swapBlocks_swapBlocks start first second
  right_inv := swapBlocks_swapBlocks start second first

section BlockSwap

variable {start number : ℤ} {first second : ℕ}

theorem blockSwap_first (from_start : start ≤ number) (inside : number < start + first) :
    blockSwap start first second number = number + second :=
  if_pos ⟨from_start, inside⟩

theorem blockSwap_second (behind : start + first ≤ number)
    (inside : number < start + first + second) :
    blockSwap start first second number = number - first := by
  change swapBlocks start first second number = _
  rw [swapBlocks, if_neg (by omega), if_pos ⟨behind, inside⟩]

theorem blockSwap_before (before : number < start) :
    blockSwap start first second number = number := by
  change swapBlocks start first second number = _
  rw [swapBlocks, if_neg (by omega), if_neg (by omega)]

end BlockSwap

end DawnPatrol.Foundation

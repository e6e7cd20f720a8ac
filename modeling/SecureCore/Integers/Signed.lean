import Mathlib.Algebra.Order.Ring.Int

/-! # Signed integers of a fixed width

In two's complement a number is kept up to multiples of `2 ^ w`. A result that fits into a
word is the exact one. -/

namespace Integers

set_option autoImplicit false

/-- The number that a signed word of `w` bits has in the place of `n`. -/
def signed (w : Nat) (n : Int) : Int := n.bmod (2 ^ w)

/-- A signed word of `w` bits can hold `n`. -/
def Fits (w : Nat) (n : Int) : Prop := -((2 ^ w : Nat) : Int) ≤ n * 2 ∧ n * 2 < ((2 ^ w : Nat) : Int)

variable {w : Nat} {n : Int}

theorem signed_of_fits (h : Fits w n) : signed w n = n := Int.bmod_eq_of_le_mul_two h.1 h.2

end Integers

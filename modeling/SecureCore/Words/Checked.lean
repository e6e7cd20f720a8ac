import Mathlib.Algebra.Group.Nat.Defs
import Mathlib.Data.Nat.Notation

/-! # Arithmetic that fails instead of wrapping

A computation on unsigned words is written once, over any operations. With the wrapping
ones it is what the machine does; with the checked ones it stops where an operation has
no exact result. -/

namespace Words

set_option autoImplicit false

structure Operations (m : Type → Type) where
  multiply : Nat → Nat → m Nat
  divide : Nat → Nat → m Nat

/-- The operations of a machine with words of `w` bits. -/
def wrapping (w : Nat) : Operations Id := ⟨fun a b => a * b % 2 ^ w, fun a b => a / b⟩

/-- None where the product does not fit, or where the divisor is zero. -/
def checked (w : Nat) : Operations Option where
  multiply a b := if a * b < 2 ^ w then some (a * b) else none
  divide a b := if b = 0 then none else some (a / b)

variable {w a b c : Nat}

theorem checked_multiply (h : a * b < 2 ^ w) : (checked w).multiply a b = some (a * b) := if_pos h

theorem checked_divide (h : b ≠ 0) : (checked w).divide a b = some (a / b) := if_neg h

end Words

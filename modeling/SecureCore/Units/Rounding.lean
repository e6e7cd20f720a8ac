import Mathlib.Data.Int.DivMod
import Mathlib.Algebra.Order.Group.Int
import Mathlib.Algebra.Order.Ring.Int
import Mathlib.Tactic.Ring
import Mathlib.Tactic.Linarith

/-! # Rounding through an intermediate unit

A quantity is rounded down to a fine unit and the result up to a coarse one, which
is `ratio` fine ones. The first rounding can lose what the second should have
rounded up. -/

namespace SecureCore.Rounding

set_option autoImplicit false

/-- The number of coarse units. -/
def downUp (fine ratio x : Int) : Int := (x / fine + (ratio - 1)) / ratio

/-- A part of a coarse unit is there, but no fine unit of it. -/
def Lost (fine ratio x : Int) : Prop := 0 < x % (fine * ratio) ∧ x % (fine * ratio) < fine

variable {fine ratio x y : Int}

theorem ediv_of_small {q r : Int} (hRatio : 0 < ratio) (hNonneg : 0 ≤ r) (hSmall : r < ratio) :
    (ratio * q + r) / ratio = q := by
  rw [Int.mul_add_ediv_left _ _ hRatio.ne', Int.ediv_eq_zero_of_lt hNonneg hSmall, add_zero]

/-- The part of a coarse unit counts as a whole one if it is at least a fine unit. -/
theorem downUp_eq (hFine : 0 < fine) (hRatio : 0 < ratio) (x : Int) : downUp fine ratio x =
    x / (fine * ratio) + if x % (fine * ratio) < fine then 0 else 1 := by
  have hCoarse : 0 < fine * ratio := Int.mul_pos hFine hRatio
  have hNonneg := Int.emod_nonneg x hCoarse.ne'
  have hBelow := Int.emod_lt_of_pos x hCoarse
  have hParts : x / fine = ratio * (x / (fine * ratio)) + x % (fine * ratio) / fine := by
    conv_lhs => rw [← Int.mul_ediv_add_emod x (fine * ratio), mul_assoc]
    exact Int.mul_add_ediv_left _ _ hFine.ne'
  have hDigit : x % (fine * ratio) / fine < ratio := Int.ediv_lt_of_lt_mul hFine (by linarith)
  unfold downUp
  rw [hParts]
  split
  · rename_i hNone
    rw [Int.ediv_eq_zero_of_lt hNonneg hNone, add_zero, add_zero]
    exact ediv_of_small hRatio (by omega) (by omega)
  · rename_i hSome
    have hDigits : 1 ≤ x % (fine * ratio) / fine :=
      (Int.le_ediv_iff_mul_le hFine).mpr (by omega)
    rw [show ratio * (x / (fine * ratio)) + x % (fine * ratio) / fine + (ratio - 1) =
      ratio * (x / (fine * ratio) + 1) + (x % (fine * ratio) / fine - 1) by ring]
    exact ediv_of_small hRatio (by omega) (by omega)

theorem downUp_of_lost (hFine : 0 < fine) (hRatio : 0 < ratio) (h : Lost fine ratio x) :
    downUp fine ratio x = x / (fine * ratio) := by
  rw [downUp_eq hFine hRatio, if_pos h.2, add_zero]

theorem downUp_lt (hFine : 0 < fine) (hRatio : 0 < ratio) (x : Int) :
    fine * ratio * downUp fine ratio x < x + fine * ratio := by
  have hCoarse : 0 < fine * ratio := Int.mul_pos hFine hRatio
  have hParts := Int.mul_ediv_add_emod x (fine * ratio)
  have hNonneg := Int.emod_nonneg x hCoarse.ne'
  rw [downUp_eq hFine hRatio, mul_add]
  split <;> linarith

/-- The result covers the quantity unless the first rounding lost its last part. -/
theorem le_downUp_iff (hFine : 0 < fine) (hRatio : 0 < ratio) (x : Int) :
    x ≤ fine * ratio * downUp fine ratio x ↔ ¬Lost fine ratio x := by
  have hCoarse : 0 < fine * ratio := Int.mul_pos hFine hRatio
  have hParts := Int.mul_ediv_add_emod x (fine * ratio)
  have hNonneg := Int.emod_nonneg x hCoarse.ne'
  have hBelow := Int.emod_lt_of_pos x hCoarse
  unfold Lost
  rw [downUp_eq hFine hRatio, mul_add]
  split
  · rename_i hNone
    constructor
    · rintro hCovered ⟨hPart, -⟩
      linarith
    · intro hKept
      have hWhole : ¬0 < x % (fine * ratio) := fun hPart => hKept ⟨hPart, hNone⟩
      linarith
  · rename_i hSome
    constructor
    · rintro - ⟨-, hNone⟩
      exact hSome hNone
    · intro _
      linarith

theorem downUp_mono (hFine : 0 < fine) (hRatio : 0 < ratio) (h : x ≤ y) :
    downUp fine ratio x ≤ downUp fine ratio y := by
  have hDown := Int.ediv_le_ediv hFine h
  exact Int.ediv_le_ediv hRatio (by omega)

end SecureCore.Rounding

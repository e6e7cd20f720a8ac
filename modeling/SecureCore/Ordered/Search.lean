import Mathlib.Data.List.Sort
import Mathlib.Order.Defs.LinearOrder

/-! # Sorted lists without repetitions

Sorting, the test for equal neighbours and the binary search, each known by what it
says about the elements of the list. -/

namespace Ordered

set_option autoImplicit false

variable {α : Type} [LinearOrder α]

/-- The number of elements before the first one that is not below `value`: the middle
element decides which half is searched on. -/
def lowerBound (xs : List α) (value : α) : Nat :=
  match hRight : xs.drop (xs.length / 2) with
  | [] => 0
  | x :: right =>
    if x < value then xs.length / 2 + 1 + lowerBound right value
    else lowerBound (xs.take (xs.length / 2)) value
termination_by xs.length
decreasing_by
  all_goals
    have hLength := congrArg List.length hRight
    rw [List.length_drop, List.length_cons] at hLength
  · omega
  · rw [List.length_take]
    omega

def binarySearch (xs : List α) (value : α) : Bool :=
  match xs.drop (lowerBound xs value) with
  | [] => false
  | x :: _ => !decide (value < x)

def sort (xs : List α) : List α := xs.mergeSort (fun a b => decide (a ≤ b))

def hasEqualNeighbours : List α → Bool
  | a :: b :: rest => a == b || hasEqualNeighbours (b :: rest)
  | _ => false

variable {xs : List α} {value : α}

/-- In a sorted list all before the bound are below the value, and none behind it. -/
theorem lowerBound_split (h : xs.Pairwise (· ≤ ·)) (value : α) : lowerBound xs value ≤ xs.length ∧
    (∀ x ∈ xs.take (lowerBound xs value), x < value) ∧ ∀ x ∈ xs.drop (lowerBound xs value), value ≤ x := by
  induction hLength : xs.length using Nat.strongRecOn generalizing xs with
  | ind n ih =>
    have hSplit := List.take_append_drop (xs.length / 2) xs
    rw [lowerBound]
    split
    · rename_i hRight
      have hNil : xs = [] := by
        rw [List.drop_eq_nil_iff] at hRight
        exact List.eq_nil_of_length_eq_zero (by omega)
      rw [hNil]
      exact ⟨Nat.zero_le _, List.forall_mem_nil _, List.forall_mem_nil _⟩
    · rename_i middle right hRight
      have hRightLength := congrArg List.length hRight
      rw [List.length_drop, List.length_cons] at hRightLength
      rw [hRight] at hSplit
      have hParts := h
      rw [← hSplit] at hParts
      obtain ⟨hLeft, hRest, hAcross⟩ := List.pairwise_append.mp hParts
      obtain ⟨hMiddle, hRightSorted⟩ := List.pairwise_cons.mp hRest
      have hHalf : (xs.take (xs.length / 2)).length = xs.length / 2 := by
        rw [List.length_take]
        omega
      split
      · rename_i hLess
        obtain ⟨hBound, hBelow, hAbove⟩ := ih right.length (by omega) hRightSorted rfl
        refine ⟨by omega, ?_, ?_⟩
        · rw [Nat.add_assoc, List.take_add, hRight, Nat.add_comm 1, List.take_succ_cons]
          intro x hx
          rcases List.mem_append.mp hx with hx | hx
          · exact lt_of_le_of_lt (hAcross x hx middle List.mem_cons_self) hLess
          · rcases List.mem_cons.mp hx with rfl | hx
            · exact hLess
            · exact hBelow x hx
        · rw [Nat.add_assoc, ← List.drop_drop, hRight, Nat.add_comm 1, List.drop_succ_cons]
          exact hAbove
      · rename_i hNotLess
        have hMiddleLe := le_of_not_gt hNotLess
        obtain ⟨hBound, hBelow, hAbove⟩ := ih (xs.length / 2) (by omega) hLeft hHalf
        rw [List.take_take, Nat.min_eq_left hBound] at hBelow
        have hDrop : xs.drop (lowerBound (xs.take (xs.length / 2)) value) =
            (xs.take (xs.length / 2)).drop (lowerBound (xs.take (xs.length / 2)) value) ++ middle :: right := by
          rw [← List.drop_append_of_le_length (by omega), hSplit]
        refine ⟨by omega, hBelow, ?_⟩
        intro x hx
        rw [hDrop] at hx
        rcases List.mem_append.mp hx with hx | hx
        · exact hAbove x hx
        · rcases List.mem_cons.mp hx with rfl | hx
          · exact hMiddleLe
          · exact hMiddleLe.trans (hMiddle x hx)

theorem binarySearch_iff (h : xs.Pairwise (· ≤ ·)) : binarySearch xs value = true ↔ value ∈ xs := by
  obtain ⟨-, hBelow, hAbove⟩ := lowerBound_split h value
  have hSplit := List.take_append_drop (lowerBound xs value) xs
  have hNotBefore : value ∉ xs.take (lowerBound xs value) := fun hMem => lt_irrefl _ (hBelow value hMem)
  have hMem : value ∈ xs ↔ value ∈ xs.drop (lowerBound xs value) := by
    conv_lhs => rw [← hSplit, List.mem_append, or_iff_right hNotBefore]
  have hSorted : (xs.drop (lowerBound xs value)).Pairwise (· ≤ ·) := h.sublist (List.drop_sublist _ _)
  rw [hMem, binarySearch]
  split
  · rename_i hNil
    rw [hNil]
    exact iff_of_false Bool.false_ne_true List.not_mem_nil
  · rename_i x rest hRest
    rw [hRest] at hAbove hSorted ⊢
    have hLe := hAbove x List.mem_cons_self
    rw [Bool.not_eq_true', decide_eq_false_iff_not, List.mem_cons]
    constructor
    · exact fun hNotLess => .inl (le_antisymm hLe (le_of_not_gt hNotLess))
    · rintro (rfl | hMem)
      · exact lt_irrefl _
      · exact not_lt_of_ge (List.rel_of_pairwise_cons hSorted hMem)

theorem sort_perm (xs : List α) : (sort xs).Perm xs := List.mergeSort_perm xs _

theorem sort_pairwise (xs : List α) : (sort xs).Pairwise (· ≤ ·) := by
  have hSorted := @List.pairwise_mergeSort α (fun a b => decide (a ≤ b))
    (fun a b c hab hbc => by simp only [decide_eq_true_eq] at *; exact hab.trans hbc)
    (fun a b => by simp only [Bool.or_eq_true, decide_eq_true_eq]; exact le_total a b) xs
  exact hSorted.imp of_decide_eq_true

/-- In a sorted list equal elements are neighbours. -/
theorem hasEqualNeighbours_iff (h : xs.Pairwise (· ≤ ·)) : hasEqualNeighbours xs = true ↔ ¬xs.Nodup := by
  induction xs with
  | nil => exact iff_of_false Bool.false_ne_true (not_not_intro List.nodup_nil)
  | cons a rest ih =>
    cases rest with
    | nil => exact iff_of_false Bool.false_ne_true (not_not_intro (List.nodup_singleton a))
    | cons b rest =>
      obtain ⟨hFirst, hRest⟩ := List.pairwise_cons.mp h
      have hHead : a ∈ b :: rest ↔ a = b := by
        rw [List.mem_cons, or_iff_left_of_imp]
        intro hMem
        exact le_antisymm (hFirst b List.mem_cons_self) (List.rel_of_pairwise_cons hRest hMem)
      have hNodup : (a :: b :: rest).Nodup ↔ a ≠ b ∧ (b :: rest).Nodup := by
        rw [List.nodup_cons, hHead]
      rw [hasEqualNeighbours, Bool.or_eq_true, beq_iff_eq, ih hRest, hNodup, not_and_or, not_not]

theorem sort_hasEqualNeighbours (xs : List α) : hasEqualNeighbours (sort xs) = true ↔ ¬xs.Nodup := by
  rw [hasEqualNeighbours_iff (sort_pairwise xs), (sort_perm xs).nodup_iff]

end Ordered

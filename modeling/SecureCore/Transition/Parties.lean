import Mathlib.Data.List.Basic
import Mathlib.Algebra.BigOperators.Group.List.Basic
import Mathlib.Algebra.GroupWithZero.Nat

/-! # Parties of which one moves

A list holds the states of the parties of a system. A step of one party replaces its entry,
and a sum over all parties changes by the share of that one. -/

set_option autoImplicit false

namespace Transition

variable {α β : Type} {l : List α} {i : Nat} {a : α}

theorem split_set (h : l[i]? = some a) (b : α) :
    ∃ before after, l = before ++ a :: after ∧ l.set i b = before ++ b :: after := by
  obtain ⟨hBound, rfl⟩ := List.getElem?_eq_some_iff.mp h
  have hExists : ∃ before after, l = before ++ l[i] :: after ∧ before.length = i ∧
      l.set i b = before ++ b :: after := List.exists_of_set hBound
  obtain ⟨before, after, hSplit, -, hSet⟩ := hExists
  exact ⟨before, after, hSplit, hSet⟩

/-- What stands in a list after one entry was replaced. -/
theorem getElem?_set_some {j : Nat} {b : α} (h : (l.set i b)[j]? = some a) :
    j = i ∧ a = b ∨ j ≠ i ∧ l[j]? = some a := by
  obtain rfl | hOther := eq_or_ne j i
  · obtain ⟨hBound, hValue⟩ := List.getElem?_eq_some_iff.mp h
    rw [List.getElem_set_self] at hValue
    exact .inl ⟨rfl, hValue.symm⟩
  · exact .inr ⟨hOther, (List.getElem?_set_ne hOther.symm).symm.trans h⟩

theorem countP_set (h : l[i]? = some a) (b : α) (p : α → Bool) :
    (l.set i b).countP p + (if p a then 1 else 0) = l.countP p + (if p b then 1 else 0) := by
  obtain ⟨before, after, rfl, hSet⟩ := split_set h b
  rw [hSet, List.countP_append, List.countP_append, List.countP_cons, List.countP_cons]
  omega

theorem sum_set (h : l[i]? = some a) (b : α) (weight : α → Nat) :
    ((l.set i b).map weight).sum + weight a = (l.map weight).sum + weight b := by
  obtain ⟨before, after, rfl, hSet⟩ := split_set h b
  rw [hSet]
  simp only [List.map_append, List.map_cons, List.sum_append, List.sum_cons]
  omega

theorem filterMap_set (h : l[i]? = some a) (b : α) (f : α → Option β) :
    ((l.set i b).filterMap f ++ (f a).toList).Perm (l.filterMap f ++ (f b).toList) := by
  obtain ⟨before, after, rfl, hSet⟩ := split_set h b
  rw [hSet]
  have hCons : ∀ x, (x :: after).filterMap f = (f x).toList ++ after.filterMap f := by
    intro x
    cases hx : f x <;> simp [hx]
  simp only [List.filterMap_append, hCons, List.append_assoc]
  apply List.Perm.append_left
  have hLast : ((f b).toList ++ (after.filterMap f ++ (f a).toList)).Perm
      (after.filterMap f ++ (f a).toList ++ (f b).toList) := List.perm_append_comm
  rw [List.append_assoc] at hLast
  exact hLast.trans (List.perm_append_comm_assoc _ _ _)

end Transition

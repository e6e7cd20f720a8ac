import Mathlib.Data.List.Basic
import Mathlib.Data.List.Pairwise
import Mathlib.Order.Basic

/-! # Tables with an autoincremented integer key

Keys count up from 1. The rows stand in the order of their keys, and the sequence
number of the table bounds every key ever handed out. These facts are fields, so a
key names at most one row and a new row is newer than all others in every table.
An INSERT that names its own key could also store a key below 1, which the schema
admits. No statement of the source names one, and such tables are left out here. -/

namespace Relational

set_option autoImplicit false

class Keyed (ρ : Type) where
  key : ρ → Int
  withKey : Int → ρ → ρ
  key_withKey : ∀ n r, key (withKey n r) = n

open Keyed

structure Table (ρ : Type) [Keyed ρ] where
  rows : List ρ
  sequence : Int
  ordered : rows.Pairwise (fun a b => key a < key b)
  bounded : ∀ r ∈ rows, key r ≤ sequence
  positive : ∀ r ∈ rows, 0 < key r
  started : 0 ≤ sequence

namespace Table

variable {ρ : Type} [Keyed ρ]

def empty : Table ρ := ⟨[], 0, List.Pairwise.nil, by simp, by simp, Int.le_refl _⟩

/-- The key that the next inserted row gets. -/
def nextKey (t : Table ρ) : Int := t.sequence + 1

/-- INSERT: the key of the given row is replaced by a fresh one. -/
def insert (t : Table ρ) (r : ρ) : Table ρ where
  rows := t.rows ++ [withKey t.nextKey r]
  sequence := t.nextKey
  ordered := by
    refine List.pairwise_append.mpr ⟨t.ordered, List.pairwise_singleton _ _, ?_⟩
    intro a ha b hb
    rw [List.mem_singleton.mp hb, key_withKey]
    exact Int.lt_add_one_of_le (t.bounded a ha)
  bounded := by
    intro a ha
    rcases List.mem_append.mp ha with ha | ha
    · exact Int.le_add_one (t.bounded a ha)
    · have hNew : key a = t.nextKey := by rw [List.mem_singleton.mp ha, key_withKey]
      exact Int.le_of_eq hNew
  positive := by
    intro a ha
    rcases List.mem_append.mp ha with ha | ha
    · exact t.positive a ha
    · rw [List.mem_singleton.mp ha, key_withKey]
      exact Int.lt_add_one_of_le t.started
  started := Int.le_add_one t.started

/-- What UPDATE makes of one row; the key column is never assigned. -/
def updated (condition : ρ → Bool) (assign : ρ → ρ) (r : ρ) : ρ :=
  if condition r then withKey (key r) (assign r) else r

@[simp] theorem key_updated (condition : ρ → Bool) (assign : ρ → ρ) (r : ρ) :
    key (updated condition assign r) = key r := by
  unfold updated
  split
  · exact key_withKey _ _
  · rfl

/-- UPDATE ... SET assign WHERE condition. -/
def update (t : Table ρ) (condition : ρ → Bool) (assign : ρ → ρ) : Table ρ where
  rows := t.rows.map (updated condition assign)
  sequence := t.sequence
  ordered := by
    rw [List.pairwise_map]
    exact t.ordered.imp (fun h => by simpa using h)
  bounded := by
    intro r hr
    obtain ⟨r', hr', rfl⟩ := List.mem_map.mp hr
    simpa using t.bounded r' hr'
  positive := by
    intro r hr
    obtain ⟨r', hr', rfl⟩ := List.mem_map.mp hr
    simpa using t.positive r' hr'
  started := t.started

/-- DELETE ... WHERE condition. -/
def delete (t : Table ρ) (condition : ρ → Bool) : Table ρ where
  rows := t.rows.filter (fun r => !condition r)
  sequence := t.sequence
  ordered := t.ordered.sublist List.filter_sublist
  bounded := fun r hr => t.bounded r (List.mem_filter.mp hr).1
  positive := fun r hr => t.positive r (List.mem_filter.mp hr).1
  started := t.started

/-- SELECT ... WHERE condition LIMIT 1. -/
def first (t : Table ρ) (condition : ρ → Bool) : Option ρ := t.rows.find? condition

/-- The number of rows that an UPDATE or DELETE with this condition touches. -/
def count (t : Table ρ) (condition : ρ → Bool) : Nat := t.rows.countP condition

@[simp] theorem mem_insert {t : Table ρ} {r r' : ρ} :
    r' ∈ (t.insert r).rows ↔ r' ∈ t.rows ∨ r' = withKey t.nextKey r := by
  simp [insert]

@[simp] theorem mem_update {t : Table ρ} {condition : ρ → Bool} {assign : ρ → ρ} {r : ρ} :
    r ∈ (t.update condition assign).rows ↔ ∃ r' ∈ t.rows, updated condition assign r' = r := by
  simp [update]

@[simp] theorem mem_delete {t : Table ρ} {condition : ρ → Bool} {r : ρ} :
    r ∈ (t.delete condition).rows ↔ r ∈ t.rows ∧ condition r = false := by
  simp [delete]

theorem lt_nextKey {t : Table ρ} {r : ρ} (h : r ∈ t.rows) : key r < t.nextKey :=
  Int.lt_add_one_of_le (t.bounded r h)

/-- A key names at most one row. -/
theorem eq_of_key {t : Table ρ} {a b : ρ} (ha : a ∈ t.rows) (hb : b ∈ t.rows)
    (h : key a = key b) : a = b := by
  by_contra hne
  have hOrder : ∀ rows : List ρ, rows.Pairwise (fun a b => key a < key b) →
      a ∈ rows → b ∈ rows → False := by
    intro rows hRows
    induction hRows with
    | nil => simp
    | @cons c rows hc _ ih =>
      intro ha hb
      rcases List.mem_cons.mp ha with rfl | ha' <;> rcases List.mem_cons.mp hb with rfl | hb'
      · exact hne rfl
      · have := hc b hb'
        omega
      · have := hc a ha'
        omega
      · exact ih ha' hb'
  exact hOrder t.rows t.ordered ha hb

theorem mem_of_first {t : Table ρ} {condition : ρ → Bool} {r : ρ}
    (h : t.first condition = some r) : r ∈ t.rows ∧ condition r = true :=
  ⟨List.mem_of_find?_eq_some h, List.find?_some h⟩

theorem first_eq_none {t : Table ρ} {condition : ρ → Bool} :
    t.first condition = none ↔ ∀ r ∈ t.rows, condition r = false := by
  simp [first, List.find?_eq_none]

theorem update_of_none {t : Table ρ} {condition : ρ → Bool} (h : ∀ r ∈ t.rows, condition r = false)
    (assign : ρ → ρ) : t.update condition assign = t := by
  have hRows : t.rows.map (updated condition assign) = t.rows := by
    conv_rhs => rw [← List.map_id t.rows]
    apply List.map_congr_left
    intro r hr
    simp [updated, h r hr]
  cases t
  simp only [update]
  congr

theorem first_key_update (t : Table ρ) (condition : ρ → Bool) (assign : ρ → ρ) (n : Int) :
    (t.update condition assign).first (fun r => key r == n) =
      (t.first (fun r => key r == n)).map (updated condition assign) := by
  have hKeys : (fun r : ρ => key r == n) ∘ updated condition assign = fun r => key r == n := by
    funext r
    simp
  simp only [first, update, List.find?_map, hKeys]

/-- An INSERT does not change what an existing key names. -/
theorem first_key_insert {t : Table ρ} {r : ρ} {n : Int} (h : t.first (fun r => key r == n) = some r)
    (new : ρ) : (t.insert new).first (fun r => key r == n) = some r := by
  simp only [first, insert] at h ⊢
  rw [List.find?_append, h]
  rfl

theorem count_pos {t : Table ρ} {condition : ρ → Bool} :
    0 < t.count condition ↔ ∃ r ∈ t.rows, condition r = true := by
  simp [count, List.countP_pos_iff]

/-- More than one row satisfies the condition, so one of them has another key. -/
theorem exists_other {t : Table ρ} {condition : ρ → Bool} (h : 1 < t.count condition) (n : Int) :
    ∃ r ∈ t.rows, condition r = true ∧ key r ≠ n := by
  unfold count at h
  rw [List.countP_eq_length_filter] at h
  have hOrdered : (t.rows.filter condition).Pairwise (fun a b => key a < key b) :=
    t.ordered.filter condition
  cases hRows : t.rows.filter condition with
  | nil =>
    rw [hRows] at h
    cases h
  | cons a rest =>
    cases rest with
    | nil =>
      rw [hRows] at h
      exact absurd h (Nat.lt_irrefl 1)
    | cons b rest =>
      have ha : a ∈ t.rows.filter condition := by rw [hRows]; exact List.mem_cons_self
      have hb : b ∈ t.rows.filter condition := by
        rw [hRows]
        exact List.mem_cons_of_mem a List.mem_cons_self
      rw [hRows] at hOrdered
      have hLt := List.rel_of_pairwise_cons hOrdered List.mem_cons_self
      rw [List.mem_filter] at ha hb
      by_cases hKey : key a = n
      · exact ⟨b, hb.1, hb.2, by omega⟩
      · exact ⟨a, ha.1, ha.2, hKey⟩

/-- An UPDATE keeps the column that its assignment keeps. -/
theorem map_update {β : Type} (t : Table ρ) (condition : ρ → Bool) {assign : ρ → ρ} {column : ρ → β}
    (hAssign : ∀ r, column (withKey (key r) (assign r)) = column r) :
    (t.update condition assign).rows.map column = t.rows.map column := by
  simp only [update, List.map_map]
  congr 1
  funext r
  simp only [Function.comp_apply, updated]
  split
  · exact hAssign r
  · rfl

/-- An UPDATE keeps the rows with `p` as they are if it touches and makes no such row. -/
theorem filter_update {t : Table ρ} {condition p : ρ → Bool} {assign : ρ → ρ}
    (h : ∀ r ∈ t.rows, condition r = true → p r = false ∧ p (withKey (key r) (assign r)) = false) :
    (t.update condition assign).rows.filter p = t.rows.filter p := by
  have hRows : ∀ rows : List ρ, (∀ r ∈ rows, r ∈ t.rows) →
      (rows.map (updated condition assign)).filter p = rows.filter p := by
    intro rows hMem
    induction rows with
    | nil => rfl
    | cons r rows ih =>
      have hRest := ih (fun r' hr' => hMem r' (List.mem_cons_of_mem r hr'))
      rw [List.map_cons, List.filter_cons, List.filter_cons, hRest]
      cases hCondition : condition r with
      | true =>
        obtain ⟨hOld, hNew⟩ := h r (hMem r List.mem_cons_self) hCondition
        simp [updated, hCondition, hOld, hNew]
      | false => simp [updated, hCondition]
  exact hRows t.rows (fun _ hr => hr)

theorem filter_insert {t : Table ρ} {p : ρ → Bool} {r : ρ} (h : p (withKey t.nextKey r) = false) :
    (t.insert r).rows.filter p = t.rows.filter p := by
  simp [insert, List.filter_append, h]

/-- Looking a row up by a condition that only its key satisfies. -/
theorem first_of_unique {t : Table ρ} {condition : ρ → Bool} {r : ρ} (hr : r ∈ t.rows)
    (hCondition : condition r = true) (hUnique : ∀ r' ∈ t.rows, condition r' = true → key r' = key r) :
    t.first condition = some r := by
  cases h : t.first condition with
  | none =>
    have hFalse := first_eq_none.mp h r hr
    rw [hCondition] at hFalse
    cases hFalse
  | some r' =>
    obtain ⟨hr', hTrue⟩ := mem_of_first h
    rw [eq_of_key hr' hr (hUnique r' hr' hTrue)]

end Table

end Relational

import SecureCore.Relational.Table

/-! # Rows that go by several names

A row has a list of names, and no name belongs to two rows. Then a name finds at most
one row, and inserting a row with names of its own leaves every lookup as it was. -/

namespace Relational

set_option autoImplicit false

open Keyed

namespace Table

variable {ρ κ : Type} [Keyed ρ] {names : ρ → List κ} {t : Table ρ}

def Named (names : ρ → List κ) (t : Table ρ) : Prop :=
  ∀ a ∈ t.rows, ∀ b ∈ t.rows, ∀ name ∈ names a, name ∈ names b → a = b

theorem named_of_rows_eq_nil (h : t.rows = []) : t.Named names := by
  intro a ha
  rw [h] at ha
  cases ha

theorem Named.insert (h : t.Named names) {r : ρ}
    (hNew : ∀ a ∈ t.rows, ∀ name ∈ names a, name ∉ names (withKey t.nextKey r)) :
    (t.insert r).Named names := by
  intro a ha b hb name hA hB
  rcases mem_insert.mp ha with ha | rfl <;> rcases mem_insert.mp hb with hb | rfl
  · exact h a ha b hb name hA hB
  · exact absurd hB (hNew a ha name hA)
  · exact absurd hA (hNew b hb name hB)
  · rfl

variable [BEq κ] [LawfulBEq κ]

def byName (names : ρ → List κ) (t : Table ρ) (name : κ) : Option ρ :=
  t.first (fun r => (names r).contains name)

theorem Named.byName_eq (h : t.Named names) {r : ρ} (hr : r ∈ t.rows) {name : κ} (hName : name ∈ names r) :
    t.byName names name = some r := by
  rw [byName]
  refine first_of_unique hr ?_ ?_
  · rw [List.contains_iff_mem]
    exact hName
  · intro r' hr' hName'
    rw [h r' hr' r hr name (List.contains_iff_mem.mp hName') hName]

end Table

end Relational

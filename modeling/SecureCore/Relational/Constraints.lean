import SecureCore.Relational.Table

/-! # Constraints of a schema

UNIQUE columns, foreign keys onto the integer key of another table, and what INSERT,
UPDATE and DELETE have to check for them. -/

namespace Relational

set_option autoImplicit false

open Keyed

section unique

variable {ρ κ : Type} [Keyed ρ] {column : ρ → κ} {t : Table ρ}

/-- UNIQUE: two rows differ in the column. -/
def Table.Unique (t : Table ρ) (column : ρ → κ) : Prop :=
  ∀ a ∈ t.rows, ∀ b ∈ t.rows, column a = column b → a = b

namespace Table.Unique

theorem insert (h : t.Unique column) {r : ρ} (hNew : ∀ a ∈ t.rows, column a ≠ column (withKey t.nextKey r)) :
    (t.insert r).Unique column := by
  intro a ha b hb hSame
  rcases mem_insert.mp ha with ha | rfl <;> rcases mem_insert.mp hb with hb | rfl
  · exact h a ha b hb hSame
  · exact absurd hSame (hNew a ha)
  · exact absurd hSame.symm (hNew b hb)
  · rfl

theorem update (h : t.Unique column) {condition : ρ → Bool} {assign : ρ → ρ}
    (hAssign : ∀ r, column (withKey (key r) (assign r)) = column r) :
    (t.update condition assign).Unique column := by
  have hColumn : ∀ r, column (updated condition assign r) = column r := by
    intro r
    unfold updated
    split
    · exact hAssign r
    · rfl
  intro a ha b hb hSame
  obtain ⟨a', ha', rfl⟩ := mem_update.mp ha
  obtain ⟨b', hb', rfl⟩ := mem_update.mp hb
  rw [hColumn, hColumn] at hSame
  rw [h a' ha' b' hb' hSame]

theorem delete (h : t.Unique column) (condition : ρ → Bool) : (t.delete condition).Unique column :=
  fun a ha b hb => h a (mem_delete.mp ha).1 b (mem_delete.mp hb).1

end Table.Unique

end unique

section references

variable {α ρ ρ' : Type} [Keyed ρ] [Keyed ρ'] {rows rows' : List α} {column : α → Option Int}
  {t t' : Table ρ}

/-- FOREIGN KEY: what is not NULL in the column is the key of a row. -/
def References (rows : List α) (column : α → Option Int) (t : Table ρ) : Prop :=
  ∀ r ∈ rows, ∀ n, column r = some n → ∃ referenced ∈ t.rows, key referenced = n

/-- No key of the table gets lost. -/
def Table.KeysWithin (t t' : Table ρ) : Prop := ∀ r ∈ t.rows, ∃ r' ∈ t'.rows, key r' = key r

namespace Table.KeysWithin

theorem refl (t : Table ρ) : t.KeysWithin t := fun r hr => ⟨r, hr, rfl⟩

theorem trans {t'' : Table ρ} (h : t.KeysWithin t') (h' : t'.KeysWithin t'') : t.KeysWithin t'' := by
  intro r hr
  obtain ⟨r', hr', hKey⟩ := h r hr
  obtain ⟨r'', hr'', hKey'⟩ := h' r' hr'
  exact ⟨r'', hr'', hKey'.trans hKey⟩

theorem insert (t : Table ρ) (r : ρ) : t.KeysWithin (t.insert r) :=
  fun r' hr' => ⟨r', mem_insert.mpr (.inl hr'), rfl⟩

theorem update (t : Table ρ) (condition : ρ → Bool) (assign : ρ → ρ) :
    t.KeysWithin (t.update condition assign) :=
  fun r hr => ⟨updated condition assign r, mem_update.mpr ⟨r, hr, rfl⟩, key_updated _ _ r⟩

end Table.KeysWithin

namespace References

theorem nil (column : α → Option Int) (t : Table ρ) : References [] column t := by
  intro r hr
  cases hr

theorem within (h : References rows column t) (hKeys : t.KeysWithin t') : References rows column t' := by
  intro r hr n hColumn
  obtain ⟨referenced, hReferenced, rfl⟩ := h r hr n hColumn
  exact hKeys referenced hReferenced

theorem of_rows (h : References rows column t)
    (hRows : ∀ r' ∈ rows', ∃ r ∈ rows, column r' = column r) : References rows' column t := by
  intro r' hr' n hColumn
  obtain ⟨r, hr, hSame⟩ := hRows r' hr'
  exact h r hr n (hSame ▸ hColumn)

theorem subset (h : References rows column t) (hRows : rows' ⊆ rows) : References rows' column t :=
  h.of_rows (fun r' hr' => ⟨r', hRows hr', rfl⟩)

theorem append (h : References rows column t) (h' : References rows' column t) :
    References (rows ++ rows') column t := by
  intro r hr
  rcases List.mem_append.mp hr with hr | hr
  · exact h r hr
  · exact h' r hr

end References

theorem references_singleton {r : α} (h : ∀ n, column r = some n → ∃ referenced ∈ t.rows, key referenced = n) :
    References [r] column t := by
  intro r' hr'
  rw [List.mem_singleton.mp hr']
  exact h

end references

end Relational

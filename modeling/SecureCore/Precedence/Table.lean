import Mathlib.Data.List.Sort

/-! # Tables in order of precedence

The entries of a table have a rank and a seniority. The higher rank comes first, and among
equal ranks the senior entry. A table that is kept in this order answers a search with the
match that precedes all others. -/

namespace Precedence

set_option autoImplicit false

variable {α ρ σ : Type} [LinearOrder ρ] [Preorder σ]

section order

variable {rank : α → ρ} {since : α → σ}

def Precedes (rank : α → ρ) (since : α → σ) (a b : α) : Prop :=
  rank b < rank a ∨ rank a = rank b ∧ since a < since b

theorem Precedes.irrefl (a : α) : ¬Precedes rank since a a := by
  rintro (hRank | ⟨-, hSince⟩)
  · exact lt_irrefl _ hRank
  · exact lt_irrefl _ hSince

theorem Precedes.trans {a b c : α} (h : Precedes rank since a b) (h' : Precedes rank since b c) :
    Precedes rank since a c := by
  rcases h with hRank | ⟨hRank, hSince⟩
  · rcases h' with hRank' | ⟨hRank', -⟩
    · exact .inl (hRank'.trans hRank)
    · exact .inl (hRank' ▸ hRank)
  · rcases h' with hRank' | ⟨hRank', hSince'⟩
    · exact .inl (hRank ▸ hRank')
    · exact .inr ⟨hRank.trans hRank', hSince.trans hSince'⟩

theorem Precedes.asymm {a b : α} (h : Precedes rank since a b) : ¬Precedes rank since b a :=
  fun h' => irrefl a (h.trans h')

/-! ## Sorting -/

/-- A stable sort by rank. -/
def sort (rank : α → ρ) (table : List α) : List α :=
  table.insertionSort (fun a b => rank b ≤ rank a)

theorem mem_sort {table : List α} {a : α} : a ∈ sort rank table ↔ a ∈ table :=
  List.mem_insertionSort _

theorem pairwise_orderedInsert {table : List α} {a : α} (h : table.Pairwise (Precedes rank since))
    (hSince : ∀ b ∈ table, rank a = rank b → since a < since b) :
    (table.orderedInsert (fun a b => rank b ≤ rank a) a).Pairwise (Precedes rank since) := by
  induction table with
  | nil => exact List.pairwise_singleton _ _
  | cons b table ih =>
    rw [List.pairwise_cons] at h
    rw [List.orderedInsert_cons]
    split
    · rename_i hRank
      have hFirst : Precedes rank since a b := by
        rcases hRank.lt_or_eq with hLess | hEqual
        · exact .inl hLess
        · exact .inr ⟨hEqual.symm, hSince b List.mem_cons_self hEqual.symm⟩
      rw [List.pairwise_cons, List.pairwise_cons]
      refine ⟨?_, h⟩
      intro c hc
      rcases List.mem_cons.mp hc with rfl | hc
      · exact hFirst
      · exact hFirst.trans (h.1 c hc)
    · rename_i hRank
      rw [List.pairwise_cons]
      constructor
      · intro c hc
        rw [List.mem_orderedInsert] at hc
        rcases hc with rfl | hc
        · exact .inl (lt_of_not_ge hRank)
        · exact h.1 c hc
      · exact ih h.2 (fun c hc => hSince c (List.mem_cons_of_mem b hc))

/-- Entries of one rank that stand in order of seniority are put in order of precedence. -/
theorem pairwise_sort {table : List α}
    (h : table.Pairwise (fun a b => rank a = rank b → since a < since b)) :
    (sort rank table).Pairwise (Precedes rank since) := by
  induction table with
  | nil => exact List.Pairwise.nil
  | cons a table ih =>
    rw [List.pairwise_cons] at h
    unfold sort
    rw [List.insertionSort_cons]
    apply pairwise_orderedInsert (ih h.2)
    intro b hb
    exact h.1 b (mem_sort.mp hb)

/-- A new entry, the junior of all others. -/
theorem pairwise_sort_concat {table : List α} {a : α} (h : table.Pairwise (Precedes rank since))
    (hJunior : ∀ b ∈ table, since b < since a) :
    (sort rank (table ++ [a])).Pairwise (Precedes rank since) := by
  apply pairwise_sort
  rw [List.pairwise_append]
  refine ⟨?_, List.pairwise_singleton _ _, ?_⟩
  · apply h.imp
    intro b c hBefore hRank
    rcases hBefore with hLess | ⟨-, hSince⟩
    · exact absurd hRank hLess.ne'
    · exact hSince
  · intro b hb c hc _
    rw [List.mem_singleton.mp hc]
    exact hJunior b hb

/-! ## Searching -/

/-- The match that precedes all others. -/
def IsFirst (rank : α → ρ) (since : α → σ) (p : α → Prop) (a : α) : Prop :=
  p a ∧ ∀ b, p b → b = a ∨ Precedes rank since a b

theorem IsFirst.unique {p : α → Prop} {a b : α} (ha : IsFirst rank since p a)
    (hb : IsFirst rank since p b) : a = b := by
  rcases ha.2 b hb.1 with hSame | hBefore
  · exact hSame.symm
  · rcases hb.2 a ha.1 with hSame | hAfter
    · exact hSame
    · exact absurd hAfter hBefore.asymm

theorem isFirst_append {before after : List α} {p : α → Prop} {a : α}
    (h : (before ++ a :: after).Pairwise (Precedes rank since)) (hBefore : ∀ b ∈ before, ¬p b)
    (ha : p a) : IsFirst rank since (fun b => b ∈ before ++ a :: after ∧ p b) a := by
  refine ⟨⟨List.mem_append_right _ List.mem_cons_self, ha⟩, ?_⟩
  rintro b ⟨hb, hMatches⟩
  rcases List.mem_append.mp hb with hb | hb
  · exact absurd hMatches (hBefore b hb)
  · rcases List.mem_cons.mp hb with hSame | hb
    · exact .inl hSame
    · exact .inr ((List.pairwise_cons.mp (List.pairwise_append.mp h).2.1).1 b hb)

end order

end Precedence

import Mathlib.Data.Finset.Card

/-! # Maps of bounded size

A visit of a key may put it into the map. Where the map is full and the key is new, one
other key is evicted for it, whichever that is, so the map never outgrows its capacity. -/

namespace Bounded

set_option autoImplicit false

/-- What a map holds, whatever the order of its entries. -/
structure Contents (κ ν : Type) where
  find : κ → Option ν
  keys : Finset κ
  mem_keys : ∀ k, k ∈ keys ↔ (find k).isSome = true

variable {κ ν : Type} {before kept after : Contents κ ν}

namespace Contents

def size (contents : Contents κ ν) : Nat := contents.keys.card

theorem not_mem_keys {contents : Contents κ ν} {k : κ} : k ∉ contents.keys ↔ contents.find k = none := by
  rw [contents.mem_keys, Bool.not_eq_true, Option.isSome_eq_false_iff, Option.isNone_iff_eq_none]

end Contents

/-- Entries may be gone, and the others are as they were. -/
def Drops (before after : Contents κ ν) : Prop :=
  ∀ k, after.find k = before.find k ∨ after.find k = none

theorem Drops.refl (contents : Contents κ ν) : Drops contents contents := fun _ => .inl rfl

theorem Drops.subset (h : Drops before after) : after.keys ⊆ before.keys := by
  intro k hk
  rw [Contents.mem_keys] at hk ⊢
  rcases h k with hSame | hGone
  · rw [← hSame]
    exact hk
  · rw [hGone] at hk
    cases hk

theorem Drops.size_le (h : Drops before after) : after.size ≤ before.size :=
  Finset.card_le_card h.subset

variable [DecidableEq κ]

/-- What a visit of a key makes of a map. -/
structure Visit (capacity : Nat) (key : κ) (evicted : Option κ) (before after : Contents κ ν) : Prop where
  others : ∀ k, k ≠ key → after.find k = if evicted = some k then none else before.find k
  forced : ∀ victim, evicted = some victim →
    victim ≠ key ∧ victim ∈ before.keys ∧ key ∉ before.keys ∧ capacity ≤ before.size
  room : evicted = none → key ∈ before.keys ∨ before.size < capacity ∨ key ∉ after.keys

namespace Visit

variable {capacity : Nat} {key : κ} {evicted : Option κ}

theorem subset (h : Visit capacity key evicted before after) :
    after.keys ⊆ insert key (before.keys.filter (fun k => evicted ≠ some k)) := by
  intro k hk
  rw [Finset.mem_insert, Finset.mem_filter]
  by_cases hKey : k = key
  · exact .inl hKey
  · right
    rw [Contents.mem_keys, h.others k hKey] at hk
    split at hk
    · cases hk
    · rename_i hOther
      exact ⟨(before.mem_keys k).mpr hk, hOther⟩

/-- The bound is kept. -/
theorem size_le (h : Visit capacity key evicted before after) (hBefore : before.size ≤ capacity) :
    after.size ≤ capacity := by
  have hSubset := Finset.card_le_card h.subset
  have hInsert := Finset.card_insert_le key (before.keys.filter (fun k => evicted ≠ some k))
  cases hEvicted : evicted with
  | some victim =>
    -- one key goes for the one that comes
    obtain ⟨-, hMem, -, -⟩ := h.forced victim hEvicted
    have hFewer : before.keys.filter (fun k => evicted ≠ some k) ⊆ before.keys.erase victim := by
      intro k hk
      rw [Finset.mem_filter] at hk
      rw [Finset.mem_erase]
      refine ⟨?_, hk.1⟩
      rintro rfl
      exact hk.2 hEvicted
    have hErased := Finset.card_le_card hFewer
    rw [Finset.card_erase_of_mem hMem] at hErased
    have hPositive := Finset.card_pos.mpr ⟨victim, hMem⟩
    simp only [Contents.size] at hBefore ⊢
    omega
  | none =>
    have hAll := Finset.card_filter_le before.keys (fun k => evicted ≠ some k)
    simp only [Contents.size] at hBefore ⊢
    rcases h.room hEvicted with hOld | hFree | hAbsent
    · have hSame : insert key (before.keys.filter (fun k => evicted ≠ some k)) ⊆ before.keys := by
        intro k hk
        rcases Finset.mem_insert.mp hk with rfl | hk
        · exact hOld
        · exact (Finset.mem_filter.mp hk).1
      exact (Finset.card_le_card (h.subset.trans hSame)).trans hBefore
    · simp only [Contents.size] at hFree
      omega
    · have hOthers : after.keys ⊆ before.keys := by
        intro k hk
        rcases Finset.mem_insert.mp (h.subset hk) with rfl | hk
        · exact absurd hk hAbsent
        · exact (Finset.mem_filter.mp hk).1
      exact (Finset.card_le_card hOthers).trans hBefore

/-- A visit that changes nothing but the value of its own key, or takes the key out. -/
theorem of_others (hOthers : ∀ k, k ≠ key → after.find k = before.find k)
    (hKey : key ∈ after.keys → key ∈ before.keys) : Visit capacity key none before after where
  others := hOthers
  forced _ hEvicted := nomatch hEvicted
  room _ := or_iff_not_imp_left.mpr (fun hNew => .inr (fun hMem => hNew (hKey hMem)))

end Visit

/-- Some entries go by themselves, and then a key is visited. -/
def Step (capacity : Nat) (key : κ) (before kept after : Contents κ ν) : Prop :=
  Drops before kept ∧ ∃ evicted, Visit capacity key evicted kept after

theorem Step.size_le {capacity : Nat} {key : κ} (h : Step capacity key before kept after)
    (hBefore : before.size ≤ capacity) : after.size ≤ capacity := by
  obtain ⟨hDrops, evicted, hVisit⟩ := h
  exact hVisit.size_le (hDrops.size_le.trans hBefore)

end Bounded

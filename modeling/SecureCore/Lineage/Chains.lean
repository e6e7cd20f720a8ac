import Mathlib.Data.Set.Insert
import Mathlib.Order.Basic

/-! # Families of succeeding nodes

A store holds nodes, each with an owner, a family, perhaps a parent, and a mark
whether it is live. Roots open families of their own; a live node may be succeeded
by one child, which takes over its family and kills it. Nodes may be killed and
forgotten at any time. In every reachable store each family is one chain. -/

namespace Lineage

set_option autoImplicit false

variable {ι υ φ : Type*}

@[ext] structure Node (ι υ φ : Type*) where
  id : ι
  owner : υ
  family : φ
  parent : Option ι
  live : Prop

namespace Node

/-- The node once everything that satisfies `p` has been killed. -/
def kill (p : Node ι υ φ → Prop) (n : Node ι υ φ) : Node ι υ φ := { n with live := n.live ∧ ¬ p n }

variable (p : Node ι υ φ → Prop) (n : Node ι υ φ)

@[simp] theorem kill_id : (n.kill p).id = n.id := rfl

@[simp] theorem kill_owner : (n.kill p).owner = n.owner := rfl

@[simp] theorem kill_family : (n.kill p).family = n.family := rfl

@[simp] theorem kill_parent : (n.kill p).parent = n.parent := rfl

@[simp] theorem kill_live : (n.kill p).live ↔ n.live ∧ ¬ p n := Iff.rfl

end Node

variable [LinearOrder ι]

/-- What one step makes of a store. -/
inductive Step (S : Set (Node ι υ φ)) : Set (Node ι υ φ) → Prop
  | kill (p : Node ι υ φ → Prop) : Step S (Node.kill p '' S)
  | forget {S' : Set (Node ι υ φ)} (hSubset : S' ⊆ S) : Step S S'
  | opened {n : Node ι υ φ} (hId : ∀ s ∈ S, s.id < n.id) (hParent : n.parent = none)
      (hFamily : ∀ s ∈ S, s.family ≠ n.family) : Step S (insert n S)
  | succeeded {m n : Node ι υ φ} (hMem : m ∈ S) (hLive : m.live) (hId : ∀ s ∈ S, s.id < n.id)
      (hParent : n.parent = some m.id) (hFamily : n.family = m.family) (hOwner : n.owner = m.owner) :
      Step S (insert n (Node.kill (fun s => s.id = m.id) '' S))

/-- Every family is a chain of nodes of one owner, live at its newest node at most. -/
structure Linear (S : Set (Node ι υ φ)) : Prop where
  unique : ∀ s ∈ S, ∀ t ∈ S, s.id = t.id → s = t
  owner : ∀ s ∈ S, ∀ t ∈ S, s.family = t.family → s.owner = t.owner
  older : ∀ s ∈ S, ∀ i, s.parent = some i → i < s.id
  parent : ∀ s ∈ S, ∀ t ∈ S, s.parent = some t.id → t.family = s.family ∧ ¬ t.live
  child : ∀ s ∈ S, ∀ t ∈ S, ∀ i, s.parent = some i → t.parent = some i → s = t
  newest : ∀ s ∈ S, s.live → ∀ t ∈ S, t.family = s.family → t.id ≤ s.id

namespace Linear

variable {S S' : Set (Node ι υ φ)} {n : Node ι υ φ}

theorem forget (h : Linear S) (hSubset : S' ⊆ S) : Linear S' where
  unique s hs t ht := h.unique s (hSubset hs) t (hSubset ht)
  owner s hs t ht := h.owner s (hSubset hs) t (hSubset ht)
  older s hs := h.older s (hSubset hs)
  parent s hs t ht := h.parent s (hSubset hs) t (hSubset ht)
  child s hs t ht := h.child s (hSubset hs) t (hSubset ht)
  newest s hs hLive t ht := h.newest s (hSubset hs) hLive t (hSubset ht)

theorem kill (h : Linear S) (p : Node ι υ φ → Prop) : Linear (Node.kill p '' S) where
  unique := by
    rintro _ ⟨s, hs, rfl⟩ _ ⟨t, ht, rfl⟩ hId
    rw [h.unique s hs t ht hId]
  owner := by
    rintro _ ⟨s, hs, rfl⟩ _ ⟨t, ht, rfl⟩ hFamily
    exact h.owner s hs t ht hFamily
  older := by
    rintro _ ⟨s, hs, rfl⟩ i hParent
    exact h.older s hs i hParent
  parent := by
    rintro _ ⟨s, hs, rfl⟩ _ ⟨t, ht, rfl⟩ hParent
    obtain ⟨hFamily, hDead⟩ := h.parent s hs t ht hParent
    exact ⟨hFamily, fun hLive => hDead hLive.1⟩
  child := by
    rintro _ ⟨s, hs, rfl⟩ _ ⟨t, ht, rfl⟩ i hs' ht'
    rw [h.child s hs t ht i hs' ht']
  newest := by
    rintro _ ⟨s, hs, rfl⟩ hLive _ ⟨t, ht, rfl⟩ hFamily
    exact h.newest s hs hLive.1 t ht hFamily

/-- A newer node may join if its family is dead and nothing else has its parent. -/
theorem insert (h : Linear S) (hId : ∀ s ∈ S, s.id < n.id)
    (hFamily : ∀ s ∈ S, s.family = n.family → s.owner = n.owner ∧ ¬ s.live)
    (hParent : ∀ i, n.parent = some i → i < n.id ∧ (∀ s ∈ S, s.parent ≠ some i) ∧
      ∀ s ∈ S, s.id = i → s.family = n.family) : Linear (insert n S) where
  unique := by
    rintro s (rfl | hs) t (rfl | ht) hEq
    · rfl
    · exact absurd hEq (hId t ht).ne'
    · exact absurd hEq (hId s hs).ne
    · exact h.unique s hs t ht hEq
  owner := by
    rintro s (rfl | hs) t (rfl | ht) hSame
    · rfl
    · exact (hFamily t ht hSame.symm).1.symm
    · exact (hFamily s hs hSame).1
    · exact h.owner s hs t ht hSame
  older := by
    rintro s (rfl | hs) i hi
    · exact (hParent i hi).1
    · exact h.older s hs i hi
  parent := by
    rintro s (rfl | hs) t (rfl | ht) hst
    · exact absurd rfl (hParent _ hst).1.ne
    · have hSame := (hParent _ hst).2.2 t ht rfl
      exact ⟨hSame, (hFamily t ht hSame).2⟩
    · exact absurd ((h.older s hs _ hst).trans (hId s hs)) (lt_irrefl _)
    · exact h.parent s hs t ht hst
  child := by
    rintro s (rfl | hs) t (rfl | ht) i hs' ht'
    · rfl
    · exact absurd ht' ((hParent i hs').2.1 t ht)
    · exact absurd hs' ((hParent i ht').2.1 s hs)
    · exact h.child s hs t ht i hs' ht'
  newest := by
    rintro s (rfl | hs) hLive t (rfl | ht) hSame
    · exact le_refl _
    · exact (hId t ht).le
    · exact absurd hLive (hFamily s hs hSame.symm).2
    · exact h.newest s hs hLive t ht hSame

theorem step (h : Linear S) (hStep : Step S S') : Linear S' := by
  cases hStep with
  | kill p => exact h.kill p
  | forget hSubset => exact h.forget hSubset
  | opened hId hParent hFamily =>
    apply h.insert hId
    · intro s hs hSame
      exact absurd hSame (hFamily s hs)
    · intro i hi
      rw [hParent] at hi
      cases hi
  | @succeeded m n hMem hLive hId hParent hFamily hOwner =>
    apply (h.kill _).insert
    · rintro _ ⟨s, hs, rfl⟩
      exact hId s hs
    · rintro _ ⟨s, hs, rfl⟩ hSame
      have hSame' : s.family = m.family := hSame.trans hFamily
      refine ⟨(h.owner s hs m hMem hSame').trans hOwner.symm, ?_⟩
      rintro ⟨hsLive, hOther⟩
      exact hOther (le_antisymm (h.newest m hMem hLive s hs hSame')
        (h.newest s hs hsLive m hMem hSame'.symm))
    · intro i hi
      have hmi : i = m.id := by
        rw [hParent] at hi
        exact (Option.some.inj hi).symm
      subst hmi
      refine ⟨hId m hMem, ?_, ?_⟩
      · rintro _ ⟨s, hs, rfl⟩ hsm
        exact (h.parent s hs m hMem hsm).2 hLive
      · rintro _ ⟨s, hs, rfl⟩ hsm
        rw [Node.kill_family, h.unique s hs m hMem hsm, hFamily]

/-- At most one node of a family is live. -/
theorem live_unique (h : Linear S) {s t : Node ι υ φ} (hs : s ∈ S) (ht : t ∈ S)
    (hFamily : s.family = t.family) (hsLive : s.live) (htLive : t.live) : s = t :=
  h.unique s hs t ht (le_antisymm (h.newest t ht htLive s hs hFamily)
    (h.newest s hs hsLive t ht hFamily.symm))

end Linear

/-- No node of the family is live. -/
def Dead (f : φ) (S : Set (Node ι υ φ)) : Prop := ∀ s ∈ S, s.family = f → ¬ s.live

/-- A dead family stays dead as long as no root takes its name. -/
theorem Dead.step {f : φ} {S S' : Set (Node ι υ φ)} (h : Dead f S) (hStep : Step S S')
    (hRoot : ∀ n ∈ S', (∀ s ∈ S, s.id ≠ n.id) → n.parent = none → n.family ≠ f) : Dead f S' := by
  cases hStep with
  | kill p =>
    rintro _ ⟨s, hs, rfl⟩ hFamily hLive
    exact h s hs hFamily hLive.1
  | forget hSubset => exact fun s hs => h s (hSubset hs)
  | @opened n hId hParent hFamily =>
    rintro s (rfl | hs) hSame
    · have hNew : ∀ t ∈ S, t.id ≠ s.id := fun t ht => (hId t ht).ne
      exact absurd hSame (hRoot s (Set.mem_insert s S) hNew hParent)
    · exact h s hs hSame
  | @succeeded m n hMem hLive hId hParent hFamily hOwner =>
    rintro s (rfl | ⟨s, hs, rfl⟩) hSame
    · exact absurd hLive (h m hMem (hFamily.symm.trans hSame))
    · exact fun hsLive => h s hs hSame hsLive.1

end Lineage

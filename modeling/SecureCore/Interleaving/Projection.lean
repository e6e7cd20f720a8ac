import SecureCore.Interleaving.Fallible
import SecureCore.Interleaving.Pool

/-! # Processes within a larger system

A process on one component of a state also runs on the whole, between accesses of other
kinds and beside events of other kinds. What the component sees of the history of the whole
is a history again. -/

namespace Interleaving

set_option autoImplicit false

variable {τ ι κ σ υ ε δ ξ α β : Type}

/-- The process on a larger state, whose log has events of other kinds as well. -/
def Process.within (view : υ → σ) (put : σ → υ → υ) (input : κ → ι) (emit : ε → δ) :
    Process ι σ ε α → Process κ υ δ α
  | done a => done a
  | access effect events next => access
      (fun k u => put (effect (input k) (view u)) u)
      (fun k u => (events (input k) (view u)).map emit)
      (fun k u => (next (input k) (view u)).within view put input emit)

/-- An access of the whole as the component sees it, with the events that it knows. -/
def Act.through (view : υ → σ) (heard : δ → Option ε) (act : Act υ δ) : Act σ ε :=
  ⟨view act.before, act.events.filterMap heard, view act.after⟩

def Entry.through (view : υ → σ) (heard : δ → Option ε) (e : Entry τ υ δ) : Entry τ σ ε :=
  ⟨e.toAct.through view heard, e.thread⟩

/-! ## Histories -/

section histories

variable {view : υ → σ} {heard : δ → Option ε}

theorem stateAfter_through (s : υ) (history : List (Entry τ υ δ)) :
    stateAfter (view s) (history.map (Entry.through view heard)) = view (stateAfter s history) := by
  cases history <;> rfl

variable [DecidableEq τ]

theorem own_through (t : τ) (history : List (Entry τ υ δ)) :
    own t (history.map (Entry.through view heard)) = (own t history).map (Act.through view heard) := by
  induction history with
  | nil => rfl
  | cons e older ih =>
    rw [List.map_cons]
    by_cases ht : e.thread = t
    · subst ht
      rw [own_cons_self, List.map_cons, ← ih]
      exact own_cons_self (e.through view heard) _
    · rw [own_cons_of_ne ht, ← ih]
      exact own_cons_of_ne (e := e.through view heard) ht _

/-- What a component sees of an execution is an execution. -/
theorem Execution.through {Φ : τ → List (Act σ ε) → Act σ ε → Prop}
    {Ψ : τ → List (Act υ δ) → Act υ δ → Prop} {s : υ} {history : List (Entry τ υ δ)}
    (h : Execution Ψ s history)
    (hΨ : ∀ t past act, Ψ t past act → Φ t (past.map (Act.through view heard)) (act.through view heard)) :
    Execution Φ (view s) (history.map (Entry.through view heard)) := by
  induction h with
  | nil => exact .nil
  | @cons e older hOlder hBefore hDiscipline ih =>
    refine .cons ih ?_ ?_
    · rw [stateAfter_through, ← hBefore]
      rfl
    · rw [own_through]
      exact hΨ _ _ _ hDiscipline

end histories

/-! ## Processes -/

namespace Process

variable {Φ Ψ : List (Act σ ε) → Act σ ε → Prop}

theorem Along.and {p : Process ι σ ε α} {past : List (Act σ ε)} {post post' : α → List (Act σ ε) → Prop}
    (h : p.Along Φ past post) (h' : p.Along Ψ past post') :
    p.Along (fun past act => Φ past act ∧ Ψ past act) past
      (fun a past => post a past ∧ post' a past) := by
  induction p generalizing past with
  | done a => exact ⟨h, h'⟩
  | access effect events next ih =>
    intro i s
    exact ⟨⟨(h i s).1, (h' i s).1⟩, ih i s (h i s).2 (h' i s).2⟩

/-- A process on a component keeps its discipline within the whole, of which it changes
nothing else. -/
theorem along_within {view : υ → σ} {put : σ → υ → υ} {input : κ → ι} {emit : ε → δ}
    {heard : δ → Option ε} (hView : ∀ s u, view (put s u) = s) (hHeard : ∀ e, heard (emit e) = some e)
    {Ω : List (Act υ δ) → Act υ δ → Prop} {p : Process ι σ ε α} {past : List (Act υ δ)}
    {post : α → List (Act σ ε) → Prop}
    (h : p.Along Φ (past.map (Act.through view heard)) post)
    (hΩ : ∀ past (act : Act υ δ) s (events : List ε), act.after = put s act.before → act.events = events.map emit →
      Φ (past.map (Act.through view heard)) (act.through view heard) → Ω past act) :
    (p.within view put input emit).Along Ω past
      (fun a past' => post a (past'.map (Act.through view heard))) := by
  induction p generalizing past with
  | done a => exact h
  | access effect events next ih =>
    intro k u
    obtain ⟨hAct, hNext⟩ := h (input k) (view u)
    have hSeen : (⟨u, (events (input k) (view u)).map emit, put (effect (input k) (view u)) u⟩ :
        Act υ δ).through view heard =
          ⟨view u, events (input k) (view u), effect (input k) (view u)⟩ := by
      have hKnown : ((events (input k) (view u)).map emit).filterMap heard = events (input k) (view u) := by
        rw [List.filterMap_map]
        exact (List.filterMap_congr (fun e _ => hHeard e)).trans List.filterMap_some
      unfold Act.through
      simp only
      rw [hView, hKnown]
    refine ⟨hΩ _ _ _ _ rfl rfl (by rw [hSeen]; exact hAct), ih (input k) (view u) ?_⟩
    rw [List.map_cons, hSeen]
    exact hNext

end Process

namespace Fallible

variable {Φ Ψ : List (Act σ ε) → Act σ ε → Prop} {past : List (Act σ ε)}

theorem Leads.and {x : Fallible ι σ ε ξ α} {K L : α → List (Act σ ε) → Prop}
    {Y Z : ξ → List (Act σ ε) → Prop} (h : Leads Φ x past K Y) (h' : Leads Ψ x past L Z) :
    Leads (fun past act => Φ past act ∧ Ψ past act) x past
      (fun a past => K a past ∧ L a past) (fun e past => Y e past ∧ Z e past) := by
  have hBoth := Process.Along.and (along_of_leads h) (along_of_leads h')
  unfold Leads
  refine hBoth.mono (fun _ _ h => h) ?_
  intro r past' hr
  cases r with
  | ok a => exact hr
  | error e => exact hr

end Fallible

end Interleaving

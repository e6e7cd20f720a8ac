import SecureCore.Interleaving.Reliance

/-! # Processes that cannot be told apart

Two processes are twins under a relation of states if, fed the same inputs and met by related
states, they make the same number of accesses, let an observer see the same of what each logs,
leave related states and return related results. Where the relation is equality of what the
observer sees of a state, the rest of the state stays hidden from the observer. -/

namespace Interleaving

set_option autoImplicit false

namespace Process

variable {ι σ ε ο α β γ δ : Type} {R : σ → σ → Prop} {see : ε → ο} {Q : α → β → Prop}

/-- No assumption is made about the states between two accesses, except that they are related. -/
inductive Twins (R : σ → σ → Prop) (see : ε → ο) (Q : α → β → Prop) :
    Process ι σ ε α → Process ι σ ε β → Prop where
  | done {a : α} {b : β} (h : Q a b) : Twins R see Q (.done a) (.done b)
  | access {effect effect' : ι → σ → σ} {events events' : ι → σ → List ε}
      {next : ι → σ → Process ι σ ε α} {next' : ι → σ → Process ι σ ε β}
      (hLeft : ∀ i s t, R s t → R (effect i s) (effect' i t))
      (hSeen : ∀ i s t, R s t → (events i s).map see = (events' i t).map see)
      (hNext : ∀ i s t, R s t → Twins R see Q (next i s) (next' i t)) :
      Twins R see Q (.access effect events next) (.access effect' events' next')

theorem Twins.mono {p : Process ι σ ε α} {q : Process ι σ ε β} {Q' : α → β → Prop}
    (h : p.Twins R see Q q) (hQ : ∀ a b, Q a b → Q' a b) : p.Twins R see Q' q := by
  induction h with
  | done h => exact .done (hQ _ _ h)
  | access hLeft hSeen _ ih => exact .access hLeft hSeen ih

theorem twins_bind {p : Process ι σ ε α} {q : Process ι σ ε β} {f : α → Process ι σ ε γ}
    {g : β → Process ι σ ε δ} {P : γ → δ → Prop} (h : p.Twins R see Q q)
    (hRest : ∀ a b, Q a b → (f a).Twins R see P (g b)) : (p >>= f).Twins R see P (q >>= g) := by
  induction h with
  | done h => exact hRest _ _ h
  | access hLeft hSeen _ ih => exact .access hLeft hSeen ih

/-- The results, among whatever other processes the twins run. -/
theorem Twins.meeting {p : Process ι σ ε α} {q : Process ι σ ε β} (h : p.Twins R see Q q)
    {inputs : Nat → ι} {states states' : Nat → σ} (hStates : ∀ n, R (states n) (states' n)) :
    Q (p.meeting inputs states) (q.meeting inputs states') := by
  induction h generalizing inputs states states' with
  | done h => exact h
  | access _ _ _ ih => exact ih (inputs 0) _ _ (hStates 0) (fun n => hStates (n + 1))

/-- What each access of a call that meets these states leaves and logs, in order. -/
def trail : Process ι σ ε α → (Nat → ι) → (Nat → σ) → List (σ × List ε)
  | done _, _, _ => []
  | access effect events next, inputs, states =>
    (effect (inputs 0) (states 0), events (inputs 0) (states 0)) ::
      (next (inputs 0) (states 0)).trail (fun n => inputs (n + 1)) (fun n => states (n + 1))

/-- The accesses, among whatever other processes the twins run. -/
theorem Twins.trail {p : Process ι σ ε α} {q : Process ι σ ε β} (h : p.Twins R see Q q)
    {inputs : Nat → ι} {states states' : Nat → σ} (hStates : ∀ n, R (states n) (states' n)) :
    List.Forall₂ (fun left right => R left.1 right.1 ∧ left.2.map see = right.2.map see)
      (p.trail inputs states) (q.trail inputs states') := by
  induction h generalizing inputs states states' with
  | done _ => exact .nil
  | access hLeft hSeen _ ih =>
    refine .cons ⟨hLeft _ _ _ (hStates 0), hSeen _ _ _ (hStates 0)⟩ ?_
    exact ih (inputs 0) _ _ (hStates 0) (fun n => hStates (n + 1))

/-- Twins that run alone. -/
theorem Twins.run {p : Process ι σ ε α} {q : Process ι σ ε β} (h : p.Twins R see Q q)
    (inputs : Nat → ι) {s t : σ} (hST : R s t) :
    Q (p.run inputs s).result (q.run inputs t).result ∧
      R (p.run inputs s).state (q.run inputs t).state ∧
      (p.run inputs s).events.map see = (q.run inputs t).events.map see ∧
      (p.run inputs s).used = (q.run inputs t).used := by
  induction h generalizing inputs s t with
  | done h => exact ⟨h, hST, rfl, rfl⟩
  | access hLeft hSeen _ ih =>
    obtain ⟨hResult, hState, hEvents, hUsed⟩ :=
      ih (inputs 0) s t hST (fun n => inputs (n + 1)) (hLeft (inputs 0) s t hST)
    refine ⟨hResult, hState, ?_, ?_⟩
    · simp only [Process.run, List.map_append, hSeen _ _ _ hST, hEvents]
    · simp only [Process.run, hUsed]

/-- Calls made one after another, each result kept. -/
def series (calls : List (Process ι σ ε α)) : Process ι σ ε (List α) :=
  match calls with
  | [] => done []
  | call :: rest => do
    let result ← call
    let results ← series rest
    pure (result :: results)

theorem twins_series {κ : Type} {call call' : κ → Process ι σ ε α} {items : List κ}
    (h : ∀ item ∈ items, (call item).Twins R see (fun a b => a = b) (call' item)) :
    (series (items.map call)).Twins R see (fun a b => a = b) (series (items.map call')) := by
  induction items with
  | nil => exact .done rfl
  | cons item items ih =>
    apply twins_bind (h item List.mem_cons_self)
    rintro a b rfl
    apply twins_bind (ih (fun other hOther => h other (List.mem_cons_of_mem _ hOther)))
    rintro as bs rfl
    exact .done rfl

end Process

namespace Fallible

variable {ι σ ε ξ ο α β γ δ : Type} {R : σ → σ → Prop} {see : ε → ο} {K : α → β → Prop}

/-- Both calls have returned, with values that `K` relates, or both have thrown the same. -/
def Alike (K : α → β → Prop) : Except ξ α → Except ξ β → Prop
  | .ok a, .ok b => K a b
  | .error e, .error e' => e = e'
  | .ok _, .error _ => False
  | .error _, .ok _ => False

theorem Alike.eq {r r' : Except ξ α} (h : Alike (fun a b => a = b) r r') : r = r' := by
  cases r with
  | ok a =>
    cases r' with
    | ok b => exact congrArg Except.ok h
    | error e => exact h.elim
  | error e =>
    cases r' with
    | ok b => exact h.elim
    | error e' => exact congrArg Except.error h

def Twins (R : σ → σ → Prop) (see : ε → ο) (K : α → β → Prop) (x : Fallible ι σ ε ξ α)
    (y : Fallible ι σ ε ξ β) : Prop :=
  Process.Twins R see (Alike K) x.run y.run

theorem Twins.process {x y : Fallible ι σ ε ξ α} (h : Twins R see (fun a b => a = b) x y) :
    Process.Twins R see (fun r r' => r = r') x.run y.run :=
  Process.Twins.mono h (fun _ _ hAlike => hAlike.eq)

theorem twins_pure {a : α} {b : β} (h : K a b) :
    Twins R see K (pure a : Fallible ι σ ε ξ α) (pure b) := .done h

theorem twins_throw (e : ξ) :
    Twins R see K (throw e : Fallible ι σ ε ξ α) (throw e : Fallible ι σ ε ξ β) := .done rfl

theorem twins_bind {x : Fallible ι σ ε ξ α} {y : Fallible ι σ ε ξ β}
    {f : α → Fallible ι σ ε ξ γ} {g : β → Fallible ι σ ε ξ δ} {L : γ → δ → Prop}
    (hx : Twins R see K x y) (hf : ∀ a b, K a b → Twins R see L (f a) (g b)) :
    Twins R see L (x >>= f) (y >>= g) := by
  change Process.Twins R see (Alike L) (x.run >>= _) (y.run >>= _)
  apply Process.twins_bind hx
  intro r r' hAlike
  cases r with
  | ok a =>
    cases r' with
    | ok b => exact hf a b hAlike
    | error e => exact hAlike.elim
  | error e =>
    cases r' with
    | ok b => exact hAlike.elim
    | error e' => exact .done hAlike

theorem twins_throwIf (condition : Bool) (e : ξ) :
    Twins R see (fun _ _ => True) (throwIf condition e : Fallible ι σ ε ξ Unit) (throwIf condition e) := by
  cases condition with
  | true => exact twins_throw e
  | false => exact twins_pure trivial

theorem twins_atomic {body : ι → σ → Reply ξ σ ε α} {body' : ι → σ → Reply ξ σ ε β}
    (h : ∀ i s t, R s t → R (body i s).state (body' i t).state ∧
      (body i s).events.map see = (body' i t).events.map see ∧
      Alike K (body i s).result (body' i t).result) :
    Twins R see K (atomic body) (atomic body') :=
  .access (fun i s t hST => (h i s t hST).1) (fun i s t hST => (h i s t hST).2.1)
    (fun i s t hST => .done (h i s t hST).2.2)

end Fallible

end Interleaving

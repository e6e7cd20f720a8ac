import SecureCore.Interleaving.Fallible

/-! # Calls that rely on their surroundings

Before each access of a call the surroundings may move the shared state, and they choose the
input of the access. `Given rely` follows a call under what it relies on: a call that runs
alone relies on an unmoved state, one among others on an invariant. -/

namespace Interleaving

set_option autoImplicit false

/-- What the surroundings of a call promise. -/
structure Rely (ι σ : Type) where
  inputs : ι → Prop
  moves : σ → σ → Prop

namespace Process

variable {ι κ σ τ ε α β : Type} {rely : Rely ι σ}

/-- The result of a call whose accesses meet these states, whatever has happened to the
state between two of them. -/
def meeting : Process ι σ ε α → (Nat → ι) → (Nat → σ) → α
  | done a, _, _ => a
  | access _ _ next, inputs, states =>
    (next (inputs 0) (states 0)).meeting (fun n => inputs (n + 1)) (fun n => states (n + 1))

/-- What a call does behind its last access is done to its result. -/
theorem meeting_bind_pure (p : Process ι σ ε α) (f : α → β) (inputs : Nat → ι) (states : Nat → σ) :
    (p >>= fun a => pure (f a)).meeting inputs states = f (p.meeting inputs states) := by
  induction p generalizing inputs states with
  | done a => rfl
  | access effect events next ih => exact ih _ _ _ _

/-- Under `rely` the call, which has left the state `s`, returns a result and leaves a
state that satisfy `Q`. -/
def Given (rely : Rely ι σ) : Process ι σ ε α → σ → (α → σ → Prop) → Prop
  | done a, s, Q => Q a s
  | access effect _ next, s, Q => ∀ i s', rely.inputs i → rely.moves s s' →
    (next i s').Given rely (effect i s') Q

theorem Given.mono {p : Process ι σ ε α} {s : σ} {Q R : α → σ → Prop} (h : p.Given rely s Q)
    (hQR : ∀ a s', Q a s' → R a s') : p.Given rely s R := by
  induction p generalizing s with
  | done a => exact hQR a s h
  | access effect events next ih =>
    intro i s' hInput hMove
    exact ih i s' (h i s' hInput hMove)

theorem given_bind (p : Process ι σ ε α) (f : α → Process ι σ ε β) (s : σ) (Q : β → σ → Prop) :
    (p >>= f).Given rely s Q ↔ p.Given rely s (fun a s' => (f a).Given rely s' Q) := by
  induction p generalizing s with
  | done a => rfl
  | access effect events next ih =>
    simp only [access_bind, Given, ih]

/-- A call that runs alone meets the states that it leaves. -/
theorem Given.run {p : Process ι σ ε α} {s : σ} {Q : α → σ → Prop} (h : p.Given rely s Q)
    {inputs : Nat → ι} (hInputs : ∀ n, rely.inputs (inputs n)) (hStay : ∀ s, rely.moves s s) :
    Q (p.run inputs s).result (p.run inputs s).state := by
  induction p generalizing s inputs with
  | done a => exact h
  | access effect events next ih =>
    exact ih (inputs 0) s (h (inputs 0) s (hInputs 0) (hStay s)) (fun n => hInputs (n + 1))

theorem Given.meeting {p : Process ι σ ε α} {s : σ} {Q : α → Prop}
    (h : p.Given rely s (fun a _ => Q a)) {inputs : Nat → ι} {states : Nat → σ}
    (hInputs : ∀ n, rely.inputs (inputs n)) (hStates : ∀ s n, rely.moves s (states n)) :
    Q (p.meeting inputs states) := by
  induction p generalizing s inputs states with
  | done a => exact h
  | access effect events next ih =>
    exact ih (inputs 0) (states 0) (h (inputs 0) (states 0) (hInputs 0) (hStates s 0))
      (fun n => hInputs (n + 1)) (fun s n => hStates s (n + 1))

end Process

namespace Fallible

variable {ι κ σ τ ε ξ α β : Type} {rely : Rely ι σ} {s : σ}
variable {K : α → σ → Prop} {Z : ξ → σ → Prop}

/-- The call has returned as `K` says or thrown as `Z` says. -/
def Ends (K : α → σ → Prop) (Z : ξ → σ → Prop) : Except ξ α → σ → Prop
  | .ok a, s => K a s
  | .error e, s => Z e s

theorem Ends.mono {r : Except ξ α} {L : α → σ → Prop} {Y : ξ → σ → Prop} (h : Ends K Z r s)
    (hKL : ∀ a, K a s → L a s) (hZY : ∀ e, Z e s → Y e s) : Ends L Y r s := by
  cases r with
  | ok a => exact hKL a h
  | error e => exact hZY e h

/-- What is said of the result only holds whatever the state. -/
theorem Ends.result {r : Except ξ α} {P : α → Prop} {Y : ξ → Prop}
    (h : Ends (fun a _ => P a) (fun e _ => Y e) r s) (s' : σ) :
    Ends (fun a _ => P a) (fun e _ => Y e) r s' := by
  cases r with
  | ok a => exact h
  | error e => exact h

def Given (rely : Rely ι σ) (x : Fallible ι σ ε ξ α) (s : σ) (K : α → σ → Prop)
    (Z : ξ → σ → Prop) : Prop :=
  Process.Given rely x.run s (Ends K Z)

theorem given_pure {a : α} (h : K a s) : Given rely (pure a : Fallible ι σ ε ξ α) s K Z := h

theorem given_throw {e : ξ} (h : Z e s) : Given rely (throw e : Fallible ι σ ε ξ α) s K Z := h

theorem Given.mono {x : Fallible ι σ ε ξ α} {L : α → σ → Prop} {Y : ξ → σ → Prop}
    (h : Given rely x s K Z) (hKL : ∀ a s', K a s' → L a s') (hZY : ∀ e s', Z e s' → Y e s') :
    Given rely x s L Y :=
  Process.Given.mono h (fun _ s' hEnds => hEnds.mono (fun a => hKL a s') (fun e => hZY e s'))

theorem given_bind {x : Fallible ι σ ε ξ α} {f : α → Fallible ι σ ε ξ β} {L : β → σ → Prop}
    (h : Given rely x s (fun a s' => Given rely (f a) s' L Z) Z) : Given rely (x >>= f) s L Z := by
  change Process.Given rely (x.run >>= _) s _
  rw [Process.given_bind]
  refine Process.Given.mono h ?_
  intro r s' hr
  cases r with
  | ok a => exact hr
  | error e => exact hr

theorem given_then {x : Fallible ι σ ε ξ α} {f : α → Fallible ι σ ε ξ β} {L : β → σ → Prop}
    (hx : Given rely x s K Z) (hf : ∀ a s', K a s' → Given rely (f a) s' L Z) :
    Given rely (x >>= f) s L Z :=
  given_bind (hx.mono hf (fun _ _ hZ => hZ))

theorem given_tryCatch {x : Fallible ι σ ε ξ α} {handler : ξ → Fallible ι σ ε ξ α}
    (h : Given rely x s K (fun e s' => Given rely (handler e) s' K Z)) :
    Given rely (tryCatch x handler) s K Z := by
  change Process.Given rely (x.run >>= _) s _
  rw [Process.given_bind]
  refine Process.Given.mono h ?_
  intro r s' hr
  cases r with
  | ok a => exact hr
  | error e => exact hr

theorem given_throwIf {condition : Bool} {e : ξ} {L : Unit → σ → Prop}
    (hThrow : condition = true → Z e s) (hGo : condition = false → L () s) :
    Given rely (throwIf condition e : Fallible ι σ ε ξ Unit) s L Z := by
  cases condition with
  | true => exact given_throw (hThrow rfl)
  | false => exact given_pure (hGo rfl)

theorem given_atomic {body : ι → σ → Reply ξ σ ε α}
    (h : ∀ i s', rely.inputs i → rely.moves s s' →
      Ends K Z (body i s').result (body i s').state) :
    Given rely (atomic body) s K Z := h

theorem Given.meeting {x : Fallible ι σ ε ξ α} {P : α → Prop} {Y : ξ → Prop}
    (h : Given rely x s (fun a _ => P a) (fun e _ => Y e)) {inputs : Nat → ι} {states : Nat → σ}
    (hInputs : ∀ n, rely.inputs (inputs n)) (hStates : ∀ s n, rely.moves s (states n)) :
    Ends (fun a _ => P a) (fun e _ => Y e) (x.run.meeting inputs states) s :=
  Process.Given.meeting (Process.Given.mono h
    (fun _ _ hEnds => hEnds.result s)) hInputs hStates

/-- A call on one component of a larger state, of which `P` holds throughout. -/
theorem given_zoom {view : τ → σ} {put : σ → τ → τ} {input : κ → ι} {wide : Rely κ τ} {P : τ → Prop}
    (hInput : ∀ k, wide.inputs k → rely.inputs (input k))
    (hMoves : ∀ t t', P t → wide.moves t t' → P t' ∧ rely.moves (view t) (view t'))
    (hPut : ∀ s t, P t → P (put s t) ∧ view (put s t) = s) {x : Fallible ι σ ε ξ α} {t : τ}
    {L : α → τ → Prop} {Y : ξ → τ → Prop} (hStart : P t)
    (h : Given rely x (view t) (fun a s' => ∀ t', P t' → view t' = s' → L a t')
      (fun e s' => ∀ t', P t' → view t' = s' → Y e t')) :
    Given wide (zoom view put input x) t L Y := by
  unfold Given zoom at *
  rw [ExceptT.run_mk]
  generalize x.run = p at h
  induction p generalizing t with
  | done r =>
    cases r with
    | ok a => exact h t hStart rfl
    | error e => exact h t hStart rfl
  | access effect events next ih =>
    intro k t' hWide hMove
    obtain ⟨hPart, hNarrow⟩ := hMoves t t' hStart hMove
    obtain ⟨hKept, hView⟩ := hPut (effect (input k) (view t')) t' hPart
    apply ih (input k) (view t') hKept
    rw [hView]
    exact h (input k) (view t') (hInput k hWide) hNarrow

end Fallible

end Interleaving

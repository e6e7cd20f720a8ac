import Mathlib.Logic.Function.Basic
import Mathlib.Data.List.Basic

/-! # Processes: calls as sequences of accesses to a shared state

A process is a call in progress. It either has returned or waits for its next
access to the shared state. An access is atomic; between two accesses of one
process any number of accesses of other processes may happen. The input of an
access is what the surroundings decide there (clocks, random bytes, failures).
-/

namespace Interleaving

set_option autoImplicit false

inductive Process (ι σ ε α : Type) where
  | done (result : α)
  | access (effect : ι → σ → σ) (events : ι → σ → List ε) (next : ι → σ → Process ι σ ε α)

/-- One access as it happened: the state it met, what it logged, the state it left. -/
structure Act (σ ε : Type) where
  before : σ
  events : List ε
  after : σ

namespace Process

variable {ι κ σ τ ε α β : Type}

def bind : Process ι σ ε α → (α → Process ι σ ε β) → Process ι σ ε β
  | done a, f => f a
  | access effect events next, f => access effect events (fun i s => (next i s).bind f)

instance : Monad (Process ι σ ε) where
  pure := done
  bind := bind

@[simp] theorem pure_eq (a : α) : (pure a : Process ι σ ε α) = done a := rfl

@[simp] theorem done_bind (a : α) (f : α → Process ι σ ε β) : done a >>= f = f a := rfl

@[simp] theorem access_bind (effect : ι → σ → σ) (events : ι → σ → List ε)
    (next : ι → σ → Process ι σ ε α) (f : α → Process ι σ ε β) :
    access effect events next >>= f = access effect events (fun i s => next i s >>= f) := rfl

theorem bind_done (p : Process ι σ ε α) : p.bind done = p := by
  induction p with
  | done a => rfl
  | access effect events next ih =>
    simp only [bind, ih]

theorem bind_assoc (p : Process ι σ ε α) (f : α → Process ι σ ε β) {γ : Type}
    (g : β → Process ι σ ε γ) : (p.bind f).bind g = p.bind (fun a => (f a).bind g) := by
  induction p with
  | done a => rfl
  | access effect events next ih =>
    simp only [bind, ih]

instance : LawfulMonad (Process ι σ ε) :=
  LawfulMonad.mk' _ bind_done (fun _ _ => rfl) (fun p f g => bind_assoc p f g)

/-- The same process on a larger state, of which it sees and changes one component. -/
def zoom (view : τ → σ) (put : σ → τ → τ) (input : κ → ι) : Process ι σ ε α → Process κ τ ε α
  | done a => done a
  | access effect events next => access
      (fun k t => put (effect (input k) (view t)) t)
      (fun k t => events (input k) (view t))
      (fun k t => (next (input k) (view t)).zoom view put input)

/-- The result of a process that has returned. -/
def result? : Process ι σ ε α → Option α
  | done a => some a
  | access _ _ _ => none

theorem eq_done_of_result? {p : Process ι σ ε α} {a : α} (h : p.result? = some a) : p = done a := by
  cases p with
  | done b => rw [Option.some.inj h]
  | access effect events next => cases h

/-- What a process left behind when it ran alone. `used` counts its accesses. -/
structure Ran (σ ε α : Type) where
  result : α
  state : σ
  events : List ε
  used : Nat

/-- The process alone, its accesses fed from a sequence of inputs. -/
def run : Process ι σ ε α → (Nat → ι) → σ → Ran σ ε α
  | done a, _, s => ⟨a, s, [], 0⟩
  | access effect events next, inputs, s =>
    let rest := (next (inputs 0) s).run (fun n => inputs (n + 1)) (effect (inputs 0) s)
    { rest with events := events (inputs 0) s ++ rest.events, used := rest.used + 1 }

theorem run_bind (p : Process ι σ ε α) (f : α → Process ι σ ε β) (inputs : Nat → ι) (s : σ) :
    (p >>= f).run inputs s =
      let first := p.run inputs s
      let second := (f first.result).run (fun n => inputs (n + first.used)) first.state
      ⟨second.result, second.state, first.events ++ second.events, second.used + first.used⟩ := by
  induction p generalizing inputs s with
  | done a => rfl
  | access effect events next ih =>
    simp only [access_bind, run, ih, List.append_assoc, Nat.add_assoc]

/-- Whatever the inputs, the process run alone from `s` ends in a result, a state
and a log that satisfy `Q`. -/
def Ensures : Process ι σ ε α → σ → (α → σ → List ε → Prop) → Prop
  | done a, s, Q => Q a s []
  | access effect events next, s, Q => ∀ i,
    (next i s).Ensures (effect i s) (fun a s' log => Q a s' (events i s ++ log))

theorem Ensures.run {p : Process ι σ ε α} {s : σ} {Q : α → σ → List ε → Prop}
    (h : p.Ensures s Q) (inputs : Nat → ι) :
    Q (p.run inputs s).result (p.run inputs s).state (p.run inputs s).events := by
  induction p generalizing s Q inputs with
  | done a => exact h
  | access effect events next ih => exact ih (inputs 0) s (h (inputs 0)) _

theorem Ensures.mono {p : Process ι σ ε α} {s : σ} {Q R : α → σ → List ε → Prop}
    (h : p.Ensures s Q) (hQR : ∀ a s' log, Q a s' log → R a s' log) : p.Ensures s R := by
  induction p generalizing s Q R with
  | done a => exact hQR a s [] h
  | access effect events next ih =>
    intro i
    exact ih i s (h i) (fun a s' log => hQR a s' _)

theorem ensures_bind (p : Process ι σ ε α) (f : α → Process ι σ ε β) (s : σ)
    (Q : β → σ → List ε → Prop) :
    (p >>= f).Ensures s Q ↔ p.Ensures s (fun a s' log =>
      (f a).Ensures s' (fun b s'' log' => Q b s'' (log ++ log'))) := by
  induction p generalizing s Q with
  | done a => rfl
  | access effect events next ih =>
    simp only [access_bind, Ensures, ih, List.append_assoc]

/-- Every access of the process satisfies `Φ` given the accesses it made before
(newest first), whatever state it meets; at its return `post` holds of them all.
No assumption is made about the states between two accesses. -/
def Along (Φ : List (Act σ ε) → Act σ ε → Prop) :
    Process ι σ ε α → List (Act σ ε) → (α → List (Act σ ε) → Prop) → Prop
  | done a, past, post => post a past
  | access effect events next, past, post => ∀ i s,
    Φ past ⟨s, events i s, effect i s⟩ ∧
      (next i s).Along Φ (⟨s, events i s, effect i s⟩ :: past) post

variable {Φ Ψ : List (Act σ ε) → Act σ ε → Prop}

theorem Along.mono {p : Process ι σ ε α} {past : List (Act σ ε)}
    {post post' : α → List (Act σ ε) → Prop} (h : p.Along Φ past post)
    (hΦ : ∀ past a, Φ past a → Ψ past a) (hpost : ∀ a past, post a past → post' a past) :
    p.Along Ψ past post' := by
  induction p generalizing past with
  | done a => exact hpost a past h
  | access effect events next ih =>
    intro i s
    exact ⟨hΦ _ _ (h i s).1, ih i s (h i s).2⟩

theorem along_bind (p : Process ι σ ε α) (f : α → Process ι σ ε β) (past : List (Act σ ε))
    (post : β → List (Act σ ε) → Prop) :
    (p >>= f).Along Φ past post ↔ p.Along Φ past (fun a past' => (f a).Along Φ past' post) := by
  induction p generalizing past with
  | done a => rfl
  | access effect events next ih =>
    simp only [access_bind, Along, ih]

end Process

end Interleaving

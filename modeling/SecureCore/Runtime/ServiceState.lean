import SecureCore.Interleaving.CompareExchange

/-! # ServiceState

The phase of the service is one atomic, which signal handlers, the shutdown thread and the
handlers of requests use without a lock. -/

namespace SecureCore

set_option autoImplicit false

open Interleaving

inductive ServicePhase where
  | starting
  | running
  | draining
  | stopped
  deriving DecidableEq, Repr

namespace ServicePhase

def name : ServicePhase → String
  | starting => "starting"
  | running => "running"
  | draining => "draining"
  | stopped => "stopped"

/-- The phases in their order. -/
def rank : ServicePhase → Nat
  | starting => 0
  | running => 1
  | draining => 2
  | stopped => 3

/-- The condition of the loop in begin_draining, negated. -/
def closing (phase : ServicePhase) : Bool := phase = draining || phase = stopped

theorem closing_iff (phase : ServicePhase) : phase.closing = true ↔ 2 ≤ phase.rank := by
  cases phase <;> decide

end ServicePhase

/-- The calls that change the phase. -/
inductive ServiceCall where
  | markRunning
  | beginDraining
  | markStopped
  deriving DecidableEq, Repr

namespace ServiceState

def ready (phase : ServicePhase) : Bool := phase = .running

def beginDraining : ExchangeLoop ServicePhase ServicePhase where
  load phase := phase
  store value _ := value
  next current := if current.closing then none else some .draining

def code : ServiceCall → Instruction ServicePhase ServicePhase
  | .markRunning => .modify (fun _ => .running)
  | .beginDraining => .exchange beginDraining
  | .markStopped => .modify (fun _ => .stopped)

theorem effect_beginDraining (phase : ServicePhase) : (code .beginDraining).effect phase =
    if phase.closing then (phase, false) else (.draining, true) := by
  cases phase <;> rfl

/-- Without mark_running the phase does not go back. -/
theorem rank_effect {call : ServiceCall} (h : call ≠ .markRunning) (phase : ServicePhase) :
    phase.rank ≤ ((code call).effect phase).1.rank := by
  cases call with
  | markRunning => exact absurd rfl h
  | beginDraining => cases phase <;> decide
  | markStopped => cases phase <;> decide

theorem closing_effect {call : ServiceCall} (h : call ≠ .markRunning) (phase : ServicePhase) :
    ((code call).effect phase).1.closing = true := by
  cases call with
  | markRunning => exact absurd rfl h
  | beginDraining => cases phase <;> rfl
  | markStopped => rfl

/-- The first call closes the service, and a begin_draining after it says that it came too late. -/
theorem replays_closing {τ : Type} {phase phase' : ServicePhase} {completed : List (Completed τ ServiceCall)}
    (h : Threads.Replays code phase completed phase') (hCalls : ∀ c ∈ completed, c.label ≠ .markRunning) :
    (completed = [] ∧ phase' = phase) ∨ phase'.closing = true ∧ ∃ first later, completed = first :: later ∧
      (first.label = .beginDraining → first.stored = !phase.closing) ∧
      ∀ c ∈ later, c.label = .beginDraining → c.stored = false := by
  induction h with
  | nil => exact .inl ⟨rfl, rfl⟩
  | @snoc completed between _ thread label ih =>
    have hLabel : label ≠ .markRunning := hCalls _ (List.mem_append_right _ (List.mem_singleton.mpr rfl))
    refine .inr ⟨closing_effect hLabel between, ?_⟩
    rcases ih (fun c hc => hCalls c (List.mem_append_left _ hc)) with
      ⟨rfl, rfl⟩ | ⟨hClosing, first, later, rfl, hFirst, hLater⟩
    · refine ⟨_, [], rfl, ?_, by simp⟩
      rintro rfl
      rw [effect_beginDraining]
      cases between <;> rfl
    · refine ⟨first, later ++ [_], rfl, hFirst, ?_⟩
      intro c hc hDraining
      rcases List.mem_append.mp hc with hOld | hNew
      · exact hLater c hOld hDraining
      · rw [List.mem_singleton.mp hNew] at hDraining ⊢
        obtain rfl : label = .beginDraining := hDraining
        rw [effect_beginDraining, if_pos hClosing]

end ServiceState

/-- However many threads call begin_draining and mark_stopped, once nobody marks the service
running any more: the first call to take effect closes it, one begin_draining at most hears that
it was the one, and from then on the service is not ready. The phase never goes back. -/
theorem drain_begins_once {τ : Type} [DecidableEq τ] (calls : τ → List ServiceCall)
    (hRunning : ∀ t, .markRunning ∉ calls t) (phase : ServicePhase) (schedule : List (τ × Bool)) :
    let threads := (Threads.started calls phase).run ServiceState.code schedule
    (∀ first later, threads.completed = first :: later →
      (first.label = .beginDraining → first.stored = !phase.closing) ∧
      (∀ c ∈ later, c.label = .beginDraining → c.stored = false) ∧
      ∀ more, ServiceState.ready (threads.run ServiceState.code more).shared = false) ∧
    (threads.completed = [] → threads.shared = phase) ∧
    (∀ more, threads.shared.rank ≤ (threads.run ServiceState.code more).shared.rank) ∧
    ∀ t, ∃ n, (threads.run ServiceState.code (List.replicate n (t, false))).todo t = [] := by
  intro threads
  have hReached : Threads.Linearized ServiceState.code calls phase threads :=
    (Threads.linearized_started calls phase).run schedule
  have hCalls : ∀ c ∈ threads.completed, c.label ≠ .markRunning := by
    intro c hc hLabel
    apply hRunning c.thread
    rw [← hReached.program c.thread, ← hLabel]
    exact List.mem_append_left _ (List.mem_map_of_mem (List.mem_filter.mpr ⟨hc, decide_eq_true rfl⟩))
  have hForward : ∀ more, threads.shared.rank ≤ (threads.run ServiceState.code more).shared.rank := by
    intro more
    apply hReached.run_forward (R := fun p q => p.rank ≤ q.rank) (fun _ => Nat.le_refl _)
      (fun _ _ _ => Nat.le_trans)
    rintro t call hCall p
    refine ServiceState.rank_effect ?_ p
    rintro rfl
    exact hRunning t hCall
  have hReplays := ServiceState.replays_closing hReached.replays hCalls
  refine ⟨?_, ?_, hForward, threads.finishes_alone⟩
  · intro first later hCompleted
    rcases hReplays with ⟨hNone, -⟩ | ⟨hClosing, first', later', hSome, hFirst, hLater⟩
    · rw [hCompleted] at hNone
      cases hNone
    · obtain ⟨rfl, rfl⟩ := List.cons.inj (hCompleted.symm.trans hSome)
      refine ⟨hFirst, hLater, fun more => ?_⟩
      have hRank := Nat.le_trans ((ServicePhase.closing_iff _).mp hClosing) (hForward more)
      unfold ServiceState.ready
      rw [decide_eq_false_iff_not]
      intro hReady
      rw [hReady] at hRank
      exact absurd hRank (by decide)
  · intro hNone
    rcases hReplays with ⟨-, hPhase⟩ | ⟨-, first, later, hSome, -⟩
    · exact hPhase
    · rw [hNone] at hSome
      cases hSome

namespace Sample

/-- Two signal handlers and the shutdown thread. -/
def closers : Fin 3 → List ServiceCall
  | 0 => [.beginDraining]
  | 1 => [.beginDraining]
  | 2 => [.markStopped]

def closingTurns : List (Fin 3 × Bool) := [(0, false), (1, false), (1, true), (0, false), (1, false), (2, false)]

theorem drain_begins_once_sample :
    let threads := (Threads.started closers .running).run ServiceState.code closingTurns
    (∀ first later, threads.completed = first :: later →
      (first.label = .beginDraining → first.stored = !ServicePhase.running.closing) ∧
      (∀ c ∈ later, c.label = .beginDraining → c.stored = false) ∧
      ∀ more, ServiceState.ready (threads.run ServiceState.code more).shared = false) ∧
    (threads.completed = [] → threads.shared = .running) ∧
    (∀ more, threads.shared.rank ≤ (threads.run ServiceState.code more).shared.rank) ∧
    ∀ t, ∃ n, (threads.run ServiceState.code (List.replicate n (t, false))).todo t = [] :=
  drain_begins_once closers (by decide) .running closingTurns

end Sample

end SecureCore

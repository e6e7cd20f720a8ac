import Mathlib.Logic.Function.Basic
import Mathlib.Data.List.Basic

/-! # Atomic instructions and compare-exchange loops

Threads run programs of atomic instructions. An instruction is a single read-modify-write or
a loop around a compare_exchange that may fail spuriously. Such a loop takes effect in its
last step, so under every schedule the shared state is what the completed instructions make
of it one after the other. -/

namespace Interleaving

set_option autoImplicit false

/-- Load a cell; as long as there is a next value for the value read, try to exchange the
one for the other. -/
structure ExchangeLoop (σ κ : Type) where
  load : σ → κ
  store : κ → σ → σ
  next : κ → Option κ

inductive Instruction (σ κ : Type) where
  | modify (f : σ → σ)
  | exchange (loop : ExchangeLoop σ κ)

/-- After one step: a value read and the value to store in its place, or the end. -/
inductive Progress (σ κ : Type) where
  | goesOn (current value : κ)
  | finished (s : σ) (stored : Bool)

variable {σ κ ℓ τ : Type}

namespace ExchangeLoop

variable (loop : ExchangeLoop σ κ)

/-- What is left of a value that a load or a failed exchange has read: the test of the loop. -/
def tested (s : σ) : Progress σ κ :=
  match loop.next (loop.load s) with
  | some value => .goesOn (loop.load s) value
  | none => .finished s false

/-- One step: the first load, or an exchange of what `held` says. -/
def step [DecidableEq κ] (held : Option (κ × κ)) (spurious : Bool) (s : σ) : Progress σ κ :=
  match held with
  | none => loop.tested s
  | some (current, value) =>
    if spurious || loop.load s != current then loop.tested s else .finished (loop.store value s) true

end ExchangeLoop

namespace Instruction

/-- The instruction in one go: what it leaves, and whether it has stored a value. -/
def effect : Instruction σ κ → σ → σ × Bool
  | modify f, s => (f s, true)
  | exchange loop, s =>
    match loop.next (loop.load s) with
    | some value => (loop.store value s, true)
    | none => (s, false)

/-- What a thread may hold on to in the middle of the instruction. -/
def Holds : Instruction σ κ → Option (κ × κ) → Prop
  | modify _, held => held = none
  | exchange loop, held => ∀ current value, held = some (current, value) → loop.next current = some value

def step [DecidableEq κ] : Instruction σ κ → Option (κ × κ) → Bool → σ → Progress σ κ
  | modify f, _, _, s => .finished (f s) true
  | exchange loop, held, spurious, s => loop.step held spurious s

theorem holds_none (instruction : Instruction σ κ) : instruction.Holds none := by
  cases instruction with
  | modify f => exact rfl
  | exchange loop =>
    intro current value hHeld
    cases hHeld

/-- The last step does what the instruction does in one go, all others do nothing. -/
inductive Stepped (instruction : Instruction σ κ) (s : σ) : Progress σ κ → Prop
  | goesOn {current value : κ} (h : instruction.Holds (some (current, value))) :
      Stepped instruction s (.goesOn current value)
  | finished : Stepped instruction s (.finished (instruction.effect s).1 (instruction.effect s).2)

theorem effect_of_some {loop : ExchangeLoop σ κ} {s : σ} {value : κ} (h : loop.next (loop.load s) = some value) :
    (exchange loop).effect s = (loop.store value s, true) := by
  simp only [effect, h]

theorem effect_of_none {loop : ExchangeLoop σ κ} {s : σ} (h : loop.next (loop.load s) = none) :
    (exchange loop).effect s = (s, false) := by
  simp only [effect, h]

theorem stepped_tested (loop : ExchangeLoop σ κ) (s : σ) : Stepped (.exchange loop) s (loop.tested s) := by
  unfold ExchangeLoop.tested
  cases hNext : loop.next (loop.load s) with
  | none =>
    have hFinished := @Stepped.finished _ _ (Instruction.exchange loop) s
    rw [effect_of_none hNext] at hFinished
    exact hFinished
  | some value =>
    apply Stepped.goesOn
    rintro _ _ ⟨rfl, rfl⟩
    exact hNext

variable [DecidableEq κ]

theorem step_cases {instruction : Instruction σ κ} {held : Option (κ × κ)} (h : instruction.Holds held)
    (spurious : Bool) (s : σ) : Stepped instruction s (instruction.step held spurious s) := by
  cases instruction with
  | modify f => exact .finished
  | exchange loop =>
    unfold step ExchangeLoop.step
    cases held with
    | none => exact stepped_tested loop s
    | some pair =>
      obtain ⟨current, value⟩ := pair
      simp only
      split
      · exact stepped_tested loop s
      · rename_i hExchanged
        rw [Bool.or_eq_true, not_or, bne_iff_ne, ne_eq, not_not] at hExchanged
        have hFinished := @Stepped.finished _ _ (Instruction.exchange loop) s
        rw [effect_of_some (hExchanged.2 ▸ h current value rfl)] at hFinished
        exact hFinished

/-- Undisturbed, an instruction is over in its second step at the latest. -/
theorem step_alone {instruction : Instruction σ κ} {held : Option (κ × κ)} {current value : κ} {s : σ}
    (hFirst : instruction.step held false s = .goesOn current value) :
    ∃ s', instruction.step (some (current, value)) false s = .finished s' true := by
  cases instruction with
  | modify f => cases hFirst
  | exchange loop =>
    have hTested : loop.tested s = .goesOn current value := by
      unfold step ExchangeLoop.step at hFirst
      cases held with
      | none => exact hFirst
      | some pair =>
        simp only at hFirst
        split at hFirst
        · exact hFirst
        · cases hFirst
    unfold ExchangeLoop.tested at hTested
    cases hNext : loop.next (loop.load s) with
    | none =>
      simp only [hNext] at hTested
      cases hTested
    | some next =>
      simp only [hNext] at hTested
      obtain ⟨rfl, rfl⟩ := Progress.goesOn.inj hTested
      refine ⟨loop.store next s, ?_⟩
      simp only [step, ExchangeLoop.step, bne_self_eq_false, Bool.or_self, Bool.false_eq_true, if_false]

end Instruction

/-! ## Threads -/

/-- An instruction that has come to its end. -/
structure Completed (τ ℓ : Type) where
  thread : τ
  label : ℓ
  stored : Bool
  deriving DecidableEq, Repr

/-- The threads in the middle of their programs. The last completed instruction stands last. -/
structure Threads (τ σ κ ℓ : Type) where
  shared : σ
  todo : τ → List ℓ
  held : τ → Option (κ × κ)
  completed : List (Completed τ ℓ)

namespace Threads

def started (programs : τ → List ℓ) (s : σ) : Threads τ σ κ ℓ := ⟨s, programs, fun _ => none, []⟩

variable [DecidableEq τ] (code : ℓ → Instruction σ κ)

section run

variable [DecidableEq κ]

def step (m : Threads τ σ κ ℓ) (turn : τ × Bool) : Threads τ σ κ ℓ :=
  match m.todo turn.1 with
  | [] => m
  | label :: rest =>
    match (code label).step (m.held turn.1) turn.2 m.shared with
    | .goesOn current value => { m with held := Function.update m.held turn.1 (some (current, value)) }
    | .finished s stored =>
      { shared := s
        todo := Function.update m.todo turn.1 rest
        held := Function.update m.held turn.1 none
        completed := m.completed ++ [⟨turn.1, label, stored⟩] }

/-- Each turn says whose it is and whether a compare_exchange fails spuriously in it. -/
def run (m : Threads τ σ κ ℓ) (schedule : List (τ × Bool)) : Threads τ σ κ ℓ := schedule.foldl (step code) m

end run

/-- The completed instructions done one after the other, each in one go. -/
inductive Replays (s : σ) : List (Completed τ ℓ) → σ → Prop
  | nil : Replays s [] s
  | snoc {completed : List (Completed τ ℓ)} {s' : σ} (h : Replays s completed s') (thread : τ) (label : ℓ) :
      Replays s (completed ++ [⟨thread, label, ((code label).effect s').2⟩]) ((code label).effect s').1

structure Linearized (programs : τ → List ℓ) (s : σ) (m : Threads τ σ κ ℓ) : Prop where
  replays : Replays code s m.completed m.shared
  program : ∀ t, (m.completed.filter (fun c => c.thread = t)).map Completed.label ++ m.todo t = programs t
  held : ∀ t label rest, m.todo t = label :: rest → (code label).Holds (m.held t)
  idle : ∀ t, m.todo t = [] → m.held t = none

variable {code} {programs : τ → List ℓ} {s : σ} {m : Threads τ σ κ ℓ}

theorem linearized_started (programs : τ → List ℓ) (s : σ) :
    Linearized code programs s (started programs s : Threads τ σ κ ℓ) where
  replays := .nil
  program _ := rfl
  held _ label _ _ := (code label).holds_none
  idle _ _ := rfl

variable [DecidableEq κ]

theorem Linearized.step (h : Linearized code programs s m) (turn : τ × Bool) :
    Linearized code programs s (m.step code turn) := by
  obtain ⟨t, spurious⟩ := turn
  unfold Threads.step
  cases hTodo : m.todo t with
  | nil => exact h
  | cons label rest =>
    have hStepped := Instruction.step_cases (h.held t label rest hTodo) spurious m.shared
    simp only
    cases hProgress : (code label).step (m.held t) spurious m.shared with
    | goesOn current value =>
      rw [hProgress] at hStepped
      cases hStepped with
      | goesOn hHolds =>
        refine ⟨h.replays, h.program, ?_, ?_⟩
        · intro t' label' rest' hTodo'
          by_cases hThread : t' = t
          · subst hThread
            obtain ⟨rfl, rfl⟩ := List.cons.inj (hTodo.symm.trans hTodo')
            simp only [Function.update_self]
            exact hHolds
          · simp only [Function.update_of_ne hThread]
            exact h.held t' label' rest' hTodo'
        · intro t' hNil
          have hThread : t' ≠ t := by
            rintro rfl
            rw [hTodo] at hNil
            cases hNil
          simp only [Function.update_of_ne hThread]
          exact h.idle t' hNil
    | finished s' stored =>
      rw [hProgress] at hStepped
      cases hStepped with
      | finished =>
        refine ⟨h.replays.snoc t label, ?_, ?_, ?_⟩
        · intro t'
          by_cases hThread : t' = t
          · subst hThread
            have hProgram := h.program t'
            rw [hTodo] at hProgram
            simp only [Function.update_self, List.filter_append, List.filter_cons, decide_true, if_true,
              List.filter_nil, List.map_append, List.map_cons, List.map_nil, List.append_assoc,
              List.singleton_append]
            exact hProgram
          · have hOther : ¬t = t' := fun hEq => hThread hEq.symm
            simp only [Function.update_of_ne hThread, List.filter_append, List.filter_cons, hOther,
              decide_false, Bool.false_eq_true, if_false, List.filter_nil, List.append_nil]
            exact h.program t'
        · intro t' label' rest' hTodo'
          by_cases hThread : t' = t
          · subst hThread
            simp only [Function.update_self]
            exact (code label').holds_none
          · simp only [Function.update_of_ne hThread] at hTodo' ⊢
            exact h.held t' label' rest' hTodo'
        · intro t' hNil
          by_cases hThread : t' = t
          · subst hThread
            simp only [Function.update_self]
          · simp only [Function.update_of_ne hThread] at hNil ⊢
            exact h.idle t' hNil

theorem Linearized.run (h : Linearized code programs s m) (schedule : List (τ × Bool)) :
    Linearized code programs s (m.run code schedule) := by
  induction schedule generalizing m with
  | nil => exact h
  | cons turn schedule ih => exact ih (h.step turn)

/-- What every instruction of the programs does to the state, every turn does. -/
theorem Linearized.step_forward (h : Linearized code programs s m) {R : σ → σ → Prop} (hRefl : ∀ x, R x x)
    (hEffect : ∀ t, ∀ label ∈ programs t, ∀ x, R x ((code label).effect x).1) (turn : τ × Bool) :
    R m.shared (m.step code turn).shared := by
  unfold Threads.step
  cases hTodo : m.todo turn.1 with
  | nil => exact hRefl _
  | cons label rest =>
    have hStepped := Instruction.step_cases (h.held turn.1 label rest hTodo) turn.2 m.shared
    simp only
    cases hProgress : (code label).step (m.held turn.1) turn.2 m.shared with
    | goesOn current value => exact hRefl _
    | finished s' stored =>
      rw [hProgress] at hStepped
      cases hStepped with
      | finished =>
        refine hEffect turn.1 label ?_ m.shared
        rw [← h.program turn.1, hTodo]
        exact List.mem_append_right _ List.mem_cons_self

theorem Linearized.run_forward (h : Linearized code programs s m) {R : σ → σ → Prop} (hRefl : ∀ x, R x x)
    (hTrans : ∀ x y z, R x y → R y z → R x z)
    (hEffect : ∀ t, ∀ label ∈ programs t, ∀ x, R x ((code label).effect x).1) (schedule : List (τ × Bool)) :
    R m.shared (m.run code schedule).shared := by
  induction schedule generalizing m with
  | nil => exact hRefl _
  | cons turn schedule ih =>
    exact hTrans _ _ _ (h.step_forward hRefl hEffect turn) (ih (h.step turn))

/-- A thread that runs alone for long enough comes to the end of its program. -/
theorem finishes_alone (m : Threads τ σ κ ℓ) (t : τ) :
    ∃ n, (m.run code (List.replicate n (t, false))).todo t = [] := by
  generalize hTodo : m.todo t = todo
  induction todo generalizing m with
  | nil => exact ⟨0, hTodo⟩
  | cons label rest ih =>
    have hFinished : ∀ m' : Threads τ σ κ ℓ, m'.todo t = label :: rest → ∀ s' stored,
        (code label).step (m'.held t) false m'.shared = .finished s' stored →
        (m'.step code (t, false)).todo t = rest := by
      intro m' hTodo' s' stored hProgress
      unfold Threads.step
      simp only [hTodo', hProgress, Function.update_self]
    cases hFirst : (code label).step (m.held t) false m.shared with
    | finished s' stored =>
      obtain ⟨n, hRest⟩ := ih _ (hFinished m hTodo s' stored hFirst)
      exact ⟨n + 1, hRest⟩
    | goesOn current value =>
      obtain ⟨s', hSecond⟩ := Instruction.step_alone hFirst
      have hHeld : m.step code (t, false) =
          { m with held := Function.update m.held t (some (current, value)) } := by
        unfold Threads.step
        simp only [hTodo, hFirst]
      obtain ⟨n, hRest⟩ := ih _ (hFinished (m.step code (t, false)) (by rw [hHeld]; exact hTodo) s' true
        (by rw [hHeld]; simp only [Function.update_self]; exact hSecond))
      exact ⟨n + 2, hRest⟩

end Threads

end Interleaving

import SecureCore.Interleaving.Process

/-! # Pools: any number of processes over one shared state

A pool runs one process per thread. A schedule picks at every step the thread
that makes its next access and the input of that access, so a statement about
all schedules is a statement about all interleavings. The history records every
access with its thread, newest first. -/

namespace Interleaving

set_option autoImplicit false

structure Entry (τ σ ε : Type) extends Act σ ε where
  thread : τ

structure Pool (τ ι σ ε α : Type) where
  state : σ
  history : List (Entry τ σ ε)
  threads : τ → Process ι σ ε α

variable {τ ι σ ε α : Type}

/-- The state a history ends in. -/
def stateAfter (start : σ) : List (Entry τ σ ε) → σ
  | [] => start
  | e :: _ => e.after

@[simp] theorem stateAfter_nil (start : σ) :
    stateAfter start ([] : List (Entry τ σ ε)) = start := rfl

@[simp] theorem stateAfter_cons (start : σ) (e : Entry τ σ ε) (older : List (Entry τ σ ε)) :
    stateAfter start (e :: older) = e.after := rfl

/-- `P` holds of every access of a history and the accesses before it. -/
def Always (P : Entry τ σ ε → List (Entry τ σ ε) → Prop) : List (Entry τ σ ε) → Prop
  | [] => True
  | e :: older => P e older ∧ Always P older

theorem Always.at_entry {P : Entry τ σ ε → List (Entry τ σ ε) → Prop}
    {newer older : List (Entry τ σ ε)} {e : Entry τ σ ε} (h : Always P (newer ++ e :: older)) :
    P e older := by
  induction newer with
  | nil => exact h.1
  | cons e' newer ih => exact ih h.2

theorem Always.of_append {P : Entry τ σ ε → List (Entry τ σ ε) → Prop}
    {newer older : List (Entry τ σ ε)} (h : Always P (newer ++ older)) : Always P older := by
  induction newer with
  | nil => exact h
  | cons e newer ih => exact ih h.2

instance decidableAlways (P : Entry τ σ ε → List (Entry τ σ ε) → Prop)
    [∀ e older, Decidable (P e older)] : (history : List (Entry τ σ ε)) → Decidable (Always P history)
  | [] => .isTrue trivial
  | e :: older =>
    have : Decidable (Always P older) := decidableAlways P older
    inferInstanceAs (Decidable (P e older ∧ Always P older))

variable [DecidableEq τ]

/-- The accesses of one thread in a history, newest first. -/
def own (t : τ) : List (Entry τ σ ε) → List (Act σ ε)
  | [] => []
  | e :: older => if e.thread = t then e.toAct :: own t older else own t older

@[simp] theorem own_nil (t : τ) : own t ([] : List (Entry τ σ ε)) = [] := rfl

@[simp] theorem own_cons_self (e : Entry τ σ ε) (older : List (Entry τ σ ε)) :
    own e.thread (e :: older) = e.toAct :: own e.thread older := by
  simp [own]

theorem own_cons_of_ne {t : τ} {e : Entry τ σ ε} (h : e.thread ≠ t)
    (older : List (Entry τ σ ε)) : own t (e :: older) = own t older := by
  simp [own, h]

theorem mem_own {t : τ} {a : Act σ ε} {history : List (Entry τ σ ε)} :
    a ∈ own t history ↔ ∃ e ∈ history, e.thread = t ∧ e.toAct = a := by
  induction history with
  | nil => simp
  | cons e older ih =>
    by_cases ht : e.thread = t
    · subst ht
      rw [own_cons_self, List.mem_cons, ih]
      constructor
      · rintro (rfl | ⟨e', he', ht, ha⟩)
        · exact ⟨e, List.mem_cons_self, rfl, rfl⟩
        · exact ⟨e', List.mem_cons_of_mem _ he', ht, ha⟩
      · rintro ⟨e', he', ht, ha⟩
        rcases List.mem_cons.mp he' with rfl | he'
        · exact Or.inl ha.symm
        · exact Or.inr ⟨e', he', ht, ha⟩
    · rw [own_cons_of_ne ht, ih]
      constructor
      · rintro ⟨e', he', h⟩
        exact ⟨e', List.mem_cons_of_mem _ he', h⟩
      · rintro ⟨e', he', h⟩
        rcases List.mem_cons.mp he' with rfl | he'
        · exact absurd h.1 ht
        · exact ⟨e', he', h⟩

theorem own_append (t : τ) (newer older : List (Entry τ σ ε)) :
    own t (newer ++ older) = own t newer ++ own t older := by
  induction newer with
  | nil => rfl
  | cons e newer ih =>
    simp only [List.cons_append, own, ih]
    split <;> rfl

namespace Pool

def start (threads : τ → Process ι σ ε α) (s : σ) : Pool τ ι σ ε α := ⟨s, [], threads⟩

/-- Thread `t` makes its next access; a thread that has returned does nothing. -/
def step (pool : Pool τ ι σ ε α) (t : τ) (i : ι) : Pool τ ι σ ε α :=
  match pool.threads t with
  | .done _ => pool
  | .access effect events next =>
    { state := effect i pool.state
      history := ⟨⟨pool.state, events i pool.state, effect i pool.state⟩, t⟩ :: pool.history
      threads := Function.update pool.threads t (next i pool.state) }

def run (pool : Pool τ ι σ ε α) : List (τ × ι) → Pool τ ι σ ε α
  | [] => pool
  | (t, i) :: schedule => (pool.step t i).run schedule

theorem run_append (pool : Pool τ ι σ ε α) (first second : List (τ × ι)) :
    pool.run (first ++ second) = (pool.run first).run second := by
  induction first generalizing pool with
  | nil => rfl
  | cons c first ih => exact ih _

end Pool

/-- The histories in which every access obeys its thread's discipline `Φ` given
that thread's earlier accesses, and starts in the state the access before it left. -/
inductive Execution (Φ : τ → List (Act σ ε) → Act σ ε → Prop) (s : σ) :
    List (Entry τ σ ε) → Prop
  | nil : Execution Φ s []
  | cons {e : Entry τ σ ε} {older : List (Entry τ σ ε)} (hOlder : Execution Φ s older)
      (hBefore : e.before = stateAfter s older)
      (hDiscipline : Φ e.thread (own e.thread older) e.toAct) : Execution Φ s (e :: older)

namespace Pool

variable {Φ : τ → List (Act σ ε) → Act σ ε → Prop} {post : τ → α → List (Act σ ε) → Prop}

/-- A pool in the middle of a run from `s`: its history is an execution that ends in
its state, and what is left of every thread still obeys the discipline and will
return as promised. -/
structure Running (Φ : τ → List (Act σ ε) → Act σ ε → Prop)
    (post : τ → α → List (Act σ ε) → Prop) (s : σ) (pool : Pool τ ι σ ε α) : Prop where
  execution : Execution Φ s pool.history
  state : pool.state = stateAfter s pool.history
  along : ∀ t, (pool.threads t).Along (Φ t) (own t pool.history) (post t)

theorem Running.step {s : σ} {pool : Pool τ ι σ ε α} (h : Running Φ post s pool) (t : τ) (i : ι) :
    Running Φ post s (pool.step t i) := by
  have hAlong := h.along t
  unfold Pool.step
  cases hThread : pool.threads t with
  | done a => exact h
  | access effect events next =>
    rw [hThread] at hAlong
    obtain ⟨hΦ, hNext⟩ := hAlong i pool.state
    refine ⟨.cons h.execution h.state hΦ, rfl, ?_⟩
    intro t'
    by_cases ht : t' = t
    · subst ht
      simpa [own] using hNext
    · have hOwn := own_cons_of_ne (t := t')
        (e := ⟨⟨pool.state, events i pool.state, effect i pool.state⟩, t⟩) (Ne.symm ht) pool.history
      simpa [Function.update_of_ne ht, hOwn] using h.along t'

theorem Running.run {s : σ} {pool : Pool τ ι σ ε α} (h : Running Φ post s pool)
    (schedule : List (τ × ι)) : Running Φ post s (pool.run schedule) := by
  induction schedule generalizing pool with
  | nil => exact h
  | cons c schedule ih => exact ih (h.step c.1 c.2)

/-- The rule for pools: if every process obeys its discipline whatever the others
do, then every run is an execution. -/
theorem running_of_along {threads : τ → Process ι σ ε α}
    (h : ∀ t, (threads t).Along (Φ t) [] (post t)) (s : σ) (schedule : List (τ × ι)) :
    Running Φ post s ((start threads s).run schedule) :=
  Running.run ⟨.nil, rfl, h⟩ schedule

/-- What a returned thread promised holds of the accesses it made. -/
theorem Running.returned {s : σ} {pool : Pool τ ι σ ε α} (h : Running Φ post s pool) {t : τ}
    {a : α} (hDone : pool.threads t = .done a) : post t a (own t pool.history) := by
  have hAlong := h.along t
  rw [hDone] at hAlong
  exact hAlong

/-- A run only adds to the history. -/
theorem run_history (pool : Pool τ ι σ ε α) (schedule : List (τ × ι)) :
    ∃ newer, (pool.run schedule).history = newer ++ pool.history := by
  induction schedule generalizing pool with
  | nil => exact ⟨[], rfl⟩
  | cons c schedule ih =>
    obtain ⟨newer, hNewer⟩ := ih (pool.step c.1 c.2)
    have hStep : ∃ first, (pool.step c.1 c.2).history = first ++ pool.history := by
      unfold Pool.step
      split
      · exact ⟨[], rfl⟩
      · exact ⟨[_], rfl⟩
    obtain ⟨first, hFirst⟩ := hStep
    exact ⟨newer ++ first, by rw [run, hNewer, hFirst, List.append_assoc]⟩

end Pool

namespace Execution

variable {Φ : τ → List (Act σ ε) → Act σ ε → Prop} {s : σ}

theorem uncons {e : Entry τ σ ε} {older : List (Entry τ σ ε)} (h : Execution Φ s (e :: older)) :
    Execution Φ s older ∧ e.before = stateAfter s older ∧
      Φ e.thread (own e.thread older) e.toAct := by
  cases h with
  | cons hOlder hBefore hDiscipline => exact ⟨hOlder, hBefore, hDiscipline⟩

theorem of_append {newer older : List (Entry τ σ ε)} (h : Execution Φ s (newer ++ older)) :
    Execution Φ s older := by
  induction newer with
  | nil => exact h
  | cons e newer ih =>
    cases h with
    | cons hOlder _ _ => exact ih hOlder

/-- What the discipline says about an access inside a history. -/
theorem at_entry {newer older : List (Entry τ σ ε)} {e : Entry τ σ ε}
    (h : Execution Φ s (newer ++ e :: older)) :
    e.before = stateAfter s older ∧ Φ e.thread (own e.thread older) e.toAct := by
  cases h.of_append with
  | cons _ hBefore hDiscipline => exact ⟨hBefore, hDiscipline⟩

/-- The rule for invariants: `I` holds of the start and every access of the
execution preserves it. -/
theorem invariant {I : σ → List (Entry τ σ ε) → Prop} (hStart : I s [])
    (hStep : ∀ (e : Entry τ σ ε) (older : List (Entry τ σ ε)), Execution Φ s (e :: older) →
      I e.before older → I e.after (e :: older))
    {history : List (Entry τ σ ε)} (h : Execution Φ s history) :
    I (stateAfter s history) history := by
  induction h with
  | nil => exact hStart
  | @cons e older hOlder hBefore hDiscipline ih =>
    exact hStep e older (.cons hOlder hBefore hDiscipline) (hBefore ▸ ih)

/-- The rule for what holds from some point on: `I` holds after the oldest entry of
a suffix and every later access preserves it. -/
theorem invariant_from {I : σ → List (Entry τ σ ε) → Prop} {older : List (Entry τ σ ε)}
    (hStart : I (stateAfter s older) older)
    (hStep : ∀ (e : Entry τ σ ε) (mid : List (Entry τ σ ε)),
      Execution Φ s (e :: (mid ++ older)) → I e.before (mid ++ older) →
        I e.after (e :: (mid ++ older)))
    {newer : List (Entry τ σ ε)} (h : Execution Φ s (newer ++ older)) :
    I (stateAfter s (newer ++ older)) (newer ++ older) := by
  induction newer with
  | nil => exact hStart
  | cons e newer ih =>
    cases h with
    | cons hOlder hBefore hDiscipline =>
      exact hStep e newer (.cons hOlder hBefore hDiscipline) (hBefore ▸ ih hOlder)

end Execution

end Interleaving

import Mathlib.Data.List.Basic

/-! # Runs of labelled transition systems

A step leads from a state by an input to another state, and lets outputs be seen. A
run is kept as its entries, newest first. -/

set_option autoImplicit false

namespace Transition

variable {σ τ ι ω ω' : Type}

/-- One step as it happened. -/
structure Entry (σ ι ω : Type) where
  before : σ
  input : ι
  outputs : List ω
  after : σ

abbrev Step (σ ι ω : Type) := σ → ι → List ω → σ → Prop

/-- A partial function as a system: where it is undefined the input cannot occur. -/
def partialStep (step : σ → ι → Option (σ × List ω)) : Step σ ι ω :=
  fun s i outputs s' => step s i = some (s', outputs)

inductive Run (step : Step σ ι ω) (s : σ) : List (Entry σ ι ω) → σ → Prop
  | nil : Run step s [] s
  | cons {e : Entry σ ι ω} {older : List (Entry σ ι ω)} (hOlder : Run step s older e.before)
      (hStep : step e.before e.input e.outputs e.after) : Run step s (e :: older) e.after

/-- All outputs of a history, oldest first. -/
def outputs : List (Entry σ ι ω) → List ω
  | [] => []
  | e :: older => outputs older ++ e.outputs

@[simp] theorem outputs_nil : outputs ([] : List (Entry σ ι ω)) = [] := rfl

@[simp] theorem outputs_cons (e : Entry σ ι ω) (older : List (Entry σ ι ω)) :
    outputs (e :: older) = outputs older ++ e.outputs := rfl

theorem mem_outputs {o : ω} {history : List (Entry σ ι ω)} :
    o ∈ outputs history ↔ ∃ e ∈ history, o ∈ e.outputs := by
  induction history with
  | nil => simp
  | cons e older ih =>
    rw [outputs_cons, List.mem_append, ih]
    constructor
    · rintro (⟨e', he', ho⟩ | ho)
      · exact ⟨e', List.mem_cons_of_mem e he', ho⟩
      · exact ⟨e, List.mem_cons_self, ho⟩
    · rintro ⟨e', he', ho⟩
      rcases List.mem_cons.mp he' with rfl | hOld
      · exact .inr ho
      · exact .inl ⟨e', hOld, ho⟩

namespace Run

variable {step : Step σ ι ω} {s s' : σ}

theorem uncons {e : Entry σ ι ω} {older : List (Entry σ ι ω)} (h : Run step s (e :: older) s') :
    Run step s older e.before ∧ step e.before e.input e.outputs e.after ∧ s' = e.after := by
  cases h with
  | cons hOlder hStep => exact ⟨hOlder, hStep, rfl⟩

/-- A run falls apart at every entry. -/
theorem split {newer older : List (Entry σ ι ω)} (h : Run step s (newer ++ older) s') :
    ∃ middle, Run step s older middle ∧ Run step middle newer s' := by
  induction newer generalizing s' with
  | nil => exact ⟨s', h, .nil⟩
  | cons e newer ih =>
    obtain ⟨hOlder, hStep, rfl⟩ := h.uncons
    obtain ⟨middle, hFirst, hSecond⟩ := ih hOlder
    exact ⟨middle, hFirst, .cons hSecond hStep⟩

theorem append {middle : σ} {newer older : List (Entry σ ι ω)} (h : Run step s older middle)
    (hNewer : Run step middle newer s') : Run step s (newer ++ older) s' := by
  induction hNewer with
  | nil => exact h
  | cons _ hStep ih => exact .cons ih hStep

/-- What a run says about an entry inside its history. -/
theorem at_entry {newer older : List (Entry σ ι ω)} {e : Entry σ ι ω}
    (h : Run step s (newer ++ e :: older) s') :
    Run step s older e.before ∧ step e.before e.input e.outputs e.after ∧
      Run step e.after newer s' := by
  obtain ⟨middle, hFirst, hSecond⟩ := h.split
  obtain ⟨hOlder, hStep, rfl⟩ := hFirst.uncons
  exact ⟨hOlder, hStep, hSecond⟩

/-- The rule for invariants. -/
theorem invariant {I : σ → Prop} (hStart : I s)
    (hStep : ∀ s i o s', I s → step s i o s' → I s') {history : List (Entry σ ι ω)}
    (h : Run step s history s') : I s' := by
  induction h with
  | nil => exact hStart
  | cons _ hStep' ih => exact hStep _ _ _ _ ih hStep'

end Run

/-! ## Simulation -/

/-- Every step from related states on the left is matched by one on the right with the
same input, whose outputs stand for those on the left. -/
def Simulates (step : Step σ ι ω) (step' : Step τ ι ω') (R : σ → τ → Prop)
    (O : List ω → List ω' → Prop) : Prop :=
  ∀ s t i o s', R s t → step s i o s' → ∃ o' t', step' t i o' t' ∧ R s' t' ∧ O o o'

theorem Simulates.run {step : Step σ ι ω} {step' : Step τ ι ω'} {R : σ → τ → Prop}
    {O : List ω → List ω' → Prop} (h : Simulates step step' R O) {s s' : σ} {t : τ} (hStart : R s t)
    {history : List (Entry σ ι ω)} (hRun : Run step s history s') :
    ∃ history' t', Run step' t history' t' ∧ R s' t' ∧
      List.Forall₂ (fun e e' => e.input = e'.input ∧ R e.before e'.before ∧ R e.after e'.after ∧
        O e.outputs e'.outputs) history history' := by
  induction hRun with
  | nil => exact ⟨[], t, .nil, hStart, .nil⟩
  | @cons e older hOlder hStep ih =>
    obtain ⟨history', t', hRun', hRelated, hEntries⟩ := ih
    obtain ⟨o', t'', hStep', hRelated', hOutputs⟩ := h _ _ _ _ _ hRelated hStep
    exact ⟨⟨t', e.input, o', t''⟩ :: history', t'', .cons hRun' hStep', hRelated',
      .cons ⟨rfl, hRelated, hRelated', hOutputs⟩ hEntries⟩

/-! ## Running a partial function -/

/-- The history that a list of inputs leads to. -/
def trace (step : σ → ι → Option (σ × List ω)) (s : σ) :
    List ι → List (Entry σ ι ω) → Option (List (Entry σ ι ω) × σ)
  | [], older => some (older, s)
  | i :: inputs, older =>
    match step s i with
    | none => none
    | some (s', o) => trace step s' inputs (⟨s, i, o, s'⟩ :: older)

theorem run_of_trace {step : σ → ι → Option (σ × List ω)} {start s s' : σ} {inputs : List ι}
    {older history : List (Entry σ ι ω)} (hOlder : Run (partialStep step) start older s)
    (h : trace step s inputs older = some (history, s')) :
    Run (partialStep step) start history s' := by
  induction inputs generalizing s older with
  | nil =>
    cases h
    exact hOlder
  | cons i inputs ih =>
    unfold trace at h
    split at h
    · cases h
    · rename_i s'' o hStep
      exact ih (Run.cons (e := ⟨s, i, o, s''⟩) hOlder hStep) h

end Transition

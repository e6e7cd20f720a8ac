import Mathlib.Algebra.BigOperators.Group.List.Basic
import Mathlib.Algebra.GroupWithZero.Nat
import SecureCore.Http.Connections
import SecureCore.Interleaving.CompareExchange

/-! # The metrics registry among threads

Each cell of the registry is an atomic of its own. Most updates are one or more fetch_add; the
two that lower a gauge loop around a compare_exchange_weak. The gauges are exact at any moment,
and whenever no call is under way the registry is what the calls, each in one go, make of it. -/

namespace SecureCore

set_option autoImplicit false

open Interleaving

/-! ## Cells -/

inductive MetricCell where
  | httpRequestsInFlight
  | httpConnectionsActive
  | httpConnectionsOpenedTotal
  | httpRequestsTotal
  | httpResponses2xx
  | httpResponses3xx
  | httpResponses4xx
  | httpResponses5xx
  | httpRequestDurationMicrosecondsTotal
  deriving DecidableEq, Repr

namespace MetricCell

def get : MetricCell → MetricsRegistry → Nat
  | httpRequestsInFlight, metrics => metrics.httpRequestsInFlight
  | httpConnectionsActive, metrics => metrics.httpConnectionsActive
  | httpConnectionsOpenedTotal, metrics => metrics.httpConnectionsOpenedTotal
  | httpRequestsTotal, metrics => metrics.httpRequestsTotal
  | httpResponses2xx, metrics => metrics.httpResponses2xx
  | httpResponses3xx, metrics => metrics.httpResponses3xx
  | httpResponses4xx, metrics => metrics.httpResponses4xx
  | httpResponses5xx, metrics => metrics.httpResponses5xx
  | httpRequestDurationMicrosecondsTotal, metrics => metrics.httpRequestDurationMicrosecondsTotal

def set : MetricCell → Nat → MetricsRegistry → MetricsRegistry
  | httpRequestsInFlight, n, metrics => { metrics with httpRequestsInFlight := n }
  | httpConnectionsActive, n, metrics => { metrics with httpConnectionsActive := n }
  | httpConnectionsOpenedTotal, n, metrics => { metrics with httpConnectionsOpenedTotal := n }
  | httpRequestsTotal, n, metrics => { metrics with httpRequestsTotal := n }
  | httpResponses2xx, n, metrics => { metrics with httpResponses2xx := n }
  | httpResponses3xx, n, metrics => { metrics with httpResponses3xx := n }
  | httpResponses4xx, n, metrics => { metrics with httpResponses4xx := n }
  | httpResponses5xx, n, metrics => { metrics with httpResponses5xx := n }
  | httpRequestDurationMicrosecondsTotal, n, metrics =>
    { metrics with httpRequestDurationMicrosecondsTotal := n }

/-- The cells that may also be lowered. -/
def gauge : MetricCell → Bool
  | httpRequestsInFlight | httpConnectionsActive => true
  | _ => false

@[simp] theorem get_set (cell : MetricCell) (n : Nat) (metrics : MetricsRegistry) :
    cell.get (cell.set n metrics) = n := by
  cases cell <;> rfl

theorem get_set_of_ne {cell other : MetricCell} (h : cell ≠ other) (n : Nat) (metrics : MetricsRegistry) :
    other.get (cell.set n metrics) = other.get metrics := by
  cases cell <;> cases other <;> first | rfl | exact absurd rfl h

theorem ext {metrics metrics' : MetricsRegistry} (h : ∀ cell : MetricCell, cell.get metrics = cell.get metrics') :
    metrics = metrics' := by
  obtain ⟨a, b, c, d, e, f, g, i, j⟩ := metrics
  obtain ⟨a', b', c', d', e', f', g', i', j'⟩ := metrics'
  have hA : a = a' := h .httpRequestsInFlight
  have hB : b = b' := h .httpConnectionsActive
  have hC : c = c' := h .httpConnectionsOpenedTotal
  have hD : d = d' := h .httpRequestsTotal
  have hE : e = e' := h .httpResponses2xx
  have hF : f = f' := h .httpResponses3xx
  have hG : g = g' := h .httpResponses4xx
  have hI : i = i' := h .httpResponses5xx
  have hJ : j = j' := h .httpRequestDurationMicrosecondsTotal
  rw [hA, hB, hC, hD, hE, hF, hG, hI, hJ]

end MetricCell

/-! ## Instructions -/

inductive MetricStep where
  | fetchAdd (cell : MetricCell) (n : Nat)
  | decrement (cell : MetricCell)
  deriving DecidableEq, Repr

namespace MetricStep

def cell : MetricStep → MetricCell
  | fetchAdd cell _ | decrement cell => cell

/-- The loop of request_finished and connection_closed. -/
def decrementLoop (cell : MetricCell) : ExchangeLoop MetricsRegistry Nat :=
  ⟨cell.get, cell.set, fun current => if current != 0 then some (current - 1) else none⟩

def instruction : MetricStep → Instruction MetricsRegistry Nat
  | fetchAdd cell n => .modify (fun metrics => cell.set (cell.get metrics + n) metrics)
  | decrement cell => .exchange (decrementLoop cell)

def apply (metrics : MetricsRegistry) (step : MetricStep) : MetricsRegistry := (step.instruction.effect metrics).1

/-- What the step makes of the value of a cell. -/
def valueAfter (cell : MetricCell) (value : Nat) : MetricStep → Nat
  | fetchAdd cell' n => if cell' = cell then value + n else value
  | decrement cell' => if cell' = cell then value - 1 else value

theorem valueAfter_of_ne {cell : MetricCell} {step : MetricStep} (h : step.cell ≠ cell) (value : Nat) :
    valueAfter cell value step = value := by
  cases step with
  | fetchAdd cell' n => exact if_neg h
  | decrement cell' => exact if_neg h

/-- The loop does not lower a gauge that stands at zero. -/
theorem apply_decrement (metrics : MetricsRegistry) (cell : MetricCell) : apply metrics (decrement cell) =
    if cell.get metrics != 0 then cell.set (cell.get metrics - 1) metrics else metrics := by
  unfold apply instruction
  cases hZero : (cell.get metrics != 0) with
  | true => rw [@Instruction.effect_of_some _ _ (decrementLoop cell) _ _ (if_pos hZero), if_pos rfl]; rfl
  | false =>
    have hEnd : (decrementLoop cell).next ((decrementLoop cell).load metrics) = none := by
      change (if (cell.get metrics != 0) = true then _ else _) = _
      rw [hZero]
      rfl
    rw [Instruction.effect_of_none hEnd]
    rfl

theorem get_apply (cell : MetricCell) (metrics : MetricsRegistry) (step : MetricStep) :
    cell.get (apply metrics step) = valueAfter cell (cell.get metrics) step := by
  by_cases hCell : step.cell = cell
  · subst hCell
    cases step with
    | fetchAdd cell n =>
      change cell.get (cell.set _ metrics) = if cell = cell then _ else _
      rw [if_pos rfl, MetricCell.get_set]
      rfl
    | decrement cell =>
      change cell.get (apply metrics (decrement cell)) = if cell = cell then _ else _
      rw [if_pos rfl, apply_decrement]
      split
      · exact cell.get_set _ _
      · rename_i hZero
        rw [bne_iff_ne, ne_eq, not_not] at hZero
        change cell.get metrics = cell.get metrics - 1
        rw [hZero]
  · rw [valueAfter_of_ne hCell]
    cases step with
    | fetchAdd cell' n => exact MetricCell.get_set_of_ne hCell _ _
    | decrement cell' =>
      rw [apply_decrement]
      split
      · exact MetricCell.get_set_of_ne hCell _ _
      · rfl

theorem get_foldl (cell : MetricCell) (metrics : MetricsRegistry) (steps : List MetricStep) :
    cell.get (steps.foldl apply metrics) = steps.foldl (valueAfter cell) (cell.get metrics) := by
  induction steps generalizing metrics with
  | nil => rfl
  | cons step steps ih => rw [List.foldl_cons, List.foldl_cons, ih, get_apply]

theorem foldl_valueAfter_of_ne {cell : MetricCell} {steps : List MetricStep} (h : ∀ step ∈ steps, step.cell ≠ cell)
    (value : Nat) : steps.foldl (valueAfter cell) value = value := by
  induction steps generalizing value with
  | nil => rfl
  | cons step steps ih =>
    rw [List.foldl_cons, valueAfter_of_ne (h step List.mem_cons_self)]
    exact ih (fun other hOther => h other (List.mem_cons_of_mem _ hOther)) value

/-- How much the step adds to a cell. -/
def amount (cell : MetricCell) : MetricStep → Nat
  | fetchAdd cell' n => if cell' = cell then n else 0
  | decrement _ => 0

/-- A cell that is never lowered adds up what comes in. -/
theorem foldl_valueAfter_counter {cell : MetricCell} {steps : List MetricStep}
    (h : ∀ step ∈ steps, step ≠ decrement cell) (value : Nat) :
    steps.foldl (valueAfter cell) value = value + (steps.map (amount cell)).sum := by
  induction steps generalizing value with
  | nil => rfl
  | cons step steps ih =>
    rw [List.foldl_cons, ih (fun other hOther => h other (List.mem_cons_of_mem _ hOther)), List.map_cons,
      List.sum_cons, ← Nat.add_assoc]
    congr 1
    cases step with
    | fetchAdd cell' n =>
      change (if cell' = cell then value + n else value) = value + if cell' = cell then n else 0
      split <;> rfl
    | decrement cell' =>
      refine valueAfter_of_ne ?_ value
      rintro rfl
      exact h (decrement cell') List.mem_cons_self rfl

end MetricStep

/-! ## Calls -/

namespace MetricUpdate

/-- The counter of the class of a status. -/
def responseCell (statusCode : Nat) : Option MetricCell :=
  if 200 ≤ statusCode && statusCode < 300 then some .httpResponses2xx
  else if 300 ≤ statusCode && statusCode < 400 then some .httpResponses3xx
  else if 400 ≤ statusCode && statusCode < 500 then some .httpResponses4xx
  else if 500 ≤ statusCode && statusCode < 600 then some .httpResponses5xx
  else none

/-- The first instruction and the others. -/
def program : MetricUpdate → MetricStep × List MetricStep
  | connectionOpened => (.fetchAdd .httpConnectionsActive 1, [.fetchAdd .httpConnectionsOpenedTotal 1])
  | connectionClosed => (.decrement .httpConnectionsActive, [])
  | requestStarted => (.fetchAdd .httpRequestsInFlight 1, [])
  | requestFinished => (.decrement .httpRequestsInFlight, [])
  | httpResponse statusCode elapsed =>
    (.fetchAdd .httpRequestsTotal 1,
      (responseCell statusCode).toList.map (fun cell => .fetchAdd cell 1) ++
        if 0 < elapsed then [.fetchAdd .httpRequestDurationMicrosecondsTotal elapsed] else [])

def steps (update : MetricUpdate) : List MetricStep := update.program.1 :: update.program.2

theorem responseCell_not_gauge {statusCode : Nat} {cell : MetricCell} (h : responseCell statusCode = some cell) :
    cell.gauge = false := by
  unfold responseCell at h
  split at h
  · rw [← Option.some.inj h]; rfl
  · split at h
    · rw [← Option.some.inj h]; rfl
    · split at h
      · rw [← Option.some.inj h]; rfl
      · split at h
        · rw [← Option.some.inj h]; rfl
        · cases h

theorem gauge_of_mem_rest {update : MetricUpdate} {step : MetricStep} (h : step ∈ update.program.2) :
    step.cell.gauge = false := by
  cases update with
  | connectionOpened =>
    rw [List.mem_singleton.mp h]
    rfl
  | connectionClosed => cases h
  | requestStarted => cases h
  | requestFinished => cases h
  | httpResponse statusCode elapsed =>
    rcases List.mem_append.mp h with hClass | hDuration
    · obtain ⟨cell, hCell, rfl⟩ := List.mem_map.mp hClass
      exact responseCell_not_gauge (Option.mem_toList.mp hCell)
    · split at hDuration
      · rw [List.mem_singleton.mp hDuration]
        rfl
      · cases hDuration

/-- Only gauges are lowered. -/
theorem gauge_of_decrement {update : MetricUpdate} {cell : MetricCell} (h : .decrement cell ∈ update.steps) :
    cell.gauge = true := by
  rcases List.mem_cons.mp h with hFirst | hRest
  · cases update with
    | connectionClosed => rw [MetricStep.decrement.inj hFirst]; rfl
    | requestFinished => rw [MetricStep.decrement.inj hFirst]; rfl
    | connectionOpened => cases hFirst
    | requestStarted => cases hFirst
    | httpResponse statusCode elapsed => cases hFirst
  · cases update with
    | connectionOpened => cases List.mem_singleton.mp hRest
    | connectionClosed => cases hRest
    | requestStarted => cases hRest
    | requestFinished => cases hRest
    | httpResponse statusCode elapsed =>
      rcases List.mem_append.mp hRest with hClass | hDuration
      · obtain ⟨cell', -, hStep⟩ := List.mem_map.mp hClass
        cases hStep
      · split at hDuration
        · cases List.mem_singleton.mp hDuration
        · cases hDuration

theorem recordHttpResponse_eq (metrics : MetricsRegistry) (statusCode elapsed : Nat) :
    metrics.recordHttpResponse statusCode elapsed =
      MetricStep.apply
        (((responseCell statusCode).toList.map (fun cell => MetricStep.fetchAdd cell 1)).foldl MetricStep.apply
          (MetricStep.apply metrics (.fetchAdd .httpRequestsTotal 1)))
        (.fetchAdd .httpRequestDurationMicrosecondsTotal elapsed) := by
  unfold MetricsRegistry.recordHttpResponse responseCell
  cases (decide (200 ≤ statusCode) && decide (statusCode < 300)) with
  | true => rfl
  | false =>
    cases (decide (300 ≤ statusCode) && decide (statusCode < 400)) with
    | true => rfl
    | false =>
      cases (decide (400 ≤ statusCode) && decide (statusCode < 500)) with
      | true => rfl
      | false =>
        cases (decide (500 ≤ statusCode) && decide (statusCode < 600)) with
        | true => rfl
        | false => rfl

/-- The instructions of a call, done at once, are the call. -/
theorem foldl_steps (metrics : MetricsRegistry) (update : MetricUpdate) :
    update.steps.foldl MetricStep.apply metrics = metrics.update update := by
  cases update with
  | connectionOpened => rfl
  | connectionClosed => exact MetricStep.apply_decrement metrics .httpConnectionsActive
  | requestStarted => rfl
  | requestFinished => exact MetricStep.apply_decrement metrics .httpRequestsInFlight
  | httpResponse statusCode elapsed =>
    have hDuration : ∀ metrics' : MetricsRegistry,
        (if 0 < elapsed then [MetricStep.fetchAdd .httpRequestDurationMicrosecondsTotal elapsed] else []).foldl
          MetricStep.apply metrics' =
            MetricStep.apply metrics' (.fetchAdd .httpRequestDurationMicrosecondsTotal elapsed) := by
      intro metrics'
      cases elapsed with
      | zero => rfl
      | succ n => rfl
    change _ = metrics.recordHttpResponse statusCode elapsed
    rw [recordHttpResponse_eq, ← hDuration, ← List.foldl_append]
    rfl

end MetricUpdate

/-! ## Threads -/

/-- An instruction within its call. -/
structure MetricLabel where
  call : MetricUpdate
  begins : Bool
  step : MetricStep
  deriving DecidableEq, Repr

def MetricUpdate.labels (update : MetricUpdate) : List MetricLabel :=
  ⟨update, true, update.program.1⟩ :: update.program.2.map (fun step => ⟨update, false, step⟩)

namespace MetricLabel

def code (label : MetricLabel) : Instruction MetricsRegistry Nat := label.step.instruction

/-- The steps that the call of the label takes in all, if the label begins it. -/
def begun (label : MetricLabel) : List MetricStep := if label.begins then label.call.steps else []

def call? (label : MetricLabel) : Option MetricUpdate := if label.begins then some label.call else none

variable {label : MetricLabel}

/-- A call changes a gauge in its first step or not at all. -/
theorem foldl_begun (h : label ∈ label.call.labels) {cell : MetricCell} (hGauge : cell.gauge = true) (value : Nat) :
    label.begun.foldl (MetricStep.valueAfter cell) value = MetricStep.valueAfter cell value label.step := by
  have hOther : ∀ step ∈ label.call.program.2, step.cell ≠ cell := by
    rintro step hStep rfl
    rw [MetricUpdate.gauge_of_mem_rest hStep] at hGauge
    cases hGauge
  rcases List.mem_cons.mp h with hFirst | hRest
  · rw [hFirst]
    change (label.call.program.1 :: label.call.program.2).foldl _ value = _
    rw [List.foldl_cons]
    exact MetricStep.foldl_valueAfter_of_ne hOther _
  · obtain ⟨step, hStep, hLabel⟩ := List.mem_map.mp hRest
    rw [← hLabel]
    change value = MetricStep.valueAfter cell value step
    exact (MetricStep.valueAfter_of_ne (hOther step hStep) value).symm

theorem gauge_of_decrement (h : label ∈ label.call.labels) {cell : MetricCell} (hStep : label.step = .decrement cell) :
    cell.gauge = true := by
  have hMem : .decrement cell ∈ label.call.steps → cell.gauge = true := MetricUpdate.gauge_of_decrement
  apply hMem
  rw [← hStep]
  rcases List.mem_cons.mp h with hFirst | hRest
  · rw [hFirst]
    exact List.mem_cons_self
  · obtain ⟨step, hMem, hLabel⟩ := List.mem_map.mp hRest
    rw [← hLabel]
    exact List.mem_cons_of_mem _ hMem

/-- Over the labels of a call, what the steps add is what the call adds. -/
theorem sum_labels (cell : MetricCell) (update : MetricUpdate) :
    (update.labels.map (fun label => MetricStep.amount cell label.step)).sum =
      (update.labels.map (fun label => (label.begun.map (MetricStep.amount cell)).sum)).sum := by
  have hRest : ∀ steps : List MetricStep,
      ((steps.map (fun step => (⟨update, false, step⟩ : MetricLabel))).map
        (fun label => (label.begun.map (MetricStep.amount cell)).sum)).sum = 0 := by
    intro steps
    induction steps with
    | nil => rfl
    | cons step steps ih => rw [List.map_cons, List.map_cons, List.sum_cons, ih]; rfl
  unfold MetricUpdate.labels
  rw [List.map_cons, List.map_cons, List.sum_cons, List.sum_cons, hRest, List.map_map]
  rfl

end MetricLabel

/-- A sum over what threads have done can be taken thread by thread. -/
theorem sum_eq_of_threads {τ α : Type} [DecidableEq τ] {thread : α → τ} {f g : α → Nat} {items : List α}
    (h : ∀ t, ((items.filter (fun a => thread a = t)).map f).sum = ((items.filter (fun a => thread a = t)).map g).sum) :
    (items.map f).sum = (items.map g).sum := by
  generalize hLength : items.length = n
  induction n using Nat.strongRecOn generalizing items with
  | ind n ih =>
    cases items with
    | nil => rfl
    | cons a items =>
      have hSplit : ∀ k : α → Nat, ((a :: items).map k).sum =
          (((a :: items).filter (fun b => thread b = thread a)).map k).sum +
            (((a :: items).filter (fun b => !decide (thread b = thread a))).map k).sum := by
        intro k
        rw [← List.sum_append, ← List.map_append]
        exact (List.Perm.map k (List.filter_append_perm _ _)).symm.sum_eq
      rw [hSplit f, hSplit g, h (thread a)]
      congr 1
      refine ih _ ?_ (fun t => ?_) rfl
      · rw [← hLength, List.filter_cons]
        simp only [decide_true, Bool.not_true, Bool.false_eq_true, if_false, List.length_cons]
        exact Nat.lt_succ_of_le (List.length_filter_le _ _)
      · rw [List.filter_filter]
        by_cases hThread : t = thread a
        · subst hThread
          have hNone :
              (a :: items).filter (fun b => decide (thread b = thread a) && !decide (thread b = thread a)) = [] := by
            rw [List.filter_eq_nil_iff]
            intro b _
            simp
          rw [hNone]
          rfl
        · have hAll : (a :: items).filter (fun b => decide (thread b = t) && !decide (thread b = thread a)) =
              (a :: items).filter (fun b => decide (thread b = t)) := by
            apply List.filter_congr
            intro b _
            by_cases hB : thread b = t
            · simp [hB, hThread]
            · simp [hB]
          rw [hAll]
          exact h t

abbrev MetricThreads (τ : Type) := Threads τ MetricsRegistry Nat MetricLabel

namespace MetricThreads

variable {τ : Type}

/-- Threads that are to make these calls, one after the other. -/
def started (calls : τ → List MetricUpdate) (metrics : MetricsRegistry) : MetricThreads τ :=
  Threads.started (fun t => (calls t).flatMap MetricUpdate.labels) metrics

/-- The calls that have taken their first step, in the order of these steps. -/
def begun (threads : MetricThreads τ) : List MetricUpdate :=
  threads.completed.filterMap (fun c => c.label.call?)

/-- Those of one thread. -/
def begunBy [DecidableEq τ] (threads : MetricThreads τ) (t : τ) : List MetricUpdate :=
  (threads.completed.filter (fun c => c.thread = t)).filterMap (fun c => c.label.call?)

def steps (threads : MetricThreads τ) : List MetricStep := threads.completed.map (fun c => c.label.step)

theorem foldl_updateAll (metrics : MetricsRegistry) (updates : List MetricUpdate) :
    metrics.updateAll updates = (updates.flatMap MetricUpdate.steps).foldl MetricStep.apply metrics := by
  unfold MetricsRegistry.updateAll
  induction updates generalizing metrics with
  | nil => rfl
  | cons update updates ih =>
    rw [List.foldl_cons, List.flatMap_cons, List.foldl_append, MetricUpdate.foldl_steps, ih]

variable {metrics : MetricsRegistry}

theorem shared_eq {completed : List (Completed τ MetricLabel)} {shared : MetricsRegistry}
    (h : Threads.Replays MetricLabel.code metrics completed shared) :
    shared = (completed.map (fun c => c.label.step)).foldl MetricStep.apply metrics := by
  induction h with
  | nil => rfl
  | snoc _ thread label ih =>
    rw [List.map_append, List.foldl_append, ← ih]
    rfl

theorem flatMap_begun (completed : List (Completed τ MetricLabel)) :
    (completed.filterMap (fun c => c.label.call?)).flatMap MetricUpdate.steps =
      completed.flatMap (fun c => c.label.begun) := by
  induction completed with
  | nil => rfl
  | cons c completed ih =>
    rw [List.flatMap_cons, ← ih]
    cases hBegins : c.label.begins with
    | true =>
      have hCall : c.label.call? = some c.label.call := if_pos hBegins
      have hBegun : c.label.begun = c.label.call.steps := if_pos hBegins
      simp only [List.filterMap_cons, hCall, List.flatMap_cons, hBegun]
    | false =>
      have hCall : c.label.call? = none := if_neg (by rw [hBegins]; exact Bool.false_ne_true)
      have hBegun : c.label.begun = [] := if_neg (by rw [hBegins]; exact Bool.false_ne_true)
      simp only [List.filterMap_cons, hCall, hBegun, List.nil_append]

theorem foldl_gauge {completed : List (Completed τ MetricLabel)}
    (h : ∀ c ∈ completed, c.label ∈ c.label.call.labels) {cell : MetricCell}
    (hGauge : cell.gauge = true) (value : Nat) :
    (completed.map (fun c => c.label.step)).foldl (MetricStep.valueAfter cell) value =
      (completed.flatMap (fun c => c.label.begun)).foldl (MetricStep.valueAfter cell) value := by
  induction completed generalizing value with
  | nil => rfl
  | cons c completed ih =>
    rw [List.map_cons, List.foldl_cons, List.flatMap_cons, List.foldl_append,
      MetricLabel.foldl_begun (h c List.mem_cons_self) hGauge]
    exact ih (fun c' hc' => h c' (List.mem_cons_of_mem _ hc')) _

theorem sum_flatMap_labels (cell : MetricCell) (updates : List MetricUpdate) :
    ((updates.flatMap MetricUpdate.labels).map (fun label => MetricStep.amount cell label.step)).sum =
      ((updates.flatMap MetricUpdate.labels).map
        (fun label => (label.begun.map (MetricStep.amount cell)).sum)).sum := by
  induction updates with
  | nil => rfl
  | cons update updates ih =>
    rw [List.flatMap_cons, List.map_append, List.map_append, List.sum_append, List.sum_append, ih,
      MetricLabel.sum_labels]

theorem sum_flatMap_begun (cell : MetricCell) (completed : List (Completed τ MetricLabel)) :
    ((completed.flatMap (fun c => c.label.begun)).map (MetricStep.amount cell)).sum =
      (completed.map (fun c => (c.label.begun.map (MetricStep.amount cell)).sum)).sum := by
  induction completed with
  | nil => rfl
  | cons c completed ih =>
    rw [List.flatMap_cons, List.map_append, List.sum_append, ih, List.map_cons, List.sum_cons]

theorem filterMap_labels (updates : List MetricUpdate) :
    (updates.flatMap MetricUpdate.labels).filterMap MetricLabel.call? = updates := by
  have hRest : ∀ (update : MetricUpdate) (steps : List MetricStep),
      (steps.map (fun step => (⟨update, false, step⟩ : MetricLabel))).filterMap MetricLabel.call? = [] := by
    intro update steps
    induction steps with
    | nil => rfl
    | cons step steps ih => rw [List.map_cons, List.filterMap_cons_none rfl, ih]
  induction updates with
  | nil => rfl
  | cons update updates ih =>
    rw [List.flatMap_cons, List.filterMap_append, ih]
    have hFirst : update.labels.filterMap MetricLabel.call? = [update] := congrArg (update :: ·) (hRest update _)
    rw [hFirst]
    rfl

variable [DecidableEq τ] {calls : τ → List MetricUpdate} {threads : MetricThreads τ}

theorem mem_labels
    (h : Threads.Linearized MetricLabel.code (fun t => (calls t).flatMap MetricUpdate.labels) metrics threads)
    {c : Completed τ MetricLabel} (hc : c ∈ threads.completed) : c.label ∈ c.label.call.labels := by
  have hProgram := h.program c.thread
  have hMem : c.label ∈ (calls c.thread).flatMap MetricUpdate.labels := by
    rw [← hProgram]
    exact List.mem_append_left _ (List.mem_map_of_mem (List.mem_filter.mpr ⟨hc, decide_eq_true rfl⟩))
  obtain ⟨update, -, hLabel⟩ := List.mem_flatMap.mp hMem
  have hCall : c.label.call = update := by
    rcases List.mem_cons.mp hLabel with hFirst | hRest
    · rw [hFirst]
    · obtain ⟨step, -, hEq⟩ := List.mem_map.mp hRest
      rw [← hEq]
  rw [hCall]
  exact hLabel

/-- Threads that have come from the start of their programs to here. -/
abbrev Reached (calls : τ → List MetricUpdate) (metrics : MetricsRegistry) (threads : MetricThreads τ) : Prop :=
  Threads.Linearized MetricLabel.code (fun t => (calls t).flatMap MetricUpdate.labels) metrics threads

/-- A gauge shows what the calls begun make of it, even while some of them are under way. -/
theorem Reached.gauge (h : Reached calls metrics threads) {cell : MetricCell} (hGauge : cell.gauge = true) :
    cell.get threads.shared = cell.get (metrics.updateAll threads.begun) := by
  rw [foldl_updateAll, shared_eq h.replays, MetricStep.get_foldl, MetricStep.get_foldl,
    foldl_gauge (fun _ hc => mem_labels h hc) hGauge]
  unfold begun
  rw [flatMap_begun]

theorem Reached.counter (h : Reached calls metrics threads) (hIdle : ∀ t, threads.todo t = []) {cell : MetricCell}
    (hCounter : cell.gauge = false) : cell.get threads.shared = cell.get (metrics.updateAll threads.begun) := by
  have hSteps : ∀ step ∈ threads.completed.map (fun c => c.label.step), step ≠ .decrement cell := by
    rintro step hStep rfl
    obtain ⟨c, hc, hLabel⟩ := List.mem_map.mp hStep
    rw [MetricLabel.gauge_of_decrement (mem_labels h hc) hLabel] at hCounter
    cases hCounter
  have hBegun : ∀ step ∈ threads.begun.flatMap MetricUpdate.steps, step ≠ .decrement cell := by
    rintro step hStep rfl
    obtain ⟨update, -, hUpdate⟩ := List.mem_flatMap.mp hStep
    rw [MetricUpdate.gauge_of_decrement hUpdate] at hCounter
    cases hCounter
  rw [foldl_updateAll, shared_eq h.replays, MetricStep.get_foldl, MetricStep.get_foldl,
    MetricStep.foldl_valueAfter_counter hSteps, MetricStep.foldl_valueAfter_counter hBegun]
  unfold begun
  rw [flatMap_begun, sum_flatMap_begun, List.map_map]
  congr 1
  refine @sum_eq_of_threads τ _ _ Completed.thread _ _ _ ?_
  intro t
  have hProgram := h.program t
  rw [hIdle t, List.append_nil] at hProgram
  have hSum := sum_flatMap_labels cell (calls t)
  rw [← hProgram, List.map_map, List.map_map] at hSum
  exact hSum

theorem Reached.begunBy (h : Reached calls metrics threads) {t : τ} (hIdle : threads.todo t = []) :
    threads.begunBy t = calls t := by
  have hProgram := h.program t
  rw [hIdle, List.append_nil] at hProgram
  unfold MetricThreads.begunBy
  rw [← filterMap_labels (calls t), ← hProgram, List.filterMap_map]
  rfl

end MetricThreads

/-- Whatever the schedule of the instructions and whichever exchanges fail: the gauges are at any
moment those of the calls begun so far, made one after the other in one go. Once all threads are
idle, so is the whole registry, and each thread has made its calls in its order. Every thread
that is left alone becomes idle. -/
theorem metrics_linearizable {τ : Type} [DecidableEq τ] (calls : τ → List MetricUpdate) (metrics : MetricsRegistry)
    (schedule : List (τ × Bool)) :
    let threads : MetricThreads τ := (MetricThreads.started calls metrics).run MetricLabel.code schedule
    let atomic := metrics.updateAll threads.begun
    threads.shared.httpRequestsInFlight = atomic.httpRequestsInFlight ∧
      threads.shared.httpConnectionsActive = atomic.httpConnectionsActive ∧
      ((∀ t, threads.todo t = []) → threads.shared = atomic ∧ ∀ t, threads.begunBy t = calls t) ∧
      ∀ t, ∃ n, (threads.run MetricLabel.code (List.replicate n (t, false))).todo t = [] := by
  intro threads atomic
  have hReached : MetricThreads.Reached calls metrics threads :=
    (Threads.linearized_started (fun t => (calls t).flatMap MetricUpdate.labels) metrics).run schedule
  have hInFlight : MetricCell.httpRequestsInFlight.get threads.shared =
      MetricCell.httpRequestsInFlight.get atomic := hReached.gauge rfl
  have hActive : MetricCell.httpConnectionsActive.get threads.shared =
      MetricCell.httpConnectionsActive.get atomic := hReached.gauge rfl
  refine ⟨hInFlight, hActive, ?_, threads.finishes_alone⟩
  intro hIdle
  refine ⟨MetricCell.ext (fun cell => ?_), fun t => hReached.begunBy (hIdle t)⟩
  cases hGauge : cell.gauge with
  | true => exact hReached.gauge hGauge
  | false => exact hReached.counter hIdle hGauge

end SecureCore

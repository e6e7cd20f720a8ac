import SecureCore.Http.ConnectionGauges

/-! # A session that drains

One more request at most is read behind do_drain, because the first response whose sending
starts behind it closes the connection. -/

set_option autoImplicit false

namespace SecureCore

open Transition

variable {json : JsonLibrary}

/-! ## Turns behind do_drain -/

namespace Stage

/-- How many requests may still be read at a stage once the session drains. -/
def budget : Stage → Nat
  | .fresh | .greeting | .listening | .answering false => 1
  | _ => 0

/-- Whether the last response is being written, or has been. -/
def final : Stage → Bool
  | .answering true | .refusing | .leaving | .closed => true
  | _ => false

end Stage

/-- The request that a session takes, unless it is stopped. -/
def requestRead (stopped : Bool) : SessionEvent → Option HttpMessage
  | .read (.ok request) _ => if stopped then none else some request
  | _ => none

theorem requestRead_other {stopped : Bool} {e : SessionEvent}
    (h : ∀ request met, e ≠ .read (.ok request) met) : requestRead stopped e = none := by
  cases e with
  | read result met =>
    cases result with
    | ok request => exact absurd rfl (h request met)
    | error error => rfl
  | _ => rfl

theorem requestRead_stopped (e : SessionEvent) : requestRead true e = none := by
  cases e with
  | read result met => cases result <;> rfl
  | _ => rfl

def Action.isRead : Action → Bool
  | .readStarted _ _ _ => true
  | _ => false

def Action.isWrite : Action → Bool
  | .writeStarted _ _ => true
  | _ => false

theorem finished_quiet {active : Bool} {action : Action} (h : action ∈ finished active) :
    action.isRead = false ∧ action.isWrite = false := by
  cases active with
  | false => cases h
  | true =>
    cases List.mem_singleton.mp h
    exact ⟨rfl, rfl⟩

theorem disconnected_quiet {active : Bool} {action : Action} (h : action ∈ disconnected active) :
    action.isRead = false ∧ action.isWrite = false := by
  obtain hFinished | hRest := List.mem_append.mp h
  · exact finished_quiet hFinished
  · simp only [List.mem_cons, List.not_mem_nil, or_false] at hRest
    obtain rfl | rfl | rfl := hRest <;> exact ⟨rfl, rfl⟩

section turns

variable {stage stage' : Stage} {d d' : Bool} {e : SessionEvent} {actions : List Action}

theorem completeRequest_draining (response : HttpResponse) :
    (completeRequest true response).keepAlive = false ∧ (completeRequest true response).needEof = true := by
  have hLast : (completeRequest true response).keepAlive = false :=
    HttpResponse.keepAlive_setKeepAlive response false
  exact ⟨hLast, HttpResponse.needEof_of_not_keepAlive hLast⟩

/-- A read uses the budget up. -/
theorem turn_budget (h : Turn json stage true e actions stage' d') :
    (requestRead (stage = .closed) e).toList.length + stage'.budget ≤ stage.budget := by
  cases h with
  | late =>
    change (requestRead true e).toList.length + 0 ≤ 0
    rw [requestRead_stopped]
    exact le_rfl
  | left hOpen hEvent =>
    rw [requestRead_other hEvent]
    exact Nat.zero_le _
  | answered hSent =>
    rw [hSent, (completeRequest_draining _).2]
    exact le_rfl
  | restarted hStage => exact (Nat.zero_add _).le
  | drained hStage => exact (Nat.zero_add _).le
  | protested hError => exact Nat.zero_le 1
  | parted hStage => exact Nat.zero_le _
  | _ => exact le_rfl

/-- Behind the last response nothing is read or written. -/
theorem turn_final (h : Turn json stage d e actions stage' d') (hFinal : stage.final = true) :
    stage'.final = true ∧ ∀ action ∈ actions, action.isRead = false ∧ action.isWrite = false := by
  cases h with
  | restarted hStage => exact ⟨hFinal, nofun⟩
  | drained hStage => exact ⟨hFinal, nofun⟩
  | late => exact ⟨hFinal, nofun⟩
  | left hOpen hEvent => exact ⟨rfl, fun action hAction => disconnected_quiet hAction⟩
  | parted hStage =>
    constructor
    · rfl
    · intro action hAction
      obtain hFinished | hRest := List.mem_append.mp hAction
      · exact finished_quiet hFinished
      · cases List.mem_singleton.mp hRest
        exact ⟨rfl, rfl⟩
  | _ => cases hFinal

/-- A response whose sending starts while the session drains is the last one. -/
theorem turn_writes (h : Turn json stage true e actions stage' d') {response : HttpResponse} {timeout : Nat}
    (hWrite : .writeStarted response timeout ∈ actions) :
    response.keepAlive = false ∧ stage'.final = true ∧ ∀ action ∈ actions, action.isRead = false := by
  cases h with
  | left hOpen hEvent => exact absurd (disconnected_quiet hWrite).2 (by simp [Action.isWrite])
  | overloaded hAllowed hResult hLast =>
    simp only [List.mem_cons, reduceCtorEq, Action.writeStarted.injEq, List.not_mem_nil, or_false,
      false_or] at hWrite
    exact ⟨hWrite.1 ▸ hLast, rfl, by simp [Action.isRead]⟩
  | rejected hForbidden hError =>
    simp only [List.mem_cons, reduceCtorEq, Action.writeStarted.injEq, List.not_mem_nil, or_false,
      false_or] at hWrite
    exact ⟨hWrite.1 ▸ hError.last, rfl, by simp [Action.isRead]⟩
  | protested hError =>
    simp only [List.mem_cons, reduceCtorEq, Action.writeStarted.injEq, List.not_mem_nil, or_false,
      false_or] at hWrite
    refine ⟨hWrite.1 ▸ ?_, rfl, by simp [Action.isRead]⟩
    exact hError.elim FinalError.last FinalError.last
  | answered hSent =>
    simp only [List.mem_cons, Action.writeStarted.injEq, List.not_mem_nil, or_false] at hWrite
    rw [hWrite.1, hSent]
    obtain ⟨hLast, hEof⟩ := completeRequest_draining (completeRequest true _)
    rw [hEof]
    exact ⟨hLast, rfl, by simp [Action.isRead]⟩
  | parted hStage =>
    obtain hFinished | hRest := List.mem_append.mp hWrite
    · exact absurd (finished_quiet hFinished).2 (by simp [Action.isWrite])
    · simp at hRest
  | _ => simp at hWrite

/-- A request read while the session drains is submitted if it asks for the state of the
server, and refused otherwise. -/
theorem turn_admits {request : HttpMessage} {met : Surrounding}
    (h : Turn json stage true (.read (.ok request) met) actions stage' d') (hOpen : stage ≠ .closed) :
    (allowedDuringDrain request = true ∧ ∃ task result, .submitted task result ∈ actions) ∨
      (∀ task result, .submitted task result ∉ actions) ∧
        ∃ response timeout, .writeStarted response timeout ∈ actions ∧
          FinalError json 503 "server_shutting_down" response := by
  cases h with
  | asked hAllowed => exact .inl ⟨hAllowed rfl, _, _, List.mem_cons_of_mem _ List.mem_cons_self⟩
  | overloaded hAllowed hResult hLast =>
    exact .inl ⟨hAllowed rfl, _, _, List.mem_cons_of_mem _ List.mem_cons_self⟩
  | rejected hForbidden hError =>
    exact .inr ⟨by simp, _, _, List.mem_cons_of_mem _ (List.mem_cons_of_mem _ List.mem_cons_self), hError⟩
  | late => exact absurd rfl hOpen
  | left hOpen hEvent => exact absurd rfl (hEvent request met)

theorem turn_drains (h : Turn json stage true e actions stage' d') : d' = true ∨ stage' = .closed := by
  cases h <;> simp

theorem turn_closed (h : Turn json .closed d e actions stage' d') : stage' = .closed ∧ actions = [] := by
  cases h with
  | restarted hStage => exact ⟨rfl, rfl⟩
  | drained hStage => exact absurd rfl hStage.2.2
  | late => exact ⟨rfl, rfl⟩
  | left hOpen hEvent => exact absurd rfl hOpen
  | parted hStage => cases hStage

end turns

/-! ## Runs behind do_drain -/

abbrev SessionHistory := List (Entry ServerSession SessionEvent Action)

def requestsRead (history : SessionHistory) : List HttpMessage :=
  history.filterMap (fun e => requestRead e.before.state.stopped e.input)

/-- The path of a request, without its query. -/
def requestPath (request : HttpMessage) : List Char := request.target.takeWhile (fun c => c != '?')

/-- What holds of a session from do_drain on. -/
structure DrainObeyed (json : JsonLibrary) (later : SessionHistory) : Prop where
  single : (requestsRead later).length ≤ 1
  admitted : ∀ e ∈ later, ∀ request met, e.input = .read (.ok request) met →
    e.before.state.stopped = false →
      ((requestPath request = "/ready".toList ∨ requestPath request = "/metrics".toList) ∧
        ∃ task result, .submitted task result ∈ e.outputs) ∨
      (∀ task result, .submitted task result ∉ e.outputs) ∧
        ∃ response timeout, .writeStarted response timeout ∈ e.outputs ∧
          FinalError json 503 "server_shutting_down" response
  last : ∀ response timeout, .writeStarted response timeout ∈ outputs later → response.keepAlive = false
  /-- Behind the start of a write, in the same handler or later, no read is started. -/
  silent : ∀ newer e older, later = newer ++ e :: older →
    (∃ response timeout, .writeStarted response timeout ∈ e.outputs) →
      ∀ action ∈ e.outputs ++ outputs newer, action.isRead = false

namespace ServerSession

/-- A session that drains, or is over. -/
def Drains (stage : Stage) (session : ServerSession) : Prop :=
  session.At stage ∧ (session.state.draining = true ∨ stage = .closed)

section runs

variable {limits : HttpLimits} {stage : Stage} {session session' : ServerSession}

theorem Drains.turn (hJson : json.Documented) (h : Drains stage session) {e : SessionEvent}
    {actions : List Action} (hStep : session.step json limits e = some (session', actions)) :
    ∃ stage', Drains stage' session' ∧
      (stage ≠ .closed → Turn json stage true e actions stage' session'.state.draining) ∧
      (stage = .closed → stage' = .closed ∧ actions = []) := by
  obtain ⟨hAt, hDraining⟩ := h
  obtain ⟨stage', hAt', hTurn⟩ := step_turn hJson hAt hStep
  obtain rfl | hOpen := eq_or_ne stage .closed
  · obtain ⟨rfl, rfl⟩ := turn_closed hTurn
    exact ⟨.closed, ⟨hAt', .inr rfl⟩, fun h => absurd rfl h, fun _ => ⟨rfl, rfl⟩⟩
  · rw [hDraining.resolve_right hOpen] at hTurn
    exact ⟨stage', ⟨hAt', turn_drains hTurn⟩, fun _ => hTurn, fun h => absurd h hOpen⟩

theorem Drains.run (hJson : json.Documented) (h : Drains stage session) {history : SessionHistory}
    (hRun : Run (partialStep (step json limits)) session history session') :
    ∃ stage', Drains stage' session' ∧ (requestsRead history).length + stage'.budget ≤ stage.budget := by
  induction hRun with
  | nil => exact ⟨stage, h, (Nat.zero_add _).le⟩
  | @cons e older hOlder hStep ih =>
    obtain ⟨middle, hMiddle, hReads⟩ := ih
    obtain ⟨stage', hDrains, hOpen, hClosed⟩ := hMiddle.turn hJson hStep
    refine ⟨stage', hDrains, ?_⟩
    have hLength : (requestsRead (e :: older)).length =
        (requestRead e.before.state.stopped e.input).toList.length + (requestsRead older).length := by
      simp only [requestsRead, List.filterMap_cons]
      cases requestRead e.before.state.stopped e.input with
      | none => simp
      | some request => simp [Nat.add_comm]
    have hStopped : e.before.state.stopped = decide (middle = .closed) := by
      rw [Bool.eq_iff_iff, decide_eq_true_eq]
      exact hMiddle.1.state.stopped
    obtain rfl | hMiddleOpen := eq_or_ne middle .closed
    · obtain ⟨rfl, -⟩ := hClosed rfl
      rw [hLength, hStopped, decide_eq_true rfl, requestRead_stopped]
      simpa using hReads
    · have hBudget := turn_budget (hOpen hMiddleOpen)
      rw [hLength, hStopped]
      omega

theorem final_run (hJson : json.Documented) (hAt : session.At stage) (hFinal : stage.final = true)
    {history : SessionHistory} (hRun : Run (partialStep (step json limits)) session history session') :
    (∃ stage', session'.At stage' ∧ stage'.final = true) ∧
      ∀ action ∈ outputs history, action.isRead = false := by
  induction hRun with
  | nil => exact ⟨⟨stage, hAt, hFinal⟩, nofun⟩
  | cons hOlder hStep ih =>
    obtain ⟨⟨middle, hMiddle, hMiddleFinal⟩, hQuiet⟩ := ih
    obtain ⟨stage', hAt', hTurn⟩ := step_turn hJson hMiddle hStep
    obtain ⟨hFinal', hActions⟩ := turn_final hTurn hMiddleFinal
    constructor
    · exact ⟨stage', hAt', hFinal'⟩
    · intro action hAction
      obtain hOld | hNew := List.mem_append.mp hAction
      · exact hQuiet action hOld
      · exact (hActions action hNew).1

theorem allowedDuringDrain_iff (request : HttpMessage) : allowedDuringDrain request = true ↔
    requestPath request = "/ready".toList ∨ requestPath request = "/metrics".toList := by
  simp only [allowedDuringDrain, requestPath, Bool.or_eq_true, beq_iff_eq]

theorem run_drained (hJson : json.Documented) (h : Drains stage session) {later : SessionHistory}
    (hRun : Run (partialStep (step json limits)) session later session') : DrainObeyed json later := by
  have hEntry : ∀ newer e older, later = newer ++ e :: older → ∃ stage stage',
      Drains stage e.before ∧ e.after.At stage' ∧ Run (partialStep (step json limits)) e.after newer session' ∧
        (stage ≠ .closed → Turn json stage true e.input e.outputs stage' e.after.state.draining) ∧
        (stage = .closed → stage' = .closed ∧ e.outputs = []) := by
    rintro newer e older rfl
    obtain ⟨hOlder, hStep, hNewer⟩ := hRun.at_entry
    obtain ⟨stage, hDrains, -⟩ := h.run hJson hOlder
    obtain ⟨stage', hDrains', hOpen, hClosed⟩ := hDrains.turn hJson hStep
    exact ⟨stage, stage', hDrains, hDrains'.1, hNewer, hOpen, hClosed⟩
  have hWrite : ∀ newer e older, later = newer ++ e :: older → ∀ response timeout,
      .writeStarted response timeout ∈ e.outputs → response.keepAlive = false ∧
        (∀ action ∈ e.outputs, action.isRead = false) ∧ ∀ action ∈ outputs newer, action.isRead = false := by
    intro newer e older hLater response timeout hMem
    obtain ⟨stage, stage', hDrains, hAfter, hNewer, hOpen, hClosed⟩ := hEntry newer e older hLater
    have hStage : stage ≠ .closed := by
      intro hStage
      rw [(hClosed hStage).2] at hMem
      cases hMem
    obtain ⟨hLast, hFinal, hQuiet⟩ := turn_writes (hOpen hStage) hMem
    exact ⟨hLast, hQuiet, (final_run hJson hAfter hFinal hNewer).2⟩
  constructor
  · obtain ⟨stage', hDrains, hReads⟩ := h.run hJson hRun
    have hBudget : stage.budget ≤ 1 := by
      cases stage with
      | answering closes => cases closes <;> decide
      | _ => decide
    omega
  · intro e he request met hInput hStopped
    obtain ⟨newer, older, hLater⟩ := List.append_of_mem he
    obtain ⟨stage, stage', hDrains, -, -, hOpen, -⟩ := hEntry newer e older hLater
    have hStage : stage ≠ .closed := by
      intro hStage
      rw [hDrains.1.state.stopped.mpr hStage] at hStopped
      cases hStopped
    have hTurn := hOpen hStage
    rw [hInput] at hTurn
    rw [← allowedDuringDrain_iff]
    exact turn_admits hTurn hStage
  · intro response timeout hMem
    obtain ⟨e, he, hOwn⟩ := mem_outputs.mp hMem
    obtain ⟨newer, older, hLater⟩ := List.append_of_mem he
    exact (hWrite newer e older hLater response timeout hOwn).1
  · rintro newer e older hLater ⟨response, timeout, hMem⟩ action hAction
    obtain ⟨-, hOwn, hNewer⟩ := hWrite newer e older hLater response timeout hMem
    exact (List.mem_append.mp hAction).elim (hOwn action) (hNewer action)

end runs

end ServerSession

end SecureCore

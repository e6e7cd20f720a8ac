import SecureCore.Http.TlsAgreement

/-! # The protocol of a session

What holds of every order of events on the strand of one session, for both classes. -/

set_option autoImplicit false

namespace SecureCore

open Transition

variable {json : JsonLibrary} {φ : Type}

/-! ## The dialogue that the client sees -/

inductive Mark where
  | request (message : HttpMessage)
  | response (message : HttpResponse)
  | closed

def requestMark (stopped : Bool) : SessionEvent → List Mark
  | .read (.ok request) _ => if stopped then [] else [.request request]
  | _ => []

def actionMark : Action → Option Mark
  | .writeStarted response _ => some (.response response)
  | .socketClosed => some .closed
  | _ => none

/-- The requests that a session has taken, the responses it has begun to write and the
closing of its socket, oldest first. -/
def marks : List (Entry (Session φ) SessionEvent Action) → List Mark
  | [] => []
  | e :: older =>
    marks older ++ (requestMark e.before.stopped e.input ++ e.outputs.filterMap actionMark)

/-- Who has to speak next. -/
inductive Floor where
  | client
  | server
  | nobody
  | closed
  deriving DecidableEq, Repr

/-- One response for each request, and perhaps one protocol error, until the connection closes. -/
inductive Dialogue : List Mark → Floor → Prop
  | start : Dialogue [] .client
  | request {said : List Mark} {message : HttpMessage} (h : Dialogue said .client) :
      Dialogue (said ++ [.request message]) .server
  | response {said : List Mark} {message : HttpResponse} (h : Dialogue said .server) :
      Dialogue (said ++ [.response message]) .client
  | protocolError {said : List Mark} {message : HttpResponse} (h : Dialogue said .client)
      (hStatus : message.status = 413 ∨ message.status = 431) (hLast : message.keepAlive = false) :
      Dialogue (said ++ [.response message]) .nobody
  | closed {said : List Mark} {floor : Floor} (h : Dialogue said floor) (hOpen : floor ≠ .closed) :
      Dialogue (said ++ [.closed]) .closed

/-- Who has to speak at a stage. -/
def Stage.Gives : Stage → Floor → Prop
  | .working, floor => floor = .server
  | .refusing, floor => floor = .nobody
  | .leaving, floor => floor = .client ∨ floor = .nobody
  | .closed, floor => floor = .closed
  | _, floor => floor = .client

theorem Stage.Gives.ne_closed {stage : Stage} {floor : Floor} (h : stage.Gives floor)
    (hOpen : stage ≠ .closed) : floor ≠ .closed := by
  rintro rfl
  cases stage <;> simp [Stage.Gives] at h hOpen

theorem Stage.Gives.closed_iff {stage : Stage} {floor : Floor} (h : stage.Gives floor) :
    floor = .closed ↔ stage = .closed := by
  constructor
  · rintro rfl
    by_contra hOpen
    exact h.ne_closed hOpen rfl
  · rintro rfl
    exact h

theorem Stage.Gives.server {stage : Stage} (h : stage.Gives .server) : stage = .working := by
  cases stage <;> simp [Stage.Gives] at h ⊢

theorem Stage.Gives.nobody {stage : Stage} (h : stage.Gives .nobody) :
    stage = .refusing ∨ stage = .leaving := by
  cases stage <;> simp [Stage.Gives] at h ⊢

theorem Dialogue.silent {said new : List Mark} {floor : Floor} (h : Dialogue said floor)
    (hNew : new = []) : Dialogue (said ++ new) floor := by
  rw [hNew, List.append_nil]
  exact h

theorem Dialogue.exchange {said : List Mark} (h : Dialogue said .client) (request : HttpMessage)
    (response : HttpResponse) : Dialogue (said ++ [.request request, .response response]) .client := by
  have hBoth : Dialogue (said ++ [.request request] ++ [.response response]) .client :=
    .response (.request h)
  rw [List.append_assoc] at hBoth
  exact hBoth

theorem filterMap_disconnected (active : Bool) :
    (disconnected active).filterMap actionMark = [.closed] := by
  cases active <;> rfl

theorem filterMap_finished (active : Bool) : (finished active).filterMap actionMark = [] := by
  cases active <;> rfl

theorem requestMark_other {stopped : Bool} {e : SessionEvent}
    (h : ∀ request met, e ≠ .read (.ok request) met) : requestMark stopped e = [] := by
  cases e with
  | read result met =>
    cases result with
    | ok request => exact absurd rfl (h request met)
    | error error => rfl
  | _ => rfl

theorem requestMark_stopped (e : SessionEvent) : requestMark true e = [] := by
  cases e with
  | read result met => cases result <;> rfl
  | _ => rfl

/-- Every turn continues the dialogue. -/
theorem turn_dialogue {stage stage' : Stage} {d d' : Bool} {e : SessionEvent} {actions : List Action}
    (h : Turn json stage d e actions stage' d') {said : List Mark} {floor : Floor}
    (hSaid : Dialogue said floor) (hFloor : stage.Gives floor) :
    ∃ floor', Dialogue (said ++ (requestMark (stage = .closed) e ++ actions.filterMap actionMark)) floor' ∧
      stage'.Gives floor' := by
  cases h with
  | opened => exact ⟨floor, hSaid.silent rfl, hFloor⟩
  | greeted => exact ⟨floor, hSaid.silent rfl, hFloor⟩
  | secured => exact ⟨floor, hSaid.silent rfl, hFloor⟩
  | restarted hStage => exact ⟨floor, hSaid.silent rfl, hFloor⟩
  | drained hStage => exact ⟨floor, hSaid.silent rfl, hFloor⟩
  | late =>
    refine ⟨floor, hSaid.silent ?_, hFloor⟩
    exact (List.append_nil _).trans (requestMark_stopped e)
  | left hOpen hEvent =>
    rw [requestMark_other hEvent, filterMap_disconnected]
    exact ⟨.closed, hSaid.closed (hFloor.ne_closed hOpen), rfl⟩
  | asked hAllowed =>
    cases hFloor
    exact ⟨.server, hSaid.request, rfl⟩
  | overloaded hAllowed hResult hLast =>
    cases hFloor
    exact ⟨.client, hSaid.exchange _ _, rfl⟩
  | rejected hForbidden hError =>
    cases hFloor
    exact ⟨.client, hSaid.exchange _ _, rfl⟩
  | protested hError =>
    cases hFloor
    obtain hError | hError := hError
    · exact ⟨.nobody, hSaid.protocolError (.inl hError.status) hError.last, rfl⟩
    · exact ⟨.nobody, hSaid.protocolError (.inr hError.status) hError.last, rfl⟩
  | answered hSent =>
    cases hFloor
    exact ⟨.client, hSaid.response, rfl⟩
  | continued => exact ⟨floor, hSaid.silent rfl, hFloor⟩
  | parted hStage =>
    refine ⟨floor, hSaid.silent ?_, ?_⟩
    · rw [List.filterMap_append, filterMap_finished]
      rfl
    · cases stage <;> simp [Stage.Gives, Stage.operation] at hStage hFloor ⊢ <;> simp [hFloor]

/-! ## What a stop does -/

def Stage.over (stage : Stage) : Nat := if stage = .closed then 1 else 0

def Stage.asked (stage : Stage) : Nat := if stage.active then 1 else 0

def stopActions : List Action := [.metric .connectionClosed, .socketClosed, .removed]

theorem count_disconnected {action : Action} (h : action ∈ stopActions) (active : Bool) :
    (disconnected active).count action = 1 := by
  simp only [stopActions, List.mem_cons, List.not_mem_nil, or_false] at h
  obtain rfl | rfl | rfl := h <;> cases active <;> rfl

theorem count_finished {action : Action} (h : action ∈ stopActions) (active : Bool) :
    (finished active).count action = 0 := by
  simp only [stopActions, List.mem_cons, List.not_mem_nil, or_false] at h
  obtain rfl | rfl | rfl := h <;> cases active <;> rfl

/-- The effects of a stop happen in the turn that closes the session, each once. -/
theorem turn_stop {stage stage' : Stage} {d d' : Bool} {e : SessionEvent} {actions : List Action}
    (h : Turn json stage d e actions stage' d') {action : Action} (hAction : action ∈ stopActions) :
    actions.count action + stage.over = stage'.over := by
  cases h with
  | left hOpen hEvent =>
    rw [count_disconnected hAction, Stage.over, if_neg hOpen]
    rfl
  | parted hStage =>
    rw [List.count_append, count_finished hAction, Nat.zero_add]
    simp only [stopActions, List.mem_cons, List.not_mem_nil, or_false] at hAction
    cases stage <;> cases hStage <;> obtain rfl | rfl | rfl := hAction <;> rfl
  | _ =>
    simp only [stopActions, List.mem_cons, List.not_mem_nil, or_false] at hAction
    obtain rfl | rfl | rfl := hAction <;> exact Nat.zero_add _

/-- A request counts as started until its response is written or the session is stopped. -/
theorem turn_requests {stage stage' : Stage} {d d' : Bool} {e : SessionEvent} {actions : List Action}
    (h : Turn json stage d e actions stage' d') :
    actions.count (.metric .requestStarted) + stage.asked =
      actions.count (.metric .requestFinished) + stage'.asked := by
  cases h with
  | left hOpen hEvent =>
    unfold Stage.asked
    cases stage.active <;> rfl
  | parted hStage => cases stage <;> cases hStage <;> rfl
  | _ => rfl

/-- Behind a write that closes the connection the session is closed, or leaves. -/
theorem turn_last {stage stage' : Stage} {d d' : Bool} {error : Option StreamError}
    {actions : List Action} (h : Turn json stage d (.written true error) actions stage' d')
    (hLeaving : stage' ≠ .leaving) : stage' = .closed := by
  cases h with
  | late => rfl
  | left => rfl
  | parted => exact absurd rfl hLeaving

/-! ## Runs -/

/-- Every step of a class of sessions is a turn. -/
structure Keeps (json : JsonLibrary) (step : Step (Session φ) SessionEvent Action)
    (At : Stage → Session φ → Prop) : Prop where
  state : ∀ {stage s}, At stage s → s.toSessionState.At stage
  turn : ∀ {stage s e actions s'}, At stage s → step s e actions s' →
    ∃ stage', At stage' s' ∧ Turn json stage s.draining e actions stage' s'.draining

theorem HttpSession.keeps (hJson : json.Documented) (limits : HttpLimits) (peerIp : List Char) :
    Keeps json (partialStep (HttpSession.step json limits peerIp)) HttpSession.At :=
  ⟨HttpSession.At.state, fun hAt hStep => HttpSession.step_turn hJson hAt hStep⟩

theorem TlsHttpSession.keeps (hJson : json.Documented) (limits : HttpLimits) (peerIp : List Char) :
    Keeps json (partialStep (TlsHttpSession.step json limits peerIp)) TlsHttpSession.At :=
  ⟨TlsHttpSession.At.state, fun hAt hStep => TlsHttpSession.step_turn hJson hAt hStep⟩

section runs

variable {step : Step (Session φ) SessionEvent Action} {At : Stage → Session φ → Prop}
  {start s : Session φ} {history : List (Entry (Session φ) SessionEvent Action)}

theorem Keeps.exists_stage (h : Keeps json step At) {stage : Stage} (hStart : At stage start)
    (hRun : Run step start history s) : ∃ stage, At stage s := by
  apply hRun.invariant ⟨stage, hStart⟩
  rintro s e actions s' ⟨stage, hAt⟩ hStep
  obtain ⟨stage', hAt', -⟩ := h.turn hAt hStep
  exact ⟨stage', hAt'⟩

/-- Where a run from the construction on stands in the dialogue and in its books. -/
structure Stands (history : List (Entry (Session φ) SessionEvent Action)) (stage : Stage)
    (floor : Floor) : Prop where
  dialogue : Dialogue (marks history) floor
  gives : stage.Gives floor
  stops : ∀ action ∈ stopActions, (outputs history).count action = stage.over
  requests : (outputs history).count (.metric .requestStarted) =
    (outputs history).count (.metric .requestFinished) + stage.asked

theorem Keeps.stands (h : Keeps json step At) (hStart : At .fresh start)
    (hRun : Run step start history s) : ∃ stage floor, At stage s ∧ Stands history stage floor := by
  induction hRun with
  | nil => exact ⟨.fresh, .client, hStart, .start, rfl, fun _ _ => rfl, rfl⟩
  | @cons e older hOlder hStep ih =>
    obtain ⟨stage, floor, hAt, hStands⟩ := ih
    obtain ⟨stage', hAt', hTurn⟩ := h.turn hAt hStep
    obtain ⟨floor', hDialogue, hGives⟩ := turn_dialogue hTurn hStands.dialogue hStands.gives
    have hStopped : e.before.stopped = decide (stage = .closed) := by
      rw [Bool.eq_iff_iff, decide_eq_true_eq]
      exact (h.state hAt).stopped
    refine ⟨stage', floor', hAt', ?_, hGives, ?_, ?_⟩
    · rw [marks, hStopped]
      exact hDialogue
    · intro action hAction
      rw [outputs_cons, List.count_append, hStands.stops action hAction, Nat.add_comm]
      exact turn_stop hTurn hAction
    · have hRequests := turn_requests hTurn
      have hOld := hStands.requests
      rw [outputs_cons, List.count_append, List.count_append]
      omega

/-- A closed session does nothing and stays closed. -/
theorem Keeps.closed (h : Keeps json step At) {s s' : Session φ} {stage : Stage} (hAt : At stage s)
    {e : SessionEvent} {actions : List Action} (hStep : step s e actions s')
    (hStopped : s.stopped = true) : actions = [] ∧ s'.stopped = true := by
  obtain ⟨stage', hAt', hTurn⟩ := h.turn hAt hStep
  have hClosed := (h.state hAt).stopped.mp hStopped
  rw [(h.state hAt').stopped]
  subst hClosed
  generalize s.draining = d at hTurn
  generalize s'.draining = d' at hTurn
  cases hTurn with
  | restarted => exact ⟨rfl, rfl⟩
  | drained hStage => exact absurd rfl hStage.2.2
  | late => exact ⟨rfl, rfl⟩
  | left hOpen => exact absurd rfl hOpen
  | parted hStage => cases hStage

end runs

/-! ## Plain sessions -/

/-- What the class promises, of a run from the construction on. -/
structure SessionProtocol (history : List (Entry (Session φ) SessionEvent Action)) (s : Session φ) :
    Prop where
  single : s.outstanding.length ≤ 1
  /-- While a request is unanswered its task is under way, and behind a protocol error only
  its write is. -/
  dialogue : ∃ floor, Dialogue (marks history) floor ∧
    (floor = .server → s.outstanding = [.task]) ∧ (floor = .nobody → s.outstanding = [.write true]) ∧
    (floor = .closed ↔ s.stopped = true)
  busy : s.started = true → s.stopped = false → s.outstanding.length = 1
  last : ∀ e ∈ history, ∀ error, e.input = .written true error → e.after.stopped = true
  quiet : ∀ e ∈ history, e.before.stopped = true → e.outputs = [] ∧ e.after.stopped = true
  once : ∀ action ∈ stopActions, (outputs history).count action = if s.stopped then 1 else 0
  requests : (outputs history).count (.metric .requestStarted) =
    (outputs history).count (.metric .requestFinished) + if s.requestActive then 1 else 0

namespace HttpSession

theorem run_protocol (hJson : json.Documented) {limits : HttpLimits} {peerIp : List Char}
    {history : List (Entry (Session Phase) SessionEvent Action)} {s : Session Phase}
    (hRun : Run (partialStep (step json limits peerIp)) created history s) :
    SessionProtocol history s := by
  have hKeeps := keeps hJson limits peerIp
  obtain ⟨stage, floor, hAt, hStands⟩ := hKeeps.stands .fresh hRun
  have hState := hAt.state
  have hEntries : ∀ e ∈ history, (∃ stage, At stage e.before) ∧
      step json limits peerIp e.before e.input = some (e.after, e.outputs) := by
    intro e he
    obtain ⟨newer, older, rfl⟩ := List.append_of_mem he
    obtain ⟨hOlder, hStep, -⟩ := hRun.at_entry
    exact ⟨hKeeps.exists_stage .fresh hOlder, hStep⟩
  constructor
  · exact hState.late
  · refine ⟨floor, hStands.dialogue, ?_, ?_, hStands.gives.closed_iff.trans hState.stopped.symm⟩
    · rintro rfl
      cases hStands.gives.server
      exact hState.outstanding (by decide)
    · rintro rfl
      obtain rfl | rfl := hStands.gives.nobody
      · exact hState.outstanding (by decide)
      · cases hAt
  · intro hStarted hOpen
    cases hAt with
    | fresh => cases hStarted
    | closed => cases hOpen
    | _ => rfl
  · intro e he error hInput
    obtain ⟨⟨stage, hBefore⟩, hStep⟩ := hEntries e he
    obtain ⟨stage', hAfter, hTurn⟩ := hKeeps.turn hBefore hStep
    rw [hInput] at hTurn
    rw [hAfter.state.stopped]
    exact turn_last hTurn (fun hLeaving => by
      subst hLeaving
      cases hAfter)
  · intro e he hStopped
    obtain ⟨⟨stage, hBefore⟩, hStep⟩ := hEntries e he
    exact hKeeps.closed hBefore hStep hStopped
  · intro action hAction
    rw [hStands.stops action hAction, Stage.over]
    simp only [hState.stopped]
  · rw [hStands.requests, Stage.asked, hState.active]

end HttpSession

namespace Sample

def httpLimits : HttpLimits := ⟨16384, 1048576, 10, 10, 30, 1024, 10⟩

def emptyAnswer : HttpResponse := ⟨11, 200, [⟨"Content-Length", "0".toList⟩], ""⟩

/-- A request that is answered, and a stop while the next one is awaited. -/
def exchange : List SessionEvent :=
  [.start, .read (.ok brokenLogin) calmServer, .completed emptyAnswer, .written false none, .stop,
    .read (.error .operationAborted) calmServer]

end Sample

theorem HttpSession.run_protocol_sample : ∃ history s,
    trace (HttpSession.step Sample.compactJson Sample.httpLimits Sample.proxyPeer) HttpSession.created
        Sample.exchange [] = some (history, s) ∧ SessionProtocol history s := by
  have hSome : (trace (HttpSession.step Sample.compactJson Sample.httpLimits Sample.proxyPeer)
      HttpSession.created Sample.exchange []).isSome = true := by
    decide +kernel
  obtain ⟨⟨history, s⟩, hTrace⟩ := Option.isSome_iff_exists.mp hSome
  exact ⟨history, s, hTrace,
    HttpSession.run_protocol Sample.compactJson_documented (run_of_trace .nil hTrace)⟩

end SecureCore

import SecureCore.Http.SessionTurns
import SecureCore.Transition.Run

/-! # A TLS session behaves as a plain one

Behind the handshake the handlers of the two classes commute with `lift`, which takes a
plain session to the TLS session with the same members. Only the completion of a write
that closes the connection goes another way: it shuts TLS down first. -/

set_option autoImplicit false

namespace SecureCore

open Transition

def liftPhase : HttpSession.Phase → TlsHttpSession.Phase
  | .created => .created
  | .reading => .reading
  | .processing => .processing
  | .writing => .writing
  | .stopped => .stopped

def lift (s : Session HttpSession.Phase) : Session TlsHttpSession.Phase :=
  ⟨s.toSessionState, liftPhase s.phase⟩

/-- The same action by a session that the client reaches over TLS. -/
def Action.overTls : Action → Action
  | .submitted task result => .submitted { task with directTls := true } result
  | action => action

def lifted (result : Session HttpSession.Phase × List Action) :
    Session TlsHttpSession.Phase × List Action :=
  (lift result.1, result.2.map Action.overTls)

variable (json : JsonLibrary) (limits : HttpLimits) (peerIp : List Char) (s : Session HttpSession.Phase)

/-! ## The handlers -/

namespace TlsHttpSession

theorem handleDisconnect_lift : handleDisconnect (lift s) = lifted (HttpSession.handleDisconnect s) := by
  obtain ⟨⟨n, active, d, stopped, started, operations⟩, phase⟩ := s
  cases stopped <;> cases active <;> rfl

theorem doDrain_lift : doDrain (lift s) = lifted (HttpSession.doDrain s) := by
  obtain ⟨⟨n, active, d, stopped, started, operations⟩, phase⟩ := s
  cases d <;> cases stopped <;> cases phase <;> cases active <;> rfl

theorem sendResponse_lift (response : HttpResponse) :
    sendResponse limits (lift s) response = lifted (HttpSession.sendResponse limits s response) := by
  obtain ⟨⟨n, active, d, stopped, started, operations⟩, phase⟩ := s
  cases stopped <;> rfl

theorem sendOwn_lift (response : Next) :
    sendOwn limits (lift s) response = lifted (HttpSession.sendOwn limits s response) := by
  cases response with
  | error exception => rfl
  | ok response =>
    unfold sendOwn HttpSession.sendOwn
    simp only [sendResponse_lift]
    rfl

theorem sendProtocolError_lift (status : Nat) (errorCode : String) (source : RequestIdSource) :
    sendProtocolError json limits (lift s) status errorCode source =
      lifted (HttpSession.sendProtocolError json limits s status errorCode source) :=
  sendOwn_lift limits s _

theorem handleRequest_lift (request : HttpMessage) (met : Surrounding) :
    handleRequest json limits peerIp (lift s) request met =
      lifted (HttpSession.handleRequest json limits peerIp s request met) := by
  unfold handleRequest HttpSession.handleRequest
  cases met.submitted with
  | accepted => rfl
  | queueFull =>
    simp only [sendOwn_lift]
    rfl
  | stopped =>
    simp only [sendOwn_lift]
    rfl

theorem rejectNewRequestDuringDrain_lift (request : HttpMessage) (met : Surrounding) :
    rejectNewRequestDuringDrain json limits (lift s) request met =
      lifted (HttpSession.rejectNewRequestDuringDrain json limits s request met) :=
  sendOwn_lift limits s _

theorem handleRead_lift (result : Except StreamError HttpMessage) (met : Surrounding) :
    handleRead json limits peerIp (lift s) result met =
      lifted (HttpSession.handleRead json limits peerIp s result met) := by
  obtain ⟨⟨n, active, d, stopped, started, operations⟩, phase⟩ := s
  cases stopped with
  | true => rfl
  | false =>
    cases result with
    | error error =>
      cases error with
      | bodyLimit => exact sendProtocolError_lift json limits _ 413 _ met.sessionId
      | headerLimit => exact sendProtocolError_lift json limits _ 431 _ met.sessionId
      | _ => exact handleDisconnect_lift _
    | ok request =>
      have hRejected := rejectNewRequestDuringDrain_lift json limits
        ⟨⟨(n + 1) % 2 ^ 64, true, d, false, started, operations⟩, .processing⟩ request met
      have hHandled := handleRequest_lift json limits peerIp
        ⟨⟨(n + 1) % 2 ^ 64, true, d, false, started, operations⟩, .processing⟩ request met
      unfold lift liftPhase at hRejected hHandled
      have hTarget : allowedDuringDrain request = SecureCore.allowedDuringDrain request := rfl
      unfold handleRead HttpSession.handleRead lift liftPhase
      simp only [hTarget]
      cases hForbidden : d && !SecureCore.allowedDuringDrain request with
      | true => 
        simp only [if_true, hRejected]
        rfl
      | false =>
        simp only [hHandled]
        rfl

theorem completeRequest_lift (response : HttpResponse) :
    completeRequest limits (lift s) response = lifted (HttpSession.completeRequest limits s response) := by
  obtain ⟨⟨n, active, d, stopped, started, operations⟩, phase⟩ := s
  cases stopped <;> rfl

theorem handleWrite_lift {shouldClose : Bool} {error : Option StreamError}
    (h : s.stopped = true ∨ error.isSome = true ∨ shouldClose = false) :
    handleWrite limits (lift s) shouldClose error =
      lifted (HttpSession.handleWrite limits s shouldClose error) := by
  obtain ⟨⟨n, active, d, stopped, started, operations⟩, phase⟩ := s
  cases stopped with
  | true => rfl
  | false =>
    cases error with
    | some error => cases active <;> rfl
    | none =>
      obtain hStopped | hError | rfl := h
      · cases hStopped
      · cases hError
      · cases active <;> rfl

/-! ## Steps -/

theorem complete_lift (operation : AsyncOperation)
    {handler : Session HttpSession.Phase → Session HttpSession.Phase × List Action}
    {handler' : Session Phase → Session Phase × List Action}
    (h : handler' (lift (s.finish operation)) = lifted (handler (s.finish operation))) :
    (lift s).complete operation handler' = (s.complete operation handler).map lifted := by
  unfold Session.complete
  change (if operation ∈ s.outstanding then some (handler' (lift (s.finish operation))) else none) = _
  split
  · rw [h]
    rfl
  · rfl

/-- A step of the plain session is one of the TLS session, unless it closes behind an answer. -/
theorem step_lift {stage : Stage} (hAt : HttpSession.At stage s) {e : SessionEvent}
    (hStart : e = .start → stage ≠ .fresh) (hWritten : e = .written true none → s.stopped = true) :
    step json limits peerIp (lift s) e = (HttpSession.step json limits peerIp s e).map lifted := by
  have hOwn := hAt.own
  cases e with
  | start =>
    cases hAt with
    | fresh => exact absurd rfl (hStart rfl)
    | @closed n d started operations hLate => cases started <;> rfl
    | _ => rfl
  | drain => exact congrArg some (doDrain_lift s)
  | stop => exact congrArg some (handleDisconnect_lift s)
  | handshaken error => exact if_neg hOwn.1
  | shutDown error => exact if_neg hOwn.2
  | read result met =>
    change (lift s).complete .read (fun t => handleRead json limits peerIp t result met) =
      (s.complete .read (fun s => HttpSession.handleRead json limits peerIp s result met)).map lifted
    exact complete_lift s .read (handleRead_lift json limits peerIp _ result met)
  | completed response =>
    change (lift s).complete .task (fun t => completeRequest limits t response) =
      (s.complete .task (fun s => HttpSession.completeRequest limits s response)).map lifted
    exact complete_lift s .task (completeRequest_lift limits _ response)
  | written shouldClose error =>
    have hOpen : s.stopped = true ∨ error.isSome = true ∨ shouldClose = false := by
      cases error with
      | some error => exact .inr (.inl rfl)
      | none =>
        cases shouldClose with
        | true => exact .inl (hWritten rfl)
        | false => exact .inr (.inr rfl)
    change (lift s).complete (.write shouldClose) (fun t => handleWrite limits t shouldClose error) =
      (s.complete (.write shouldClose) (fun s => HttpSession.handleWrite limits s shouldClose error)).map lifted
    exact complete_lift s (.write shouldClose) (handleWrite_lift limits _ hOpen)

/-! ## Turns -/

end TlsHttpSession

variable {json limits peerIp s}

theorem map_disconnected (active : Bool) :
    (disconnected active).map Action.overTls = disconnected active := by
  cases active <;> rfl

theorem map_finished (active : Bool) : (finished active).map Action.overTls = finished active := by
  cases active <;> rfl

theorem Turn.overTls {stage stage' : Stage} {d d' : Bool} {e : SessionEvent} {actions : List Action}
    (h : Turn json stage d e actions stage' d') :
    Turn json stage d e (actions.map Action.overTls) stage' d' := by
  cases h with
  | opened => exact .opened
  | greeted => exact .greeted
  | secured => exact .secured
  | restarted hStage => exact .restarted hStage
  | drained hStage => exact .drained hStage
  | late => exact .late
  | left hOpen hEvent =>
    rw [map_disconnected]
    exact .left hOpen hEvent
  | asked hAllowed => exact .asked hAllowed
  | overloaded hAllowed hResult hLast => exact .overloaded hAllowed hResult hLast
  | rejected hForbidden hError => exact .rejected hForbidden hError
  | protested hError => exact .protested hError
  | answered hSent => exact .answered hSent
  | continued => exact .continued
  | parted hStage =>
    rw [List.map_append, map_finished]
    exact .parted hStage

theorem HttpSession.At.lift {stage : Stage} (h : HttpSession.At stage s) :
    TlsHttpSession.At stage (lift s) := by
  cases h with
  | fresh => exact .fresh
  | listening => exact .listening
  | working => exact .working
  | answering => exact .answering
  | refusing => exact .refusing
  | closed hLate _ => exact .closed hLate

namespace TlsHttpSession

/-- Behind the handshake the turns are those of a plain session. -/
theorem lift_turn (hJson : json.Documented) {stage : Stage} (hAt : HttpSession.At stage s)
    {s' : Session Phase} {e : SessionEvent} {actions : List Action} (hFresh : stage ≠ .fresh)
    (hWritten : e ≠ .written true none)
    (h : step json limits peerIp (lift s) e = some (s', actions)) :
    ∃ stage', At stage' s' ∧ Turn json stage s.draining e actions stage' s'.draining := by
  rw [step_lift json limits peerIp s hAt (fun _ => hFresh) (fun h => absurd h hWritten)] at h
  obtain ⟨⟨s'', actions'⟩, hStep, hLifted⟩ := Option.map_eq_some_iff.mp h
  obtain ⟨stage', hAt', hTurn⟩ := HttpSession.step_turn hJson hAt hStep
  cases hLifted
  exact ⟨stage', hAt'.lift, hTurn.overTls⟩

theorem closed_turn {n : Nat} {d started : Bool} {operations : List AsyncOperation}
    (hLate : operations.length ≤ 1) {s' : Session Phase} {e : SessionEvent} {actions : List Action}
    (h : step json limits peerIp ⟨⟨n, false, d, true, started, operations⟩, .stopped⟩ e =
      some (s', actions)) :
    ∃ stage', At stage' s' ∧ Turn json .closed d e actions stage' s'.draining := by
  have hShorter : ∀ operation, (operations.erase operation).length ≤ 1 :=
    fun operation => List.length_erase_le.trans hLate
  have hCompleted : ∀ operation handler,
      (∀ s : Session Phase, s.stopped = true → handler s = (s, [])) →
      Session.complete ⟨⟨n, false, d, true, started, operations⟩, .stopped⟩ operation handler =
        some (s', actions) →
      ∃ stage', At stage' s' ∧ Turn json .closed d e actions stage' s'.draining := by
    intro operation handler hIgnored hComplete
    obtain ⟨-, hHandled⟩ := Session.complete_cases hComplete
    cases (hIgnored _ rfl).symm.trans hHandled
    exact ⟨_, .closed (hShorter operation), .late⟩
  cases e with
  | start =>
    cases started <;> cases h <;> exact ⟨_, .closed hLate, .late⟩
  | drain =>
    cases d <;> cases h <;> exact ⟨_, .closed hLate, .late⟩
  | stop =>
    cases h
    exact ⟨_, .closed hLate, .late⟩
  | handshaken error => exact hCompleted .handshake _ (fun s hStopped => if_pos hStopped) h
  | read result met => exact hCompleted .read _ (fun s hStopped => if_pos hStopped) h
  | completed response => exact hCompleted .task _ (fun s hStopped => if_pos hStopped) h
  | written shouldClose error =>
    exact hCompleted (.write shouldClose) _ (fun s hStopped => if_pos hStopped) h
  | shutDown error => exact hCompleted .shutdown _ (fun s hStopped => if_pos hStopped) h

theorem step_turn (hJson : json.Documented) {stage : Stage} {s s' : Session Phase} {e : SessionEvent}
    {actions : List Action} (hAt : At stage s) (h : step json limits peerIp s e = some (s', actions)) :
    ∃ stage', At stage' s' ∧ Turn json stage s.draining e actions stage' s'.draining := by
  cases hAt with
  | fresh =>
    cases e with
    | start =>
      cases h
      exact ⟨_, .greeting, .greeted⟩
    | drain =>
      cases h
      exact ⟨_, .closed (Nat.zero_le 1), .left (by decide) (by simp)⟩
    | stop =>
      cases h
      exact ⟨_, .closed (Nat.zero_le 1), .left (by decide) (by simp)⟩
    | _ => cases h
  | greeting =>
    cases e with
    | start =>
      cases h
      exact ⟨_, .greeting, .restarted (by decide)⟩
    | drain =>
      cases h
      exact ⟨_, .closed (by simp), .left (by decide) (by simp)⟩
    | stop =>
      cases h
      exact ⟨_, .closed (by simp), .left (by decide) (by simp)⟩
    | handshaken error =>
      cases error with
      | none =>
        cases h
        exact ⟨_, .listening, .secured⟩
      | some error =>
        cases h
        exact ⟨_, .closed (Nat.zero_le 1), .left (by decide) (by simp)⟩
    | _ => cases h
  | @leaving n d =>
    cases e with
    | start =>
      cases h
      exact ⟨_, .leaving, .restarted (by decide)⟩
    | drain =>
      cases d <;> cases h <;> exact ⟨_, .leaving, .drained (by decide)⟩
    | stop =>
      cases h
      exact ⟨_, .closed (by simp), .left (by decide) (by simp)⟩
    | shutDown error =>
      cases h
      exact ⟨_, .closed (Nat.zero_le 1), .left (by decide) (by simp)⟩
    | _ => cases h
  | closed hLate => exact closed_turn hLate h
  | @listening n d =>
    by_cases hWritten : e = .written true none
    · subst hWritten
      cases h
    · exact lift_turn hJson (@HttpSession.At.listening n d) (by decide) hWritten h
  | @working n d =>
    by_cases hWritten : e = .written true none
    · subst hWritten
      cases h
    · exact lift_turn hJson (@HttpSession.At.working n d) (by decide) hWritten h
  | @answering n d closes =>
    by_cases hWritten : e = .written true none
    · subst hWritten
      cases closes with
      | false => cases h
      | true =>
        cases h
        exact ⟨_, .leaving, .parted rfl⟩
    · exact lift_turn hJson (@HttpSession.At.answering n d closes) (by simp) hWritten h
  | @refusing n d =>
    by_cases hWritten : e = .written true none
    · subst hWritten
      cases h
      exact ⟨_, .leaving, .parted rfl⟩
    · exact lift_turn hJson (@HttpSession.At.refusing n d) (by decide) hWritten h

end TlsHttpSession

end SecureCore

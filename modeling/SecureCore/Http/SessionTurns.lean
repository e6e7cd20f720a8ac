import SecureCore.Http.Conversation

/-! # Both sessions keep to the conversation -/

set_option autoImplicit false

namespace SecureCore

variable {json : JsonLibrary} {limits : HttpLimits} {peerIp : List Char}

/-- What the completion of an operation says. -/
theorem Session.complete_cases {φ : Type} {s s' : Session φ} {operation : AsyncOperation}
    {handler : Session φ → Session φ × List Action} {actions : List Action}
    (h : s.complete operation handler = some (s', actions)) :
    operation ∈ s.outstanding ∧ handler (s.finish operation) = (s', actions) := by
  unfold Session.complete at h
  split at h
  · rename_i hUnderWay
    exact ⟨hUnderWay, Option.some.inj h⟩
  · cases h

/-- The operation under way belongs to the stage, or the session is closed. -/
theorem SessionState.At.operation {s : SessionState} {stage : Stage} (h : s.At stage)
    {operation : AsyncOperation} (hUnderWay : operation ∈ s.outstanding) :
    stage = .closed ∨ stage.operation = some operation := by
  by_cases hClosed : stage = .closed
  · exact .inl hClosed
  · rw [h.outstanding hClosed, Option.mem_toList] at hUnderWay
    exact .inr hUnderWay

theorem completeRequest_final {status : Nat} {errorCode : String} {response : HttpResponse}
    (h : FinalError json status errorCode response) (draining : Bool) :
    FinalError json status errorCode (completeRequest draining response) ∧
      (completeRequest draining response).needEof = true := by
  unfold completeRequest
  cases draining with
  | true => exact ⟨h.setKeepAlive, HttpResponse.needEof_of_not_keepAlive h.setKeepAlive.last⟩
  | false => exact ⟨h, HttpResponse.needEof_of_not_keepAlive h.last⟩

namespace HttpSession

theorem handleDisconnect_open (n : Nat) (active d started : Bool) (operations : List AsyncOperation)
    (phase : Phase) : handleDisconnect ⟨⟨n, active, d, false, started, operations⟩, phase⟩ =
      (⟨⟨n, false, d, true, started, operations⟩, .stopped⟩, disconnected active) := by
  cases active <;> rfl

/-- A completion that comes late leaves a closed session closed. -/
theorem closed_late {n : Nat} {d started : Bool} {operations : List AsyncOperation}
    (hLate : operations.length ≤ 1) (hOwn : .handshake ∉ operations ∧ .shutdown ∉ operations)
    {operation : AsyncOperation} :
    At .closed ⟨⟨n, false, d, true, started, operations.erase operation⟩, .stopped⟩ :=
  .closed (List.length_erase_le.trans hLate)
    ⟨fun h => hOwn.1 (List.mem_of_mem_erase h), fun h => hOwn.2 (List.mem_of_mem_erase h)⟩

theorem sendOwn_final (limits : HttpLimits) (n : Nat) (active d : Bool) (phase : Phase)
    {response : HttpResponse} {status : Nat} {errorCode : String}
    (h : FinalError json status errorCode response) :
    ∃ sent, FinalError json status errorCode sent ∧
      sendOwn limits ⟨⟨n, active, d, false, true, []⟩, phase⟩ (.ok response) =
        (⟨⟨n, active, d, false, true, [.write true]⟩, .writing⟩,
          [.metric (.httpResponse sent.status 0), .writeStarted sent limits.writeTimeout]) := by
  obtain ⟨hSent, hEof⟩ := completeRequest_final h d
  have hOwn : sendOwn limits ⟨⟨n, active, d, false, true, []⟩, phase⟩ (.ok response) =
      (⟨⟨n, active, d, false, true, [.write (SecureCore.completeRequest d response).needEof]⟩, .writing⟩,
        [.metric (.httpResponse response.status 0),
          .writeStarted (SecureCore.completeRequest d response) limits.writeTimeout]) := rfl
  refine ⟨_, hSent, ?_⟩
  rw [hOwn, hEof, h.status, hSent.status]

/-- A request that goes to the worker pool is taken there or gets an error. -/
theorem handleRequest_turn (limits : HttpLimits) (peerIp : List Char) (hJson : json.Documented)
    (n : Nat) (d : Bool) (request : HttpMessage)
    (met : Surrounding) (hAllowed : d = true → allowedDuringDrain request = true) :
    ∃ stage s' actions,
      handleRequest json limits peerIp ⟨⟨n, true, d, false, true, []⟩, .processing⟩ request met =
        (s', actions) ∧ At stage s' ∧
      Turn json .listening d (.read (.ok request) met) (.metric .requestStarted :: actions) stage
        s'.draining := by
  obtain ⟨response, hResponse, hError⟩ := rejectSubmission_ok hJson request met
    (resolveRequestId_valid request met.sessionId)
  obtain ⟨sent, hSent, hOwn⟩ := sendOwn_final limits n true d .processing hError
  have hRefused : ∀ result, met.submitted = result → result ≠ .accepted →
      handleRequest json limits peerIp ⟨⟨n, true, d, false, true, []⟩, .processing⟩ request met =
        (⟨⟨n, true, d, false, true, [.write true]⟩, .writing⟩,
          [.submitted (taskFor peerIp false request met) result,
            .metric (.httpResponse sent.status 0), .writeStarted sent limits.writeTimeout]) := by
    intro result hResult hNot
    cases result with
    | accepted => exact absurd rfl hNot
    | queueFull =>
      unfold handleRequest
      rw [hResult]
      simp only [hResponse, hOwn]
      rfl
    | stopped =>
      unfold handleRequest
      rw [hResult]
      simp only [hResponse, hOwn]
      rfl
  cases hSubmitted : met.submitted with
  | accepted =>
    have hTaken : handleRequest json limits peerIp ⟨⟨n, true, d, false, true, []⟩, .processing⟩ request
        met = (⟨⟨n, true, d, false, true, [.task]⟩, .processing⟩,
          [.submitted (taskFor peerIp false request met) .accepted]) := by
      unfold handleRequest
      rw [hSubmitted]
      rfl
    exact ⟨_, _, _, hTaken, .working, .asked hAllowed⟩
  | queueFull =>
    exact ⟨_, _, _, hRefused _ hSubmitted (by decide), .answering,
      .overloaded hAllowed (by decide) hSent.last⟩
  | stopped =>
    exact ⟨_, _, _, hRefused _ hSubmitted (by decide), .answering,
      .overloaded hAllowed (by decide) hSent.last⟩

/-- A request that has been read goes to a worker or gets an error that closes the connection. -/
theorem handleRead_ok (hJson : json.Documented) (n : Nat) (d : Bool) (request : HttpMessage)
    (met : Surrounding) : ∃ stage s' actions,
      handleRead json limits peerIp ⟨⟨n, false, d, false, true, []⟩, .reading⟩ (.ok request) met =
        (s', actions) ∧
      At stage s' ∧ Turn json .listening d (.read (.ok request) met) actions stage s'.draining := by
  have hRead : handleRead json limits peerIp ⟨⟨n, false, d, false, true, []⟩, .reading⟩ (.ok request) met =
      let handled :=
        if d && !allowedDuringDrain request then
          rejectNewRequestDuringDrain json limits
            ⟨⟨(n + 1) % 2 ^ 64, true, d, false, true, []⟩, .processing⟩ request met
        else handleRequest json limits peerIp
          ⟨⟨(n + 1) % 2 ^ 64, true, d, false, true, []⟩, .processing⟩ request met
      (handled.1, .metric .requestStarted :: handled.2) := rfl
  cases hForbidden : d && !allowedDuringDrain request with
  | true =>
    obtain ⟨rfl, hTarget⟩ := Bool.and_eq_true_iff.mp hForbidden
    obtain ⟨response, hResponse, hError⟩ := rejectNewRequestDuringDrain_ok hJson request met
    obtain ⟨sent, hSent, hOwn⟩ := sendOwn_final limits ((n + 1) % 2 ^ 64) true true .processing hError
    have hRejected : handleRead json limits peerIp ⟨⟨n, false, true, false, true, []⟩, .reading⟩
        (.ok request) met = (⟨⟨(n + 1) % 2 ^ 64, true, true, false, true, [.write true]⟩, .writing⟩,
          [.metric .requestStarted, .metric (.httpResponse sent.status 0),
            .writeStarted sent limits.writeTimeout]) := by
      rw [hRead, hForbidden, if_pos rfl, rejectNewRequestDuringDrain, hResponse, hOwn]
    exact ⟨_, _, _, hRejected, .answering, .rejected (by simpa using hTarget) hSent⟩
  | false =>
    have hAllowed : d = true → allowedDuringDrain request = true := by
      rintro rfl
      simpa using hForbidden
    obtain ⟨stage, s', actions, hHandled, hAt, hTurn⟩ :=
      handleRequest_turn limits peerIp hJson ((n + 1) % 2 ^ 64) d request met hAllowed
    refine ⟨stage, s', _, ?_, hAt, hTurn⟩
    rw [hRead, hForbidden, if_neg Bool.false_ne_true, hHandled]

theorem sendProtocolError_final (limits : HttpLimits) (hJson : json.Documented) (n : Nat) (d : Bool)
    (status : Nat) (errorCode : String) (hCode : ValidUtf8 errorCode)
    (hStatus : ({ HttpResponse.initial with status := status } : HttpResponse).bodiless = false)
    (source : RequestIdSource) : ∃ sent, FinalError json status errorCode sent ∧
      sendProtocolError json limits ⟨⟨n, false, d, false, true, []⟩, .reading⟩ status errorCode source =
        (⟨⟨n, false, d, false, true, [.write true]⟩, .writing⟩,
          [.metric (.httpResponse sent.status 0), .writeStarted sent limits.writeTimeout]) := by
  obtain ⟨response, hResponse, hError⟩ := protocolError_ok hJson hCode hStatus source
  obtain ⟨sent, hSent, hOwn⟩ := sendOwn_final limits n false d .reading hError
  refine ⟨sent, hSent, ?_⟩
  rw [sendProtocolError, hResponse, hOwn]

/-- A protocol error is answered and ends the conversation; any other error ends it at once. -/
theorem handleRead_error (hJson : json.Documented) (n : Nat) (d : Bool) (error : StreamError)
    (met : Surrounding) : ∃ stage s' actions,
      handleRead json limits peerIp ⟨⟨n, false, d, false, true, []⟩, .reading⟩ (.error error) met =
        (s', actions) ∧
      At stage s' ∧ Turn json .listening d (.read (.error error) met) actions stage s'.draining := by
  have hLeft : ∃ stage s' actions, handleDisconnect ⟨⟨n, false, d, false, true, []⟩, .reading⟩ =
        (s', actions) ∧
      At stage s' ∧ Turn json .listening d (.read (.error error) met) actions stage s'.draining :=
    ⟨_, _, _, handleDisconnect_open _ _ _ _ _ _,
      .closed (Nat.zero_le 1) ⟨List.not_mem_nil, List.not_mem_nil⟩, .left (by decide) (by simp)⟩
  cases error with
  | bodyLimit =>
    obtain ⟨sent, hSent, hOwn⟩ := sendProtocolError_final limits hJson n d 413 "payload_too_large"
      (validUtf8_ofList rfl) (by decide) met.sessionId
    exact ⟨_, _, _, hOwn, .refusing, .protested (.inl hSent)⟩
  | headerLimit =>
    obtain ⟨sent, hSent, hOwn⟩ := sendProtocolError_final limits hJson n d 431 "headers_too_large"
      (validUtf8_ofList rfl) (by decide) met.sessionId
    exact ⟨_, _, _, hOwn, .refusing, .protested (.inr hSent)⟩
  | _ => exact hLeft

/-- After an answer the session listens again, unless it has to close. -/
theorem handleWrite_answering (n : Nat) (d closes : Bool) (error : Option StreamError) :
    ∃ stage s' actions,
      handleWrite limits ⟨⟨n, true, d, false, true, []⟩, .writing⟩ closes error = (s', actions) ∧
      At stage s' ∧ Turn json (.answering closes) d (.written closes error) actions stage s'.draining := by
  cases error with
  | some error => exact ⟨_, _, _, rfl, .closed (Nat.zero_le 1) ⟨List.not_mem_nil, List.not_mem_nil⟩,
    .left (by simp) (by simp)⟩
  | none =>
    cases closes with
    | true => exact ⟨_, _, _, rfl, .closed (Nat.zero_le 1) ⟨List.not_mem_nil, List.not_mem_nil⟩,
      .left (by simp) (by simp)⟩
    | false => exact ⟨_, _, _, rfl, .listening, .continued⟩

theorem handleWrite_refusing (n : Nat) (d : Bool) (error : Option StreamError) :
    ∃ s' actions,
      handleWrite limits ⟨⟨n, false, d, false, true, []⟩, .writing⟩ true error = (s', actions) ∧
      At .closed s' ∧ Turn json .refusing d (.written true error) actions .closed s'.draining := by
  cases error with
  | some error => exact ⟨_, _, rfl, .closed (Nat.zero_le 1) ⟨List.not_mem_nil, List.not_mem_nil⟩,
    .left (by simp) (by simp)⟩
  | none => exact ⟨_, _, rfl, .closed (Nat.zero_le 1) ⟨List.not_mem_nil, List.not_mem_nil⟩, .left (by simp) (by simp)⟩

theorem step_turn (hJson : json.Documented) {stage : Stage} {s s' : Session Phase} {e : SessionEvent}
    {actions : List Action} (hAt : At stage s) (h : step json limits peerIp s e = some (s', actions)) :
    ∃ stage', At stage' s' ∧ Turn json stage s.draining e actions stage' s'.draining := by
  cases e with
  | start =>
    cases hAt with
    | fresh =>
      cases h
      exact ⟨_, .listening, .opened⟩
    | listening =>
      cases h
      exact ⟨_, .listening, .restarted (by decide)⟩
    | working =>
      cases h
      exact ⟨_, .working, .restarted (by decide)⟩
    | answering =>
      cases h
      exact ⟨_, .answering, .restarted (by simp)⟩
    | refusing =>
      cases h
      exact ⟨_, .refusing, .restarted (by decide)⟩
    | @closed n d started operations hLate hOwn =>
      cases started <;> cases h <;> exact ⟨_, .closed hLate hOwn, .late⟩
  | drain =>
    cases hAt with
    | fresh =>
      cases h
      exact ⟨_, .closed (Nat.zero_le 1) ⟨List.not_mem_nil, List.not_mem_nil⟩, .left (by decide) (by simp)⟩
    | @listening n d => cases d <;> cases h <;> exact ⟨_, .listening, .drained (by decide)⟩
    | @working n d => cases d <;> cases h <;> exact ⟨_, .working, .drained (by decide)⟩
    | @answering n d closes => cases d <;> cases h <;> exact ⟨_, .answering, .drained (by simp)⟩
    | @refusing n d => cases d <;> cases h <;> exact ⟨_, .refusing, .drained (by decide)⟩
    | @closed n d started operations hLate hOwn =>
      cases d <;> cases h <;> exact ⟨_, .closed hLate hOwn, .late⟩
  | stop =>
    cases hAt with
    | closed hLate hOwn =>
      cases h
      exact ⟨_, .closed hLate hOwn, .late⟩
    | fresh =>
      cases h
      exact ⟨_, .closed (by simp) (by simp), .left (by simp) (by simp)⟩
    | listening =>
      cases h
      exact ⟨_, .closed (by simp) (by simp), .left (by simp) (by simp)⟩
    | _ =>
      cases h
      exact ⟨_, .closed (by simp) (by simp), .left (by simp) (by simp)⟩
  | handshaken error => cases h
  | shutDown error => cases h
  | read result met =>
    have hRead : s.complete .read (fun s => handleRead json limits peerIp s result met) =
      some (s', actions) := h
    obtain ⟨hUnderWay, hHandled⟩ := Session.complete_cases hRead
    obtain rfl | hOperation := hAt.state.operation hUnderWay
    · cases hAt with
      | closed hLate hOwn =>
        cases hHandled
        exact ⟨_, closed_late hLate hOwn, .late⟩
    · have hStage : stage = .listening := by
        cases stage <;> cases hOperation
        rfl
      subst hStage
      cases hAt with
      | @listening n d =>
        cases result with
        | ok request =>
          obtain ⟨stage', s'', actions', hTurned, hTurn⟩ := handleRead_ok hJson n d request met
          cases hHandled.symm.trans hTurned
          exact ⟨stage', hTurn⟩
        | error error =>
          obtain ⟨stage', s'', actions', hTurned, hTurn⟩ := handleRead_error hJson n d error met
          cases hHandled.symm.trans hTurned
          exact ⟨stage', hTurn⟩
  | completed response =>
    have hCompleted : s.complete .task (fun s => completeRequest limits s response) =
      some (s', actions) := h
    obtain ⟨hUnderWay, hHandled⟩ := Session.complete_cases hCompleted
    obtain rfl | hOperation := hAt.state.operation hUnderWay
    · cases hAt with
      | closed hLate hOwn =>
        cases hHandled
        exact ⟨_, closed_late hLate hOwn, .late⟩
    · have hStage : stage = .working := by
        cases stage <;> cases hOperation
        rfl
      subst hStage
      cases hAt with
      | working =>
        cases hHandled
        exact ⟨_, .answering, .answered rfl⟩
  | written shouldClose error =>
    have hWritten : s.complete (.write shouldClose) (fun s => handleWrite limits s shouldClose error) =
      some (s', actions) := h
    obtain ⟨hUnderWay, hHandled⟩ := Session.complete_cases hWritten
    obtain rfl | hOperation := hAt.state.operation hUnderWay
    · cases hAt with
      | closed hLate hOwn =>
        cases hHandled
        exact ⟨_, closed_late hLate hOwn, .late⟩
    · cases hAt with
      | @answering n d _ =>
        cases hOperation
        obtain ⟨stage', s'', actions', hTurned, hTurn⟩ := handleWrite_answering n d shouldClose error
        have hFinished : (Session.finish ⟨⟨n, true, d, false, true, [.write shouldClose]⟩, Phase.writing⟩
            (.write shouldClose)) = ⟨⟨n, true, d, false, true, []⟩, .writing⟩ := by
          simp [Session.finish]
        rw [hFinished] at hHandled
        cases hHandled.symm.trans hTurned
        exact ⟨stage', hTurn⟩
      | @refusing n d =>
        cases hOperation
        obtain ⟨s'', actions', hTurned, hTurn⟩ := handleWrite_refusing n d error
        cases hHandled.symm.trans hTurned
        exact ⟨.closed, hTurn⟩
      | _ => cases hOperation

end HttpSession

end SecureCore

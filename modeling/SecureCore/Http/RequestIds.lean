import SecureCore.Http.Sample
import SecureCore.Http.Stages

/-! # The request id of every response -/

namespace SecureCore

set_option autoImplicit false

open TrustedProxy

variable {json : JsonLibrary}

theorem Answered.setKeepAlive {requestId : String} {response : HttpResponse}
    (h : Answered json requestId response) (value : Bool) :
    Answered json requestId (response.setKeepAlive value) := by
  constructor
  · exact (Fields.valuesOf_setKeepAlive (by decide) _ _ _).trans h.header
  · unfold Framed
    exact (Fields.valuesOf_setKeepAlive (by decide) _ _ _).trans h.framed
  · exact h.error

theorem completeRequest_answered {requestId : String} {response : HttpResponse}
    (h : Answered json requestId response) (draining : Bool) :
    Answered json requestId (completeRequest draining response) := by
  unfold completeRequest
  split
  · exact h.setKeepAlive false
  · exact h

theorem rejectSubmission_answered (hJson : json.Documented) (request : HttpMessage) (met : Surrounding)
    {requestId : String} (hId : isValidRequestId requestId = true) :
    ∃ response, rejectSubmission json request met requestId = .ok response ∧
      Answered json requestId response ∧ response.keepAlive = false := by
  have hCode : ValidUtf8 (if met.submitted = .queueFull then "server_busy" else "server_shutting_down") := by
    split <;> exact validUtf8_ofList rfl
  exact labelled_error hJson hCode (by decide) (.cons (by decide) (.cons (by decide)
    (.cons (by decide) .nil))) request.version hId

theorem rejectNewRequestDuringDrain_answered (hJson : json.Documented) (request : HttpMessage)
    (met : Surrounding) :
    ∃ response, rejectNewRequestDuringDrain json request met = .ok response ∧
      Answered json (resolveRequestId request met.sessionId) response ∧ response.keepAlive = false :=
  labelled_error hJson (validUtf8_ofList rfl) (by decide) (.cons (by decide) (.cons (by decide) .nil))
    request.version (resolveRequestId_valid request met.sessionId)

/-- The request as the session hands it on. -/
def identified (request : HttpMessage) (requestId : String) : HttpMessage :=
  { request with fields := Fields.set request.fields "X-Request-ID" requestId.toList }

/-- The middleware resolves the id that the session has written into the request. -/
theorem resolveRequestId_identified (request : HttpMessage) {requestId : String}
    (hId : isValidRequestId requestId = true) (source : RequestIdSource) :
    resolveRequestId (identified request requestId) source = requestId := by
  have hFound : Fields.find (identified request requestId).fields "X-Request-ID" = some requestId.toList := by
    unfold Fields.find identified
    rw [Fields.valuesOf_set_self]
    rfl
  unfold resolveRequestId
  rw [hFound]
  simp only [String.ofList_toList]
  rw [if_pos hId]

/-- The client's id, or a generated one for a request without a valid id. -/
def IdentifiedBy (request : HttpMessage) (source : RequestIdSource) (requestId : String) : Prop :=
  if (Fields.find request.fields "X-Request-ID").any (fun value => isValidRequestId (String.ofList value)) then
    Fields.find request.fields "X-Request-ID" = some requestId.toList
  else requestId = generateRequestId source

theorem identifiedBy_resolveRequestId (request : HttpMessage) (source : RequestIdSource) :
    IdentifiedBy request source (resolveRequestId request source) := by
  unfold IdentifiedBy resolveRequestId
  cases hFound : Fields.find request.fields "X-Request-ID" with
  | none => rfl
  | some value =>
    rw [Option.any_some]
    cases hValid : isValidRequestId (String.ofList value) with
    | true =>
      simp only [hValid, if_true]
      rw [String.toList_ofList]
    | false => simp only [hValid, Bool.false_eq_true, if_false]

theorem handleRequest_eq (json : JsonLibrary) (config : SessionConfig) (peerIp : List Char)
    (request : HttpMessage) (met : Surrounding) : handleRequest json config peerIp request met =
      if met.submitted = .accepted then
        (workerTask json config peerIp (identified request (resolveRequestId request met.sessionId)) met
          (resolveRequestId request met.sessionId)).map (completeRequest met.drainingAtCompletion)
      else rejectSubmission json request met (resolveRequestId request met.sessionId) := by
  unfold handleRequest
  cases met.submitted with
  | accepted =>
    rw [if_pos rfl]
    change (workerTask json config peerIp (identified request (resolveRequestId request met.sessionId)) met
      (resolveRequestId request met.sessionId) >>= fun response =>
        Except.ok (completeRequest met.drainingAtCompletion response)) = _
    cases workerTask json config peerIp (identified request (resolveRequestId request met.sessionId)) met
      (resolveRequestId request met.sessionId) <;> rfl
  | queueFull => rfl
  | stopped => rfl

/-- Whatever a request meets, it gets one response with one id, which is also in its error. -/
theorem respond_answered (hJson : json.Documented) (config : SessionConfig) (peerIp : List Char)
    (request : HttpMessage) (met : Surrounding) :
    IdentifiedBy request met.sessionId (resolveRequestId request met.sessionId) ∧
      isValidRequestId (resolveRequestId request met.sessionId) = true ∧
        ∃ response, respond json config peerIp request met = .ok response ∧
          Answered json (resolveRequestId request met.sessionId) response := by
  have hId := resolveRequestId_valid request met.sessionId
  refine ⟨identifiedBy_resolveRequestId request met.sessionId, hId, ?_⟩
  unfold respond
  split
  · obtain ⟨response, hResponse, hAnswered, -⟩ := rejectNewRequestDuringDrain_answered hJson request met
    exact ⟨response, hResponse, hAnswered⟩
  · rw [handleRequest_eq]
    split
    · obtain ⟨response, hResponse, hAnswered, -⟩ := workerTask_answered hJson config peerIp
        met hId (resolveRequestId_identified request hId met.middlewareId)
      rw [hResponse]
      exact ⟨_, rfl, completeRequest_answered hAnswered met.drainingAtCompletion⟩
    · obtain ⟨response, hResponse, hAnswered, -⟩ := rejectSubmission_answered hJson request met hId
      exact ⟨response, hResponse, hAnswered⟩

theorem respond_answered_sample :
    ∃ response, respond Sample.compactJson Sample.sessionConfig Sample.proxyPeer Sample.brokenLogin
      Sample.calmServer = .ok response ∧ Answered Sample.compactJson "login-1" response := by
  have hId : resolveRequestId Sample.brokenLogin Sample.calmServer.sessionId = "login-1" := by
    decide +kernel
  have h := (respond_answered Sample.compactJson_documented Sample.sessionConfig Sample.proxyPeer
    Sample.brokenLogin Sample.calmServer).2.2
  rw [hId] at h
  exact h

end SecureCore

import SecureCore.Http.RequestIds
import SecureCore.Http.HttpSession

/-! # Errors that end a connection -/

set_option autoImplicit false

namespace SecureCore

variable {json : JsonLibrary}

/-- An error with a code, behind which the connection is closed. -/
structure FinalError (json : JsonLibrary) (status : Nat) (errorCode : String) (response : HttpResponse) :
    Prop where
  status : response.status = status
  code : ∃ body error, json.parse response.body = some (.object body) ∧
    Json.Members.find body "error" = some (.object error) ∧
    Json.Members.find error "code" = some (.string errorCode)
  last : response.keepAlive = false

theorem FinalError.setKeepAlive {status : Nat} {errorCode : String} {response : HttpResponse}
    (h : FinalError json status errorCode response) :
    FinalError json status errorCode (response.setKeepAlive false) :=
  ⟨h.status, h.code, HttpResponse.keepAlive_setKeepAlive response false⟩

/-- The body of make_json_error. -/
theorem makeJsonError_body (hJson : json.Documented) (status : Nat) {errorCode : String}
    (hCode : ValidUtf8 errorCode) :
    ∃ text, makeJsonError json status errorCode = .ok (jsonResponse status text) ∧
      json.parse text = some (.object (Json.Members.ofList
        [("error", (ApiError.mk errorCode (defaultApiErrorMessage errorCode) []).toJson)])) := by
  obtain ⟨text, -, hText⟩ := makeJsonError_ok hJson status hCode
  refine ⟨text, hText, ?_⟩
  unfold makeJsonError makeApiErrorResponse at hText
  rw [makeJsonResponse_eq] at hText
  split at hText
  · cases hText
  · rename_i dumped hDumped
    have hSame : dumped = text := congrArg HttpResponse.body (Except.ok.inj hText)
    rw [← hSame]
    exact hJson.parse_dump _ dumped (proper_errorBody _) hDumped

/-- What the session makes of an error code: status, code and Connection: close. -/
theorem finalError_ok (hJson : json.Documented) {status : Nat} {errorCode : String}
    (hCode : ValidUtf8 errorCode)
    (hStatus : ({ HttpResponse.initial with status := status } : HttpResponse).bodiless = false)
    {headers : List (String × List Char)} (hClear : Clear headers) (version : Nat) {requestId : String}
    (hId : isValidRequestId requestId = true) :
    ∃ response, (makeJsonError json status errorCode >>= fun response =>
        response.finish version headers false >>= fun response =>
          applyRequestId json response requestId) = .ok response ∧
      FinalError json status errorCode response := by
  obtain ⟨text, hText, hParse⟩ := makeJsonError_body hJson status hCode
  rcases finish_cases (jsonResponse status text) hClear version false with
    ⟨hBodiless, -⟩ | ⟨response, hResult, hFinished⟩
  · exact absurd (hStatus.symm.trans hBodiless) Bool.false_ne_true
  · have hType : (response.set "X-Request-ID" requestId.toList).fields.valuesOf "Content-Type" =
        (jsonResponse status text).fields.valuesOf "Content-Type" :=
      (Fields.valuesOf_set_of_ne (by decide) _ _).trans hFinished.contentType
    have hLabelled := (responseIsJson_congr hType).trans (responseIsJson_jsonResponse status text)
    have hKept : (response.set "X-Request-ID" requestId.toList).keepAlive = false :=
      (HttpResponse.keepAlive_set (by decide) _).trans hFinished.keepAlive
    have hBodied : (response.set "X-Request-ID" requestId.toList).bodiless = false := by
      unfold HttpResponse.bodiless at hStatus ⊢
      change (response.status / 100 == 1 || response.status == 204 || response.status == 304) = false
      rw [hFinished.status]
      exact hStatus
    have hBody : json.parse (response.set "X-Request-ID" requestId.toList).body =
        some (.object [("error", .object [("code", .string errorCode),
          ("message", .string (defaultApiErrorMessage errorCode))])]) := by
      rw [toJson_error] at hParse
      exact (congrArg json.parse hFinished.body).trans hParse
    have hError : Json.Members.find [("error", Json.object [("code", .string errorCode),
        ("message", .string (defaultApiErrorMessage errorCode))])] "error" = some (.object _) := rfl
    rcases attach_of_error hJson hLabelled hBody hError hId with
      ⟨hBodiless, -⟩ | ⟨-, labelledText, hAttached, hLabelledParse⟩
    · exact absurd (hBodied.symm.trans hBodiless) Bool.false_ne_true
    · have hResponse : (makeJsonError json status errorCode >>= fun response =>
          response.finish version headers false >>= fun response =>
            applyRequestId json response requestId) = .ok ({ response.set "X-Request-ID"
              requestId.toList with body := labelledText } : HttpResponse).contentLength := by
        rw [hText]
        change ((jsonResponse status text).finish version headers false >>= fun response =>
          applyRequestId json response requestId) = _
        rw [hResult]
        exact hAttached
      have hCodeKept : Json.Members.find (Json.Members.insert [("code", Json.string errorCode),
          ("message", .string (defaultApiErrorMessage errorCode))] "request_id" (.string requestId))
            "code" = some (.string errorCode) := by
        rw [Json.Members.find_insert_of_ne (by decide)]
        rfl
      exact ⟨_, hResponse, hFinished.status, ⟨_, _, hLabelledParse, Json.Members.find_insert _ _ _, hCodeKept⟩,
        (HttpResponse.keepAlive_contentLength _).trans hKept⟩

/-! ## The three responses that a session makes itself -/

theorem protocolError_ok (hJson : json.Documented) {status : Nat} {errorCode : String}
    (hCode : ValidUtf8 errorCode)
    (hStatus : ({ HttpResponse.initial with status := status } : HttpResponse).bodiless = false)
    (source : RequestIdSource) :
    ∃ response, protocolError json status errorCode source = .ok response ∧
      FinalError json status errorCode response :=
  finalError_ok hJson hCode hStatus Clear.nil 11 (generateRequestId_valid source)

theorem rejectSubmission_ok (hJson : json.Documented) (request : HttpMessage) (met : Surrounding)
    {requestId : String} (hId : isValidRequestId requestId = true) :
    ∃ response, rejectSubmission json request met requestId = .ok response ∧
      FinalError json 503 (if met.submitted = .queueFull then "server_busy" else "server_shutting_down")
        response := by
  have hCode : ValidUtf8 (if met.submitted = .queueFull then "server_busy" else "server_shutting_down") := by
    split <;> exact validUtf8_ofList rfl
  exact finalError_ok hJson hCode (by decide) (.cons (by decide) (.cons (by decide)
    (.cons (by decide) .nil))) request.version hId

theorem rejectNewRequestDuringDrain_ok (hJson : json.Documented) (request : HttpMessage)
    (met : Surrounding) :
    ∃ response, rejectNewRequestDuringDrain json request met = .ok response ∧
      FinalError json 503 "server_shutting_down" response :=
  finalError_ok hJson (validUtf8_ofList rfl) (by decide) (.cons (by decide) (.cons (by decide) .nil))
    request.version (resolveRequestId_valid request met.sessionId)

end SecureCore

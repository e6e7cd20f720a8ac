import SecureCore.Http.Responses

/-! # The stages of a request

What the router, every middleware and the session make of the outcome behind them: the
responses stay such that the request id completes them, and the connection stays open only
behind an API error that the error middleware answers. -/

namespace SecureCore

set_option autoImplicit false

open TrustedProxy

variable {json : JsonLibrary} {request : HttpMessage} {context : RequestContext} {next : Next}

/-- Whatever response comes, the request id completes it. -/
def Delivers (json : JsonLibrary) (next : Next) : Prop :=
  ∀ response, next = .ok response → Ready json response

/-- A response comes that asks to keep the connection, and the request id completes it. -/
def StaysOpen (json : JsonLibrary) (next : Next) : Prop :=
  ∃ response, next = .ok response ∧ response.keepAlive = true ∧ ¬Barred json response

/-- An API error comes that becomes a response, and the request id completes that. -/
def Apologises (next : Next) : Prop :=
  ∃ status error, next = .error (.api status error) ∧ error.Valid ∧
    ({ HttpResponse.initial with status := status } : HttpResponse).bodiless = false

theorem delivers_ok {response : HttpResponse} (h : Ready json response) : Delivers json (.ok response) := by
  intro other hOther
  cases hOther
  exact h

theorem delivers_error {e : Thrown} : Delivers json (.error e) := fun _ h => nomatch h

theorem not_staysOpen_ok {response : HttpResponse} (h : response.keepAlive = false) :
    ¬StaysOpen json (.ok response) := by
  rintro ⟨other, hOther, hOpen, -⟩
  cases hOther
  exact Bool.false_ne_true (h.symm.trans hOpen)

theorem not_staysOpen_error {e : Thrown} : ¬StaysOpen json (.error e) := by
  rintro ⟨_, hOther, _⟩
  cases hOther

theorem not_apologises_ok {response : HttpResponse} : ¬Apologises (.ok response) := by
  rintro ⟨_, _, hOther, _⟩
  cases hOther

theorem not_apologises_standard {e : Exception} : ¬Apologises (.error (.standard e)) := by
  rintro ⟨_, _, hOther, _⟩
  cases hOther

/-! ## Errors of the program itself -/

/-- A JSON error that is completed by hand. -/
theorem finished_error (hJson : json.Documented) (status : Nat) {errorCode : String}
    (hCode : ValidUtf8 errorCode)
    (hStatus : ({ HttpResponse.initial with status := status } : HttpResponse).bodiless = false)
    {headers : List (String × List Char)} (hClear : Clear headers) (version : Nat) (keepAlive : Bool) :
    ∃ response, (makeJsonError json status errorCode >>= fun response =>
        response.finish version headers keepAlive) = .ok response ∧
      Ready json response ∧ response.keepAlive = keepAlive ∧ response.bodiless = false := by
  obtain ⟨text, hText, hError⟩ := makeJsonError_ok hJson status hCode
  rcases finish_cases (jsonResponse status text) hClear version keepAlive with
    ⟨hBodiless, -⟩ | ⟨response, hResult, hFinished⟩
  · exact absurd (hStatus.symm.trans hBodiless) Bool.false_ne_true
  · refine ⟨response, ?_, ?_, hFinished.keepAlive, ?_⟩
    · rw [hError]
      exact hResult
    · exact hFinished.ready (fun _ => responseIsJson_jsonResponse status text)
    · unfold HttpResponse.bodiless
      rw [hFinished.status]
      exact hStatus

/-- The same with the request id put in. -/
theorem labelled_error (hJson : json.Documented) {status : Nat} {errorCode : String}
    (hCode : ValidUtf8 errorCode)
    (hStatus : ({ HttpResponse.initial with status := status } : HttpResponse).bodiless = false)
    {headers : List (String × List Char)} (hClear : Clear headers) (version : Nat) {requestId : String}
    (hId : isValidRequestId requestId = true) :
    ∃ response, (makeJsonError json status errorCode >>= fun response =>
        response.finish version headers false >>= fun response =>
          applyRequestId json response requestId) = .ok response ∧
      Answered json requestId response ∧ response.keepAlive = false := by
  obtain ⟨response, hResult, hReady, hClosed, hBodied⟩ :=
    finished_error hJson status hCode hStatus hClear version false
  rw [← bind_assoc, hResult]
  rcases applyRequestId_cases hJson hReady hId with ⟨hBarred, -⟩ | ⟨-, result, hApplied, hAnswered, hKept⟩
  · exact absurd (hBodied.symm.trans hBarred.1) Bool.false_ne_true
  · exact ⟨result, hApplied, hAnswered, hKept.trans hClosed⟩

theorem workerFailure_answered (hJson : json.Documented) (request : HttpMessage) {requestId : String}
    (hId : isValidRequestId requestId = true) :
    ∃ response, workerFailure json request requestId = .ok response ∧
      Answered json requestId response ∧ response.keepAlive = false :=
  labelled_error hJson (validUtf8_ofList rfl) (by decide) Clear.nil request.version hId

/-! ## The router -/

theorem not_hasError (hJson : json.Documented) {text : String}
    (h : text = "" ∨ text.toList.head? = some '#') : ¬HasError json text := by
  rintro ⟨body, error, hBody, -⟩
  exact absurd ((hJson.parse_nothing text h).symm.trans hBody) (fun h => nomatch h)

/-- The response with the version and the server that finalize_response gives it. -/
def served (response : HttpResponse) (request : HttpMessage) : HttpResponse :=
  if ((response.setVersion request.version).fields.find "Server").isNone then
    (response.setVersion request.version).set "Server" "SecureCore".toList
  else response.setVersion request.version

/-- The response as finalize_response has it before it sets the connection and the length. -/
def typed (response : HttpResponse) : HttpResponse :=
  if response.status != 204 && (response.fields.find "Content-Type").isNone then
    response.set "Content-Type" "application/json".toList else response

section typed

variable (response : HttpResponse) (request : HttpMessage)

theorem served_status : (served response request).status = response.status := by
  unfold served
  split <;> rfl

theorem served_body : (served response request).body = response.body := by
  unfold served
  split <;> rfl

theorem served_contentType : (served response request).fields.valuesOf "Content-Type" =
    response.fields.valuesOf "Content-Type" := by
  unfold served
  split
  · exact Fields.valuesOf_set_of_ne (by decide) _ _
  · rfl

theorem typed_status : (typed response).status = response.status := by
  unfold typed
  split <;> rfl

theorem typed_body : (typed response).body = response.body := by
  unfold typed
  split <;> rfl

theorem typed_of_isJson (h : responseIsJson response = true) : typed response = response := by
  unfold responseIsJson at h
  unfold typed
  cases hFound : response.fields.find "Content-Type" with
  | none =>
    rw [hFound] at h
    cases h
  | some _ => rw [Option.isNone_some, Bool.and_false, if_neg Bool.false_ne_true]

end typed

theorem finalizeResponse_cases (response : HttpResponse) (request : HttpMessage)
    (hLabelled : HasError json response.body → responseIsJson response = true) :
    response.bodiless = true ∧ (∃ e, finalizeResponse response request = .error (.standard e)) ∨
      ∃ result, finalizeResponse response request = .ok result ∧ Ready json result ∧
        result.keepAlive = request.keepAlive := by
  rcases prepared_cases (typed (served response request)) request.keepAlive with
    ⟨hBodiless, e, hError⟩ | ⟨result, hResult, hFinished⟩
  · left
    unfold HttpResponse.bodiless at hBodiless ⊢
    rw [typed_status, served_status] at hBodiless
    exact ⟨hBodiless, e, hError⟩
  · right
    refine ⟨result, hResult, hFinished.ready ?_, hFinished.keepAlive⟩
    rw [typed_body, served_body]
    intro hHasError
    have hServed : responseIsJson (served response request) = true :=
      (responseIsJson_congr (served_contentType response request)).trans (hLabelled hHasError)
    rw [typed_of_isJson _ hServed]
    exact hServed

theorem makeErrorResponse_ok (hJson : json.Documented) (request : HttpMessage) (status : Nat)
    {errorCode : String} (hCode : ValidUtf8 errorCode)
    (hStatus : ({ HttpResponse.initial with status := status } : HttpResponse).bodiless = false) :
    ∃ response, makeErrorResponse json request status errorCode = .ok response ∧
      Ready json response ∧ response.keepAlive = request.keepAlive := by
  obtain ⟨text, hText, hError⟩ := makeJsonError_ok hJson status hCode
  have hLabelled : HasError json (jsonResponse status text).body →
      responseIsJson (jsonResponse status text) = true :=
    fun _ => responseIsJson_jsonResponse status text
  rcases finalizeResponse_cases (jsonResponse status text) request hLabelled with
    ⟨hBodiless, -⟩ | ⟨response, hResult, hReady⟩
  · exact absurd (hStatus.symm.trans hBodiless) Bool.false_ne_true
  · refine ⟨response, ?_, hReady⟩
    unfold makeErrorResponse
    rw [hError]
    exact hResult

/-- The fields that a handler adds to its JSON. -/
def routeHeaders (wwwAuthenticate : Bool) (retryAfter : Option Nat) (location : Option String) :
    List (String × List Char) :=
  (if wwwAuthenticate then [("WWW-Authenticate", "Bearer".toList)] else []) ++
    (retryAfter.toList.map (fun seconds => ("Retry-After", decimal seconds)) ++
      location.toList.map (fun location => ("Location", location.toList)))

theorem routeHeaders_clear (wwwAuthenticate : Bool) (retryAfter : Option Nat) (location : Option String) :
    Clear (routeHeaders wwwAuthenticate retryAfter location) := by
  apply Clear.append
  · exact .ite (.cons (by decide) .nil) .nil
  · apply Clear.append
    · cases retryAfter with
      | none => exact .nil
      | some _ => exact .cons (by decide) .nil
    · cases location with
      | none => exact .nil
      | some _ => exact .cons (by decide) .nil

theorem build_json (request : HttpMessage) (status : Nat) (body : Json) (wwwAuthenticate : Bool)
    (retryAfter : Option Nat) (location : Option String) :
    (RouteResponse.json status body wwwAuthenticate retryAfter location).build json request =
      (makeJsonResponse json status body).map (fun response =>
        response.setAll (routeHeaders wwwAuthenticate retryAfter location)) := by
  simp only [RouteResponse.build]
  cases makeJsonResponse json status body with
  | error e => rfl
  | ok response => cases wwwAuthenticate <;> cases retryAfter <;> cases location <;> rfl

/-- What a handler builds is labelled, or it cannot be built because of a text. -/
theorem build_cases (hJson : json.Documented) (request : HttpMessage) (handled : RouteResponse) :
    (∃ e, handled.build json request = .error (.standard e)) ∨
      ∃ response, handled.build json request = .ok response ∧
        (HasError json response.body → responseIsJson response = true) := by
  cases handled with
  | json status body wwwAuthenticate retryAfter location =>
    rw [build_json, makeJsonResponse_eq]
    cases json.dump body with
    | none => exact .inl ⟨_, rfl⟩
    | some text =>
      right
      refine ⟨_, rfl, fun _ => ?_⟩
      refine (responseIsJson_congr ?_).trans (responseIsJson_jsonResponse status text)
      exact HttpResponse.valuesOf_setAll (fun name hName =>
        routeHeaders_clear wwwAuthenticate retryAfter location name hName _ (by decide))
  | noContent =>
    rcases prepared_cases ⟨request.version, 204, [], ""⟩ request.keepAlive with
      ⟨-, hError⟩ | ⟨response, hResponse, hFinished⟩
    · exact .inl hError
    · refine .inr ⟨response, hResponse, fun hHasError => ?_⟩
      rw [hFinished.body] at hHasError
      exact absurd hHasError (not_hasError hJson (.inl rfl))
  | metrics exposition =>
    right
    refine ⟨_, rfl, fun hHasError => absurd hHasError (not_hasError hJson (.inr ?_))⟩
    change ("# HELP" ++ exposition).toList.head? = some '#'
    rw [String.toList_append]
    rfl

/-- Errors of the router keep the connection as the request asks, and are no API errors. -/
theorem dispatch_cases (hJson : json.Documented) (request : HttpMessage) (dispatched : Dispatched) :
    (∃ exception, dispatched = .thrown exception ∧ dispatch json request dispatched = .error exception) ∨
      (∃ e, dispatch json request dispatched = .error (.standard e)) ∨
      ∃ response, dispatch json request dispatched = .ok response ∧ Ready json response ∧
        response.keepAlive = request.keepAlive := by
  cases dispatched with
  | badRequest => exact .inr (.inr (makeErrorResponse_ok hJson request 400 (validUtf8_ofList rfl) (by decide)))
  | notFound => exact .inr (.inr (makeErrorResponse_ok hJson request 404 (validUtf8_ofList rfl) (by decide)))
  | methodNotAllowed allow =>
    right
    right
    have hCode : ValidUtf8 "method_not_allowed" := validUtf8_ofList rfl
    obtain ⟨response, hResponse, hReady, hKept⟩ :=
      makeErrorResponse_ok hJson request 405 hCode (by decide)
    have hClear : Clear [("Allow", allow)] := .cons (by decide) .nil
    refine ⟨response.setAll [("Allow", allow)], ?_, hReady.setAll hClear, ?_⟩
    · rw [dispatch, hResponse]
      rfl
    · exact (HttpResponse.keepAlive_setAll hClear).trans hKept
  | handled handled =>
    right
    rw [dispatch]
    rcases build_cases hJson request handled with ⟨e, hError⟩ | ⟨response, hBuilt, hLabelled⟩
    · rw [hError]
      exact .inl ⟨e, rfl⟩
    · rw [hBuilt]
      exact (finalizeResponse_cases response request hLabelled).imp (fun h => h.2) id
  | thrown exception => exact .inl ⟨exception, rfl, rfl⟩

/-! ## The middlewares -/

section middlewares

variable {source : RequestIdSource} {hstsPolicy : HstsPolicy} {policy : CorsPolicy}
  {decision : RateLimitDecision}

theorem setAll_barred {response : HttpResponse} {headers : List (String × List Char)} :
    Barred json (response.setAll headers) ↔ Barred json response := by
  unfold Barred HttpResponse.bodiless
  rw [HttpResponse.setAll_status, HttpResponse.setAll_body]

theorem delivers_setAll {headers : List (String × List Char)} (hClear : Clear headers)
    (h : Delivers json next) : Delivers json (next.map (fun response => response.setAll headers)) := by
  cases next with
  | error e => exact delivers_error
  | ok response => exact delivers_ok ((h response rfl).setAll hClear)

theorem staysOpen_setAll {headers : List (String × List Char)} (hClear : Clear headers) :
    StaysOpen json (next.map (fun response => response.setAll headers)) ↔ StaysOpen json next := by
  cases next with
  | error e => exact iff_of_false not_staysOpen_error not_staysOpen_error
  | ok response =>
    constructor
    · rintro ⟨_, hOther, hOpen, hNotBarred⟩
      cases hOther
      rw [HttpResponse.keepAlive_setAll hClear] at hOpen
      exact ⟨response, rfl, hOpen, mt setAll_barred.mpr hNotBarred⟩
    · rintro ⟨_, hOther, hOpen, hNotBarred⟩
      cases hOther
      refine ⟨_, rfl, ?_, mt setAll_barred.mp hNotBarred⟩
      rw [HttpResponse.keepAlive_setAll hClear]
      exact hOpen

/-- The rate limit closes the connection of a client that it rejects. -/
theorem rateLimitMiddleware_rejects (hJson : json.Documented) (context : RequestContext) (next : Next)
    (h : decision.allowed = false) :
    ∃ response, rateLimitMiddleware json decision context next = .ok response ∧
      Ready json response ∧ response.keepAlive = false := by
  have hCode : ValidUtf8 "rate_limit_exceeded" := validUtf8_ofList rfl
  have hClear : Clear [("Retry-After", decimal decision.retryAfter),
      ("X-RateLimit-Limit", decimal decision.limit), ("X-RateLimit-Remaining", "0".toList)] :=
    .cons (by decide) (.cons (by decide) (.cons (by decide) .nil))
  obtain ⟨response, hResponse, hReady, hClosed, -⟩ :=
    finished_error hJson 429 hCode (by decide) hClear context.request.version false
  refine ⟨response, ?_, hReady, hClosed⟩
  unfold rateLimitMiddleware
  rw [h]
  exact hResponse

def rateLimitHeaders (decision : RateLimitDecision) : List (String × List Char) :=
  if decision.limit != 0 then
    [("X-RateLimit-Limit", decimal decision.limit), ("X-RateLimit-Remaining", decimal decision.remaining)]
  else []

theorem rateLimitHeaders_clear (decision : RateLimitDecision) : Clear (rateLimitHeaders decision) :=
  .ite (.cons (by decide) (.cons (by decide) .nil)) .nil

theorem rateLimitMiddleware_allows (h : decision.allowed = true) :
    rateLimitMiddleware json decision context next =
      next.map (fun response => response.setAll (rateLimitHeaders decision)) := by
  unfold rateLimitMiddleware rateLimitHeaders
  rw [h]
  cases next with
  | error e => rfl
  | ok response =>
    cases decision.limit != 0 <;> rfl

theorem apologises_map (f : HttpResponse → HttpResponse) : Apologises (next.map f) ↔ Apologises next := by
  cases next with
  | error e => exact Iff.rfl
  | ok response => exact iff_of_false not_apologises_ok not_apologises_ok

theorem delivers_rateLimit (hJson : json.Documented) (h : Delivers json next) :
    Delivers json (rateLimitMiddleware json decision context next) := by
  cases hAllowed : decision.allowed with
  | false =>
    obtain ⟨response, hResponse, hReady, -⟩ :=
      rateLimitMiddleware_rejects hJson context next hAllowed
    rw [hResponse]
    exact delivers_ok hReady
  | true =>
    rw [rateLimitMiddleware_allows hAllowed]
    exact delivers_setAll (rateLimitHeaders_clear decision) h

theorem staysOpen_rateLimit (hJson : json.Documented) :
    StaysOpen json (rateLimitMiddleware json decision context next) ↔
      decision.allowed = true ∧ StaysOpen json next := by
  cases hAllowed : decision.allowed with
  | false =>
    obtain ⟨response, hResponse, -, hClosed⟩ :=
      rateLimitMiddleware_rejects hJson context next hAllowed
    rw [hResponse]
    exact iff_of_false (not_staysOpen_ok hClosed) (fun h => Bool.false_ne_true h.1)
  | true =>
    rw [rateLimitMiddleware_allows hAllowed, staysOpen_setAll (rateLimitHeaders_clear decision)]
    exact (and_iff_right rfl).symm

theorem apologises_rateLimit (hJson : json.Documented) :
    Apologises (rateLimitMiddleware json decision context next) ↔
      decision.allowed = true ∧ Apologises next := by
  cases hAllowed : decision.allowed with
  | false =>
    obtain ⟨response, hResponse, -⟩ :=
      rateLimitMiddleware_rejects hJson context next hAllowed
    rw [hResponse]
    exact iff_of_false not_apologises_ok (fun h => Bool.false_ne_true h.1)
  | true =>
    rw [rateLimitMiddleware_allows hAllowed, apologises_map]
    exact (and_iff_right rfl).symm

theorem makeInternalErrorResponse_ok (hJson : json.Documented) (request : HttpMessage) :
    ∃ response, makeInternalErrorResponse json request = .ok response ∧ Ready json response ∧
      response.keepAlive = false := by
  have hCode : ValidUtf8 "internal_server_error" := validUtf8_ofList rfl
  obtain ⟨response, hResponse, hReady, hClosed, -⟩ :=
    finished_error hJson 500 hCode (by decide) Clear.nil request.version false
  exact ⟨response, hResponse, hReady, hClosed⟩

theorem delivers_error_middleware (hJson : json.Documented) (h : Delivers json next) :
    Delivers json (errorMiddleware json context next) := by
  obtain ⟨internal, hInternal, hInternalReady, -⟩ := makeInternalErrorResponse_ok hJson context.request
  unfold errorMiddleware
  split
  · exact h
  · rename_i status error
    rcases makeApiErrorResponse_cases hJson status error with ⟨-, hFailed⟩ | ⟨-, text, hText, hMade⟩
    · rw [hFailed]
      exact delivers_error
    · rw [hMade]
      exact delivers_ok (Ready.jsonResponse hText status)
  · rw [hInternal]
    exact delivers_ok hInternalReady
  · rw [hInternal]
    exact delivers_ok hInternalReady

/-- The answer to an API error takes nothing over from the request. -/
theorem staysOpen_errorMiddleware (hJson : json.Documented) :
    StaysOpen json (errorMiddleware json context next) ↔ StaysOpen json next ∨ Apologises next := by
  obtain ⟨internal, hInternal, -, hClosed⟩ := makeInternalErrorResponse_ok hJson context.request
  cases next with
  | ok response => exact (or_iff_left not_apologises_ok).symm
  | error thrown =>
    rw [or_iff_right not_staysOpen_error]
    cases thrown with
    | api status error =>
      change StaysOpen json (makeApiErrorResponse json status error) ↔ _
      rcases makeApiErrorResponse_cases hJson status error with ⟨hInvalid, hFailed⟩ | ⟨hValid, text, hText, hMade⟩
      · rw [hFailed]
        refine iff_of_false not_staysOpen_error ?_
        rintro ⟨_, _, hThrown, hValid, -⟩
        cases hThrown
        exact hInvalid hValid
      · rw [hMade]
        constructor
        · rintro ⟨_, hOther, -, hNotBarred⟩
          cases hOther
          refine ⟨status, error, rfl, hValid, Bool.eq_false_iff.mpr (fun hBodiless => ?_)⟩
          exact hNotBarred ⟨hBodiless, hText⟩
        · rintro ⟨_, _, hThrown, -, hBodied⟩
          cases hThrown
          refine ⟨_, rfl, keepAlive_jsonResponse status text, fun hBarred => ?_⟩
          exact Bool.false_ne_true (hBodied.symm.trans hBarred.1)
    | standard e =>
      change StaysOpen json (makeInternalErrorResponse json context.request) ↔ _
      rw [hInternal]
      exact iff_of_false (not_staysOpen_ok hClosed) not_apologises_standard
    | unknown =>
      change StaysOpen json (makeInternalErrorResponse json context.request) ↔ _
      rw [hInternal]
      refine iff_of_false (not_staysOpen_ok hClosed) ?_
      rintro ⟨_, _, hThrown, -⟩
      cases hThrown

def originHeaders (policy : CorsPolicy) (origin : Option (List Char)) (preflight : Bool) :
    List (String × List Char) :=
  match origin with
  | none => []
  | some origin => corsHeaders policy origin preflight

theorem withCorsHeaders_eq (policy : CorsPolicy) (origin : Option (List Char)) (preflight : Bool)
    (response : HttpResponse) : withCorsHeaders policy origin preflight response =
      response.setAll (originHeaders policy origin preflight) := by
  cases origin <;> rfl

theorem originHeaders_clear (policy : CorsPolicy) (origin : Option (List Char)) (preflight : Bool) :
    Clear (originHeaders policy origin preflight) := by
  cases origin with
  | none => exact .nil
  | some origin => exact corsHeaders_clear policy origin preflight

theorem corsMiddleware_passed {origin : Option (List Char)}
    (h : corsGate policy context.request = .passed origin) : corsMiddleware json policy context next =
      next.map (fun response => response.setAll (originHeaders policy origin false)) := by
  unfold corsMiddleware
  rw [h]
  cases next with
  | error e => rfl
  | ok response =>
    change Except.ok (withCorsHeaders policy origin false response) = _
    rw [withCorsHeaders_eq]
    rfl

/-- What the CORS middleware answers itself keeps the connection as the request asks. -/
theorem corsMiddleware_answers (hJson : json.Documented) (next : Next)
    (h : ∀ origin, corsGate policy context.request ≠ .passed origin) :
    (∃ e, corsMiddleware json policy context next = .error e) ∨
      ∃ response, corsMiddleware json policy context next = .ok response ∧
        Ready json response ∧ response.keepAlive = context.request.keepAlive := by
  unfold corsMiddleware
  cases hGate : corsGate policy context.request with
  | originDenied =>
    have hCode : ValidUtf8 "cors_origin_denied" := validUtf8_ofList rfl
    obtain ⟨response, hResponse, hReady, hKept, -⟩ := finished_error hJson 403 hCode (by decide)
      Clear.nil context.request.version context.request.keepAlive
    exact .inr ⟨response, hResponse, hReady, hKept⟩
  | preflightDenied origin =>
    have hCode : ValidUtf8 "cors_preflight_denied" := validUtf8_ofList rfl
    obtain ⟨response, hResponse, hReady, hKept, -⟩ := finished_error hJson 403 hCode (by decide)
      Clear.nil context.request.version context.request.keepAlive
    have hClear := originHeaders_clear policy (some origin) true
    refine .inr ⟨response.setAll (originHeaders policy (some origin) true), ?_, hReady.setAll hClear, ?_⟩
    · rw [← withCorsHeaders_eq]
      change (makeJsonError json 403 "cors_preflight_denied" >>= fun response =>
        response.finish context.request.version [] context.request.keepAlive >>= fun response =>
          Except.ok (withCorsHeaders policy (some origin) true response)) = _
      rw [← bind_assoc, hResponse]
      rfl
    · exact (HttpResponse.keepAlive_setAll hClear).trans hKept
  | options origin preflight =>
    rcases finish_cases ⟨context.request.version, 204, [], ""⟩ Clear.nil
      context.request.version context.request.keepAlive with ⟨-, e, hError⟩ | ⟨response, hResponse, hFinished⟩
    · left
      refine ⟨.standard e, ?_⟩
      unfold prepareMiddlewareResponse
      rw [hError]
      rfl
    · right
      have hClear := originHeaders_clear policy origin preflight
      have hReady : Ready json response :=
        hFinished.ready (fun hHasError => absurd hHasError (not_hasError hJson (.inl rfl)))
      refine ⟨response.setAll (originHeaders policy origin preflight), ?_, hReady.setAll hClear, ?_⟩
      · unfold prepareMiddlewareResponse
        rw [hResponse, ← withCorsHeaders_eq]
        rfl
      · exact (HttpResponse.keepAlive_setAll hClear).trans hFinished.keepAlive
  | passed origin => exact absurd hGate (h origin)

theorem delivers_cors (hJson : json.Documented) (h : Delivers json next) :
    Delivers json (corsMiddleware json policy context next) := by
  by_cases hPassed : ∃ origin, corsGate policy context.request = .passed origin
  · obtain ⟨origin, hGate⟩ := hPassed
    rw [corsMiddleware_passed hGate]
    exact delivers_setAll (originHeaders_clear policy origin false) h
  · rcases corsMiddleware_answers hJson next (not_exists.mp hPassed) with
      ⟨e, hError⟩ | ⟨response, hResponse, hReady, -⟩
    · rw [hError]
      exact delivers_error
    · rw [hResponse]
      exact delivers_ok hReady

theorem staysOpen_cors (hJson : json.Documented) (hClose : context.request.keepAlive = false) :
    StaysOpen json (corsMiddleware json policy context next) ↔
      (∃ origin, corsGate policy context.request = .passed origin) ∧ StaysOpen json next := by
  by_cases hPassed : ∃ origin, corsGate policy context.request = .passed origin
  · rw [and_iff_right hPassed]
    obtain ⟨origin, hGate⟩ := hPassed
    rw [corsMiddleware_passed hGate, staysOpen_setAll (originHeaders_clear policy origin false)]
  · rcases corsMiddleware_answers hJson next (not_exists.mp hPassed) with
      ⟨e, hError⟩ | ⟨response, hResponse, -, hKept⟩
    · rw [hError]
      exact iff_of_false not_staysOpen_error (fun h => hPassed h.1)
    · rw [hResponse]
      exact iff_of_false (not_staysOpen_ok (hKept.trans hClose)) (fun h => hPassed h.1)

theorem securityHeadersMiddleware_eq : securityHeadersMiddleware hstsPolicy context next =
    next.map (fun response => response.setAll (securityHeaders context hstsPolicy)) := by
  cases next <;> rfl

/-- A response leaves the chain with the request id in it. -/
theorem requestIdMiddleware_answers (hJson : json.Documented) (h : Delivers json next)
    {response : HttpResponse} (hResponse : requestIdMiddleware json source context next = .ok response) :
    Answered json (resolveRequestId context.request source) response := by
  cases next with
  | error e => cases hResponse
  | ok inner =>
    rcases applyRequestId_cases hJson (h inner rfl) (resolveRequestId_valid context.request source) with
      ⟨-, e, hError⟩ | ⟨-, result, hApplied, hAnswered, -⟩
    · cases hError.symm.trans hResponse
    · cases hApplied.symm.trans hResponse
      exact hAnswered

theorem requestIdMiddleware_open (hJson : json.Documented) (source : RequestIdSource)
    (context : RequestContext) (h : Delivers json next) :
    (∃ response, requestIdMiddleware json source context next = .ok response ∧
      response.keepAlive = true) ↔ StaysOpen json next := by
  cases next with
  | error e =>
    refine iff_of_false ?_ not_staysOpen_error
    rintro ⟨_, hOther, -⟩
    cases hOther
  | ok inner =>
    change (∃ response, applyRequestId json inner (resolveRequestId context.request source) = .ok response ∧
      response.keepAlive = true) ↔ _
    rcases applyRequestId_cases hJson (h inner rfl) (resolveRequestId_valid context.request source) with
      ⟨hBarred, e, hError⟩ | ⟨hNotBarred, result, hApplied, -, hKept⟩
    · rw [hError]
      constructor
      · rintro ⟨_, hOther, -⟩
        cases hOther
      · rintro ⟨_, hOther, -, hNotBarred⟩
        cases hOther
        exact absurd hBarred hNotBarred
    · rw [hApplied]
      constructor
      · rintro ⟨_, hOther, hOpen⟩
        cases hOther
        exact ⟨inner, rfl, hKept.symm.trans hOpen, hNotBarred⟩
      · rintro ⟨_, hOther, hOpen, -⟩
        cases hOther
        exact ⟨result, rfl, hKept.trans hOpen⟩

end middlewares

/-! ## The chain and the session -/

section session

variable {config : SessionConfig} {peerIp : List Char} {met : Surrounding}

/-- The client address could not be read out of the proxy headers. -/
def proxyError (config : SessionConfig) (peerIp : List Char) (request : HttpMessage) : Option ApiError :=
  match config.trustedProxyResolver.resolve config.text peerIp request.fields false with
  | .error error => some ⟨error.code, error.message, []⟩
  | .ok _ => none

theorem terminalHandler_cases (hJson : json.Documented) (request : HttpMessage) (met : Surrounding)
    (error : Option ApiError) :
    (∃ e, terminalHandler json request met error = .error e) ∨
      ∃ response, terminalHandler json request met error = .ok response ∧
        Ready json response ∧ response.keepAlive = request.keepAlive := by
  cases error with
  | some error => exact .inl ⟨_, rfl⟩
  | none =>
    change (∃ e, dispatch json request met.dispatched = .error e) ∨
      ∃ response, dispatch json request met.dispatched = .ok response ∧ _
    rcases dispatch_cases hJson request met.dispatched with ⟨exception, -, h⟩ | ⟨e, h⟩ | h
    · exact .inl ⟨exception, h⟩
    · exact .inl ⟨.standard e, h⟩
    · exact .inr h

theorem delivers_terminalHandler (hJson : json.Documented) (request : HttpMessage) (met : Surrounding)
    (error : Option ApiError) : Delivers json (terminalHandler json request met error) := by
  rcases terminalHandler_cases hJson request met error with ⟨e, h⟩ | ⟨response, h, hReady, -⟩
  · rw [h]
    exact delivers_error
  · rw [h]
    exact delivers_ok hReady

theorem not_staysOpen_terminalHandler (hJson : json.Documented) (met : Surrounding)
    (error : Option ApiError) (hClose : request.keepAlive = false) :
    ¬StaysOpen json (terminalHandler json request met error) := by
  rcases terminalHandler_cases hJson request met error with ⟨e, h⟩ | ⟨response, h, -, hKept⟩
  · rw [h]
    exact not_staysOpen_error
  · rw [h]
    exact not_staysOpen_ok (hKept.trans hClose)

/-- The four middlewares behind the one of the request id. -/
def innerChain (json : JsonLibrary) (config : SessionConfig) (met : Surrounding) (context : RequestContext)
    (next : Next) : Next :=
  execute [securityHeadersMiddleware config.hstsPolicy, corsMiddleware json config.corsPolicy,
    errorMiddleware json, rateLimitMiddleware json met.rateLimit] context next

theorem delivers_innerChain (hJson : json.Documented) (h : Delivers json next) :
    Delivers json (innerChain json config met context next) := by
  unfold innerChain execute
  simp only [List.foldr_cons, List.foldr_nil]
  rw [securityHeadersMiddleware_eq]
  apply delivers_setAll (securityHeaders_clear context config.hstsPolicy)
  exact delivers_cors hJson (delivers_error_middleware hJson (delivers_rateLimit hJson h))

theorem staysOpen_innerChain (hJson : json.Documented) (hClose : context.request.keepAlive = false)
    (hNext : ¬StaysOpen json next) :
    StaysOpen json (innerChain json config met context next) ↔
      (∃ origin, corsGate config.corsPolicy context.request = .passed origin) ∧
        met.rateLimit.allowed = true ∧ Apologises next := by
  unfold innerChain execute
  simp only [List.foldr_cons, List.foldr_nil]
  rw [securityHeadersMiddleware_eq, staysOpen_setAll (securityHeaders_clear context config.hstsPolicy),
    staysOpen_cors hJson hClose, staysOpen_errorMiddleware hJson, staysOpen_rateLimit hJson,
    apologises_rateLimit hJson]
  constructor
  · rintro ⟨hPassed, hOpen | hThrown⟩
    · exact absurd hOpen.2 hNext
    · exact ⟨hPassed, hThrown⟩
  · rintro ⟨hPassed, hThrown⟩
    exact ⟨hPassed, .inr hThrown⟩

/-- What the chain starts from. -/
def contextOf (config : SessionConfig) (peerIp : List Char) (request : HttpMessage) : RequestContext :=
  let client : ResolvedClient :=
    match config.trustedProxyResolver.resolve config.text peerIp request.fields false with
    | .error _ => ⟨peerIp, false, false⟩
    | .ok client => client
  ⟨request, client.clientIp, peerIp, client.secureTransport, client.usedForwardedHeaders⟩

theorem runPipeline_eq : runPipeline json config peerIp request met =
    requestIdMiddleware json met.middlewareId (contextOf config peerIp request)
      (innerChain json config met (contextOf config peerIp request)
        (terminalHandler json request met (proxyError config peerIp request))) := by
  unfold runPipeline contextOf proxyError
  cases config.trustedProxyResolver.resolve config.text peerIp request.fields false <;> rfl

theorem delivers_chain (hJson : json.Documented) (config : SessionConfig) (peerIp : List Char)
    (request : HttpMessage) (met : Surrounding) :
    Delivers json (innerChain json config met (contextOf config peerIp request)
      (terminalHandler json request met (proxyError config peerIp request))) :=
  delivers_innerChain hJson (delivers_terminalHandler hJson request met _)

/-- The worker always has an answer. -/
theorem workerTask_answered (hJson : json.Documented) (config : SessionConfig) (peerIp : List Char)
    (met : Surrounding) {requestId : String}
    (hId : isValidRequestId requestId = true)
    (hSame : resolveRequestId request met.middlewareId = requestId) :
    ∃ response, workerTask json config peerIp request met requestId = .ok response ∧
      Answered json requestId response ∧
        (response.keepAlive = true ↔ StaysOpen json (innerChain json config met
          (contextOf config peerIp request)
          (terminalHandler json request met (proxyError config peerIp request)))) := by
  have hDelivers := delivers_chain hJson config peerIp request met
  have hOpen := requestIdMiddleware_open hJson met.middlewareId (contextOf config peerIp request) hDelivers
  rw [← runPipeline_eq] at hOpen
  unfold workerTask
  cases hRun : runPipeline json config peerIp request met with
  | ok response =>
    refine ⟨response, rfl, ?_, ?_⟩
    · rw [← hSame]
      rw [runPipeline_eq] at hRun
      exact requestIdMiddleware_answers hJson hDelivers hRun
    · rw [← hOpen]
      constructor
      · intro h
        exact ⟨response, hRun, h⟩
      · rintro ⟨_, hOther, h⟩
        cases hRun.symm.trans hOther
        exact h
  | error e =>
    obtain ⟨response, hResponse, hAnswered, hClosed⟩ := workerFailure_answered hJson request hId
    refine ⟨response, hResponse, hAnswered, ?_⟩
    rw [← hOpen, hClosed]
    refine iff_of_false Bool.false_ne_true ?_
    rintro ⟨_, hOther, -⟩
    cases hRun.symm.trans hOther

end session

end SecureCore

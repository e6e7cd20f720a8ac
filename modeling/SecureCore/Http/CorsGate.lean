import SecureCore.Http.CorsPolicy
import SecureCore.Http.Persistence
import SecureCore.Http.Sample

/-! # The CORS gate

Which requests get past the CORS middleware, and which headers a response carries when it
leaves the pipeline, if the handlers behind the gate set none of them. -/

namespace SecureCore.Cors

set_option autoImplicit false

open TrustedProxy Sample

variable {json : JsonLibrary} {policy : CorsPolicy} {context : RequestContext} {next : Next}

/-! ## The inner chain as a computation -/

/-- The middleware with an inner chain that has effects: it is run, or it is not. -/
def corsHandler {m : Type → Type} [Monad m] (json : JsonLibrary) (policy : CorsPolicy)
    (context : RequestContext) (inner : m Next) : m Next :=
  match corsGate policy context.request with
  | .originDenied => return (do
    let response ← makeJsonError json 403 "cors_origin_denied"
    prepareMiddlewareResponse response context.request)
  | .preflightDenied origin => return (do
    let response ← makeJsonError json 403 "cors_preflight_denied"
    let response ← prepareMiddlewareResponse response context.request
    .ok (withCorsHeaders policy (some origin) true response))
  | .options origin preflight => return (do
    let response ← prepareMiddlewareResponse ⟨context.request.version, 204, [], ""⟩ context.request
    .ok (withCorsHeaders policy origin preflight response))
  | .passed origin => do
    let outcome ← inner
    return (do
      let response ← outcome
      .ok (withCorsHeaders policy origin false response))

/-- An inner chain that counts how often it is run. -/
def counted (next : Next) : StateM Nat Next := modifyGet (fun calls => (next, calls + 1))

theorem corsHandler_counted (calls : Nat) : (corsHandler json policy context (counted next)).run calls =
    (corsMiddleware json policy context next,
      match corsGate policy context.request with
      | .passed _ => calls + 1
      | _ => calls) := by
  rw [corsHandler, corsMiddleware]
  cases corsGate policy context.request <;> rfl

/-! ## The headers of CORS -/

def corsNames : List String :=
  ["Access-Control-Allow-Origin", "Access-Control-Allow-Credentials", "Vary"]

/-- A response without the headers of CORS. -/
def Bare (response : HttpResponse) : Prop := ∀ name ∈ corsNames, response.fields.valuesOf name = []

/-- A response with the status and the CORS headers of another. -/
structure Keeps (before after : HttpResponse) : Prop where
  status : after.status = before.status
  values : ∀ name ∈ corsNames, after.fields.valuesOf name = before.fields.valuesOf name

theorem Keeps.trans {first second third : HttpResponse} (h : Keeps first second) (h' : Keeps second third) :
    Keeps first third :=
  ⟨h'.status.trans h.status, fun name hName => (h'.values name hName).trans (h.values name hName)⟩

theorem Bare.keeps {before after : HttpResponse} (h : Bare before) (hKeeps : Keeps before after) : Bare after :=
  fun name hName => (hKeeps.values name hName).trans (h name hName)

/-- Headers beside those of CORS. -/
def Beside (headers : List (String × List Char)) : Prop :=
  ∀ other ∈ headers.map Prod.fst, ∀ name ∈ corsNames, iequals other name = false

theorem keeps_setAll (response : HttpResponse) {headers : List (String × List Char)} (h : Beside headers) :
    Keeps response (response.setAll headers) :=
  ⟨HttpResponse.setAll_status _ _,
    fun name hName => HttpResponse.valuesOf_setAll (fun other hOther => h other hOther name hName)⟩

theorem keeps_preparePayload {response result : HttpResponse} (h : response.preparePayload = .ok result) :
    Keeps response result := by
  rw [HttpResponse.preparePayload] at h
  split at h
  · cases h
  · cases h
    refine ⟨rfl, fun name hName => ?_⟩
    have hNames : iequals "Content-Length" name = false ∧ iequals "Transfer-Encoding" name = false := by
      revert name
      decide
    exact HttpResponse.valuesOf_contentLength hNames.1 hNames.2 response

theorem keeps_finish {response result : HttpResponse} {headers : List (String × List Char)} (hBeside : Beside headers)
    {version : Nat} {keepAlive : Bool} (h : response.finish version headers keepAlive = .ok result) :
    Keeps response result := by
  have hHeaders : Beside (("Server", "SecureCore".toList) :: headers) := by
    intro other hOther
    rcases List.mem_cons.mp hOther with rfl | hOther
    · decide
    · exact hBeside other hOther
  have hSet := keeps_setAll (response.setVersion version) hHeaders
  rw [HttpResponse.finish] at h
  generalize (response.setVersion version).setAll (("Server", "SecureCore".toList) :: headers) = built at h hSet
  have hAlive : Keeps built (built.setKeepAlive keepAlive) := by
    refine ⟨rfl, fun name hName => ?_⟩
    have hConnection : iequals "Connection" name = false := by
      revert name
      decide
    exact Fields.valuesOf_setKeepAlive hConnection _ _ _
  cases hPrepared : (built.setKeepAlive keepAlive).preparePayload with
  | error e =>
    rw [hPrepared] at h
    cases h
  | ok prepared =>
    rw [hPrepared] at h
    cases h
    have hVersion : Keeps response (response.setVersion version) := ⟨rfl, fun _ _ => rfl⟩
    exact ((hVersion.trans hSet).trans hAlive).trans (keeps_preparePayload hPrepared)

/-! ## The other middlewares -/

/-- Whatever response comes out, it is like this. -/
def Yields (P : HttpResponse → Prop) (next : Next) : Prop := ∀ response, next = .ok response → P response

theorem Yields.bind {P Q : HttpResponse → Prop} (h : Yields P next) {f : HttpResponse → Next}
    (hf : ∀ response, P response → Yields Q (f response)) : Yields Q (next >>= f) := by
  intro result hResult
  cases hNext : next with
  | error e =>
    rw [hNext] at hResult
    cases hResult
  | ok response =>
    rw [hNext] at hResult
    exact hf response (h response hNext) result hResult

theorem beside_nil : Beside [] := fun _ h => absurd h List.not_mem_nil

/-- An error response has its status and, so far, nothing of CORS. -/
theorem yields_makeApiErrorResponse (status : Nat) (error : ApiError) :
    Yields (fun response => response.status = status ∧ Bare response) (makeApiErrorResponse json status error) := by
  intro response h
  rw [makeApiErrorResponse, makeJsonResponse] at h
  split at h
  · cases h
  · cases h
    refine ⟨rfl, fun name hName => ?_⟩
    have hType : iequals "Content-Type" name = false := by
      revert name
      decide
    exact Fields.valuesOf_set_of_ne hType [] _

theorem yields_internalError (request : HttpMessage) : Yields Bare (makeInternalErrorResponse json request) :=
  (yields_makeApiErrorResponse 500 _).bind
    (fun _ hMade _ hFinished => hMade.2.keeps (keeps_finish beside_nil hFinished))

theorem yields_errorMiddleware (h : Yields Bare next) : Yields Bare (errorMiddleware json context next) := by
  cases next with
  | ok response => exact h
  | error thrown =>
    cases thrown with
    | api status error => exact fun response hMade => (yields_makeApiErrorResponse status error response hMade).2
    | standard what => exact yields_internalError _
    | unknown => exact yields_internalError _

theorem yields_rateLimitMiddleware {decision : RateLimitDecision} (h : Yields Bare next) :
    Yields Bare (rateLimitMiddleware json decision context next) := by
  rw [rateLimitMiddleware]
  split
  · refine (yields_makeApiErrorResponse 429 _).bind (fun response hMade result hFinished => ?_)
    refine hMade.2.keeps (keeps_finish ?_ hFinished)
    intro other hOther
    simp only [List.map_cons, List.map_nil] at hOther
    revert other
    decide
  · refine h.bind (fun response hBare result hResult => ?_)
    cases hResult
    split
    · refine hBare.keeps (keeps_setAll response ?_)
      intro other hOther
      simp only [List.map_cons, List.map_nil] at hOther
      revert other
      decide
    · exact hBare

theorem keeps_applyRequestId {response : HttpResponse} {requestId : String} :
    Yields (Keeps response) (applyRequestId json response requestId) := by
  have hSet : Keeps response (response.set "X-Request-ID" requestId.toList) := by
    refine ⟨rfl, fun name hName => ?_⟩
    have hOther : iequals "X-Request-ID" name = false := by
      revert name
      decide
    exact Fields.valuesOf_set_of_ne hOther _ _
  intro result h
  rw [applyRequestId, attachRequestIdToApiError] at h
  generalize response.set "X-Request-ID" requestId.toList = named at h hSet
  split at h
  · cases h
    exact hSet
  · split at h
    · split at h
      · split at h
        · cases h
          exact hSet
        · rename_i text _
          have hBody : Keeps named { named with body := text } := ⟨rfl, fun _ _ => rfl⟩
          cases hPrepared : ({ named with body := text } : HttpResponse).preparePayload with
          | error e =>
            rw [hPrepared] at h
            cases h
          | ok prepared =>
            rw [hPrepared] at h
            cases h
            exact (hSet.trans hBody).trans (keeps_preparePayload hPrepared)
      · cases h
        exact hSet
    · cases h
      exact hSet

/-- The middlewares around the gate leave status and CORS headers as they are. -/
theorem yields_outer {P : HttpResponse → Prop} (hP : ∀ before after, Keeps before after → P before → P after)
    (h : Yields P next) (source : RequestIdSource) (hstsPolicy : HstsPolicy) :
    Yields P (requestIdMiddleware json source context (securityHeadersMiddleware hstsPolicy context next)) := by
  have hSecurity : Yields P (securityHeadersMiddleware hstsPolicy context next) := by
    refine h.bind (fun response hResponse result hResult => ?_)
    cases hResult
    refine hP response _ (keeps_setAll response ?_) hResponse
    intro other hOther
    have hNames : other ∈ ["X-Content-Type-Options", "X-Frame-Options", "Referrer-Policy", "Permissions-Policy",
        "Content-Security-Policy", "Cache-Control", "Strict-Transport-Security"] := by
      rw [securityHeaders] at hOther
      split at hOther
      · simpa using hOther
      · simp only [List.append_nil, List.map_cons, List.map_nil] at hOther
        exact List.mem_append_left ["Strict-Transport-Security"] hOther
    clear hOther
    revert other
    decide
  exact hSecurity.bind (fun response hResponse result hResult =>
    hP response result (keeps_applyRequestId result hResult) hResponse)

/-! ## What the headers say -/

theorem valuesOf_setAll_last {name : String} {after : List (String × List Char)}
    (hAfter : ∀ other ∈ after.map Prod.fst, iequals other name = false) (response : HttpResponse)
    (before : List (String × List Char)) (value : List Char) :
    (response.setAll (before ++ (name, value) :: after)).fields.valuesOf name = [value] := by
  have hSplit : response.setAll (before ++ (name, value) :: after) =
      (((response.setAll before).set name value).setAll after) := by
    rw [HttpResponse.setAll, List.foldl_append]
    rfl
  rw [hSplit, HttpResponse.valuesOf_setAll hAfter]
  exact Fields.valuesOf_set_self _ _ _

/-- The headers behind the ones that depend on the origin and the policy. -/
def commonHeaders (policy : CorsPolicy) : List (String × List Char) :=
  [("Access-Control-Allow-Methods", allowedMethods.toList),
    ("Access-Control-Allow-Headers", allowedHeaders.toList),
    ("Access-Control-Expose-Headers",
      "X-Request-ID, X-RateLimit-Limit, X-RateLimit-Remaining, Retry-After".toList),
    ("Access-Control-Max-Age", decimal policy.maxAgeSeconds)]

def credentialHeaders (policy : CorsPolicy) : List (String × List Char) :=
  if policy.allowCredentials then [("Access-Control-Allow-Credentials", "true".toList)] else []

theorem names_behind (policy : CorsPolicy) :
    ∀ other ∈ (credentialHeaders policy ++ commonHeaders policy).map Prod.fst,
      other ∈ ["Access-Control-Allow-Credentials", "Access-Control-Allow-Methods", "Access-Control-Allow-Headers",
        "Access-Control-Expose-Headers", "Access-Control-Max-Age"] := by
  intro other hOther
  rw [List.map_append, List.mem_append] at hOther
  rcases hOther with hOther | hOther
  · rw [credentialHeaders] at hOther
    split at hOther
    · exact List.mem_append_left _ hOther
    · exact absurd hOther List.not_mem_nil
  · exact List.mem_cons_of_mem _ hOther

variable {response : HttpResponse} {origin : List Char} {preflight : Bool}

theorem allowOrigin_corsHeaders : (response.setAll (corsHeaders policy origin preflight)).fields.valuesOf
    "Access-Control-Allow-Origin" = [if policy.wildcard then "*".toList else origin] := by
  have hBehind : ∀ other ∈ (credentialHeaders policy ++ commonHeaders policy).map Prod.fst,
      iequals other "Access-Control-Allow-Origin" = false := by
    intro other hOther
    have hNames := names_behind policy other hOther
    clear hOther
    revert other
    decide
  cases hWildcard : policy.wildcard with
  | true =>
    have hHeaders : corsHeaders policy origin preflight =
        [] ++ ("Access-Control-Allow-Origin", "*".toList) :: (credentialHeaders policy ++ commonHeaders policy) := by
      rw [corsHeaders, hWildcard, if_pos rfl, List.append_assoc]
      rfl
    rw [hHeaders, valuesOf_setAll_last hBehind, if_pos rfl]
  | false =>
    have hHeaders : ∃ vary, corsHeaders policy origin preflight =
        [] ++ ("Access-Control-Allow-Origin", origin) ::
          (("Vary", vary) :: (credentialHeaders policy ++ commonHeaders policy)) := by
      rw [corsHeaders, hWildcard, if_neg Bool.false_ne_true, List.append_assoc]
      exact ⟨_, rfl⟩
    obtain ⟨vary, hHeaders⟩ := hHeaders
    rw [hHeaders, if_neg Bool.false_ne_true, valuesOf_setAll_last]
    have hVary : iequals "Vary" "Access-Control-Allow-Origin" = false := by decide
    exact List.forall_mem_cons.mpr ⟨hVary, hBehind⟩

/-- With exact origins a response says that it varies with the origin. -/
theorem vary_corsHeaders (h : policy.wildcard = false) :
    ∃ value, (response.setAll (corsHeaders policy origin preflight)).fields.valuesOf "Vary" = [value] ∧
      hasToken value "Origin" = true := by
  have hHeaders : corsHeaders policy origin preflight =
      [("Access-Control-Allow-Origin", origin)] ++
        ("Vary", if preflight then
          "Origin, Access-Control-Request-Method, Access-Control-Request-Headers".toList
        else "Origin".toList) :: (credentialHeaders policy ++ commonHeaders policy) := by
    rw [corsHeaders, h, if_neg Bool.false_ne_true, List.append_assoc]
    rfl
  have hBehind : ∀ other ∈ (credentialHeaders policy ++ commonHeaders policy).map Prod.fst,
      iequals other "Vary" = false := by
    intro other hOther
    have hNames := names_behind policy other hOther
    clear hOther
    revert other
    decide
  refine ⟨_, by rw [hHeaders, valuesOf_setAll_last hBehind], ?_⟩
  cases preflight with
  | false => decide
  | true => decide

/-- Credentials are spoken of only if the policy has them. -/
theorem credentials_corsHeaders (hBare : Bare response) (h : policy.allowCredentials = false) :
    (response.setAll (corsHeaders policy origin preflight)).fields.valuesOf
      "Access-Control-Allow-Credentials" = [] := by
  rw [HttpResponse.valuesOf_setAll, hBare _ (by decide)]
  intro other hOther
  rw [corsHeaders, h, if_neg Bool.false_ne_true, List.append_nil, List.map_append, List.mem_append] at hOther
  have hNames : other ∈ ["Access-Control-Allow-Origin", "Vary", "Access-Control-Allow-Methods",
      "Access-Control-Allow-Headers", "Access-Control-Expose-Headers", "Access-Control-Max-Age"] := by
    rcases hOther with hOther | hOther
    · split at hOther
      · exact List.mem_append_left ["Vary", "Access-Control-Allow-Methods", "Access-Control-Allow-Headers",
          "Access-Control-Expose-Headers", "Access-Control-Max-Age"] hOther
      · exact List.mem_append_left ["Access-Control-Allow-Methods", "Access-Control-Allow-Headers",
          "Access-Control-Expose-Headers", "Access-Control-Max-Age"] hOther
    · exact List.mem_append_right ["Access-Control-Allow-Origin", "Vary"] hOther
  clear hOther
  revert other
  decide

/-! ## The gate -/

/-- The request has one Origin header, and the policy finds its trimmed value. -/
def Admits (policy : CorsPolicy) (request : HttpMessage) (origin : List Char) : Prop :=
  ∃ value, Fields.valuesOf request.fields "Origin" = [value] ∧ trimChars value = origin ∧ policy.search origin = true

/-- An OPTIONS request with an Origin and a requested method. -/
structure IsPreflight (request : HttpMessage) : Prop where
  options : request.method = "OPTIONS"
  origin : Fields.valuesOf request.fields "Origin" ≠ []
  requestedMethod : Fields.valuesOf request.fields "Access-Control-Request-Method" ≠ []

/-- What a preflight asks for is permitted. -/
structure Permitted (request : HttpMessage) : Prop where
  requestedMethod : ∃ value, Fields.valuesOf request.fields "Access-Control-Request-Method" = [value] ∧
    String.ofList (trimChars value) ∈ allowedMethodValues
  requestedHeaders : Fields.valuesOf request.fields "Access-Control-Request-Headers" = [] ∨
    ∃ value, Fields.valuesOf request.fields "Access-Control-Request-Headers" = [value] ∧
      ∀ item ∈ splitCsv value, String.ofList (lowercaseChars item) ∈ allowedHeaderValues

/-- The origin a gate goes on with. -/
def origin? : CorsGate → Option (List Char)
  | .originDenied => none
  | .preflightDenied origin => some origin
  | .options origin _ => origin
  | .passed origin => origin

theorem requestHeader_eq_none {request : HttpMessage} {name : String} :
    requestHeader request name = none ↔ Fields.valuesOf request.fields name = [] := by
  rw [requestHeader]
  split
  · rename_i hValues
    exact iff_of_true rfl hValues
  · rename_i hValues
    exact iff_of_false nofun (fun h => by rw [hValues] at h; cases h)
  · rename_i hNone _
    exact iff_of_false nofun hNone

/-- A header with a text in it stands there once. -/
theorem requestHeader_eq_some {request : HttpMessage} {name : String} {value : List Char} (hText : value ≠ [])
    (h : requestHeader request name = some value) : Fields.valuesOf request.fields name = [value] := by
  rw [requestHeader] at h
  split at h
  · cases h
  · cases h
    assumption
  · cases h
    exact absurd rfl hText

variable {allowedOrigins : List String} {allowCredentials : Bool} {maxAgeSeconds : Nat}

theorem corsGate_origin (hMade : CorsPolicy.make allowedOrigins allowCredentials maxAgeSeconds = .ok policy)
    {request : HttpMessage} (h : origin? (corsGate policy request) = some origin) :
    Admits policy request origin := by
  rw [corsGate] at h
  simp only at h
  split at h
  · cases h
  · rename_i hAllowed
    have hSome : (requestHeader request "Origin").map trimChars = some origin := by
      split at h
      · rename_i hOrigin _ _
        rw [hOrigin]
        split at h <;> exact h
      · exact h
      · exact h
    obtain ⟨value, hValue, rfl⟩ := Option.map_eq_some_iff.mp hSome
    rw [hSome, Option.any_some, Bool.or_eq_true, not_or, Bool.not_eq_true', Bool.not_eq_false] at hAllowed
    have hText : value ≠ [] := by
      rintro rfl
      exact hAllowed.1 rfl
    exact ⟨value, requestHeader_eq_some hText hValue, rfl,
      (CorsPolicy.search_eq hMade _).trans hAllowed.2⟩

theorem corsGate_passed_none {request : HttpMessage} (h : corsGate policy request = .passed none) :
    Fields.valuesOf request.fields "Origin" = [] := by
  rw [corsGate] at h
  simp only at h
  split at h
  · cases h
  · split at h
    · split at h <;> cases h
    · cases h
    · have hNone : (requestHeader request "Origin").map trimChars = none := CorsGate.passed.inj h
      exact requestHeader_eq_none.mp (Option.map_eq_none_iff.mp hNone)

theorem corsGate_preflight {request : HttpMessage} (hPreflight : IsPreflight request) {origin : Option (List Char)}
    {preflight : Bool} (h : corsGate policy request = .options origin preflight) : Permitted request := by
  have hOrigin : ∃ value, requestHeader request "Origin" = some value :=
    Option.ne_none_iff_exists'.mp (fun hNone => hPreflight.origin (requestHeader_eq_none.mp hNone))
  have hMethod : ∃ value, requestHeader request "Access-Control-Request-Method" = some value :=
    Option.ne_none_iff_exists'.mp (fun hNone => hPreflight.requestedMethod (requestHeader_eq_none.mp hNone))
  obtain ⟨value, hOrigin⟩ := hOrigin
  obtain ⟨requestedMethod, hMethod⟩ := hMethod
  rw [corsGate, hOrigin, hMethod, hPreflight.options] at h
  simp only [Option.map_some, beq_self_eq_true] at h
  split at h
  · cases h
  · split at h
    · cases h
    · rename_i hDenied
      rw [Bool.or_eq_true, Bool.or_eq_true, not_or, not_or, Bool.not_eq_true', Bool.not_eq_false] at hDenied
      obtain ⟨⟨hText, hAllowed⟩, hHeaders⟩ := hDenied
      refine ⟨⟨requestedMethod, requestHeader_eq_some (by simpa using hText) hMethod,
        List.contains_iff_mem.mp hAllowed⟩, ?_⟩
      cases hRequested : requestHeader request "Access-Control-Request-Headers" with
      | none => exact .inl (requestHeader_eq_none.mp hRequested)
      | some headers =>
        rw [hRequested, Option.any_some, Bool.or_eq_true, not_or, Bool.not_eq_true', Bool.not_eq_false] at hHeaders
        refine .inr ⟨headers, requestHeader_eq_some (by simpa using hHeaders.1) hRequested, fun item hItem => ?_⟩
        have hItems := List.all_eq_true.mp hHeaders.2 item hItem
        rw [Bool.and_eq_true] at hItems
        exact List.contains_iff_mem.mp hItems.2

/-! ## Responses behind the gate -/

/-- What a response says to a request, as far as CORS goes. -/
structure Answers (policy : CorsPolicy) (request : HttpMessage) (response : HttpResponse) : Prop where
  allowOrigin : ∀ value ∈ response.fields.valuesOf "Access-Control-Allow-Origin", ∃ origin,
    Admits policy request origin ∧
      (policy.wildcard = true ∧ value = "*".toList ∨ policy.wildcard = false ∧ value = origin ∧
        ∃ vary ∈ response.fields.valuesOf "Vary", hasToken vary "Origin" = true)
  credentials : response.fields.valuesOf "Access-Control-Allow-Credentials" ≠ [] →
    "*".toList ∉ response.fields.valuesOf "Access-Control-Allow-Origin"
  preflight : IsPreflight request → response.status = 204 → Permitted request

variable {request : HttpMessage}

theorem answers_keeps {before after : HttpResponse} (hKeeps : Keeps before after)
    (h : Answers policy request before) : Answers policy request after := by
  have hOrigin := hKeeps.values "Access-Control-Allow-Origin" (by decide)
  have hCredentials := hKeeps.values "Access-Control-Allow-Credentials" (by decide)
  have hVary := hKeeps.values "Vary" (by decide)
  refine ⟨?_, ?_, ?_⟩
  · rw [hOrigin, hVary]
    exact h.allowOrigin
  · rw [hOrigin, hCredentials]
    exact h.credentials
  · rw [hKeeps.status]
    exact h.preflight

theorem answers_bare (hBare : Bare response) (hPreflight : IsPreflight request → response.status = 204 →
    Permitted request) : Answers policy request response := by
  refine ⟨fun value hValue => ?_, fun h => ?_, hPreflight⟩
  · rw [hBare _ (by decide)] at hValue
    exact absurd hValue List.not_mem_nil
  · exact absurd (hBare _ (by decide)) h

/-- An exact policy does not list the wildcard. -/
theorem not_admits_wildcard (hMade : CorsPolicy.make allowedOrigins allowCredentials maxAgeSeconds = .ok policy)
    (hExact : policy.wildcard = false) : ¬Admits policy request "*".toList := by
  rintro ⟨value, -, -, hSearch⟩
  rw [CorsPolicy.search_eq hMade, CorsPolicy.allows_iff hMade] at hSearch
  obtain ⟨-, rfl⟩ := CorsPolicy.make_eq_ok_iff.mp hMade
  rw [String.ofList_toList, or_self, ← List.contains_iff_mem] at hSearch
  rw [hSearch] at hExact
  cases hExact

/-- The constructor refuses the wildcard with credentials. -/
theorem exact_of_credentials (hMade : CorsPolicy.make allowedOrigins allowCredentials maxAgeSeconds = .ok policy)
    (h : policy.allowCredentials = true) : policy.wildcard = false := by
  obtain ⟨hAcceptable, rfl⟩ := CorsPolicy.make_eq_ok_iff.mp hMade
  refine Bool.eq_false_iff.mpr (fun hWildcard => ?_)
  have hNone : allowCredentials = false := (hAcceptable.alone (List.contains_iff_mem.mp hWildcard)).2
  change allowCredentials = true at h
  rw [hNone] at h
  cases h

theorem answers_withCorsHeaders (hMade : CorsPolicy.make allowedOrigins allowCredentials maxAgeSeconds = .ok policy)
    (hBare : Bare response) {origin : Option (List Char)} (hOrigin : ∀ value ∈ origin, Admits policy request value)
    (hPreflight : IsPreflight request → response.status = 204 → Permitted request) :
    Answers policy request (withCorsHeaders policy origin preflight response) := by
  cases origin with
  | none => exact answers_bare hBare hPreflight
  | some origin =>
    have hAdmits := hOrigin origin rfl
    refine ⟨fun value hValue => ⟨origin, hAdmits, ?_⟩, fun hCredentials => ?_, ?_⟩
    · rw [withCorsHeaders, allowOrigin_corsHeaders, List.mem_singleton] at hValue
      cases hWildcard : policy.wildcard with
      | true =>
        rw [hWildcard, if_pos rfl] at hValue
        exact .inl ⟨rfl, hValue⟩
      | false =>
        rw [hWildcard, if_neg Bool.false_ne_true] at hValue
        obtain ⟨vary, hVary, hToken⟩ := vary_corsHeaders hWildcard
        refine .inr ⟨rfl, hValue, vary, ?_, hToken⟩
        rw [withCorsHeaders, hVary]
        exact List.mem_singleton_self vary
    · have hAllows : policy.allowCredentials = true := by
        by_contra hNone
        exact hCredentials (credentials_corsHeaders hBare (Bool.not_eq_true _ ▸ hNone))
      have hExact := exact_of_credentials hMade hAllows
      rw [withCorsHeaders, allowOrigin_corsHeaders, hExact, if_neg Bool.false_ne_true, List.mem_singleton]
      rintro rfl
      exact not_admits_wildcard hMade hExact hAdmits
    · rw [withCorsHeaders, HttpResponse.setAll_status]
      exact hPreflight

theorem yields_prepare (h : Bare response) : Yields (fun result => result.status = response.status ∧ Bare result)
    (prepareMiddlewareResponse response request) :=
  fun _ hFinished =>
    ⟨(keeps_finish beside_nil hFinished).status, h.keeps (keeps_finish beside_nil hFinished)⟩

theorem yields_corsMiddleware (hMade : CorsPolicy.make allowedOrigins allowCredentials maxAgeSeconds = .ok policy)
    (hNext : Yields Bare next) :
    Yields (Answers policy context.request) (corsMiddleware json policy context next) := by
  rw [corsMiddleware]
  cases hGate : corsGate policy context.request with
  | originDenied =>
    refine (yields_makeApiErrorResponse 403 _).bind (fun made hMadeResponse => ?_)
    obtain ⟨hStatus, hBare⟩ := hMadeResponse
    intro response hResponse
    have hPrepared := yields_prepare hBare response hResponse
    exact answers_bare hPrepared.2 (fun _ h => by omega)
  | preflightDenied origin =>
    refine (yields_makeApiErrorResponse 403 _).bind (fun made hMadeResponse => ?_)
    obtain ⟨hStatus, hBare⟩ := hMadeResponse
    refine (yields_prepare hBare).bind (fun response hPrepared => ?_)
    intro result hResult
    cases hResult
    refine answers_withCorsHeaders hMade hPrepared.2 ?_ (fun _ h => by omega)
    intro value hValue
    cases hValue
    exact corsGate_origin hMade (congrArg origin? hGate)
  | options origin preflight =>
    have hEmpty : Bare ⟨context.request.version, 204, [], ""⟩ := fun _ _ => rfl
    refine (yields_prepare hEmpty).bind (fun response hPrepared => ?_)
    intro result hResult
    cases hResult
    refine answers_withCorsHeaders hMade hPrepared.2 ?_ (fun hPreflight _ => corsGate_preflight hPreflight hGate)
    intro value hValue
    exact corsGate_origin hMade ((congrArg origin? hGate).trans hValue)
  | passed origin =>
    have hMethod := ((passesCors_iff policy context.request).mpr ⟨origin, hGate⟩).1
    refine hNext.bind (fun response hBare => ?_)
    intro result hResult
    cases hResult
    refine answers_withCorsHeaders hMade hBare ?_ (fun hPreflight => absurd hPreflight.options hMethod)
    intro value hValue
    exact corsGate_origin hMade ((congrArg origin? hGate).trans hValue)

/-- The chain behind the gate runs for requests that are no OPTIONS and name no Origin or one
that is allowed. What the pipeline answers says so in its headers. -/
theorem cors_gate (hMade : CorsPolicy.make allowedOrigins allowCredentials maxAgeSeconds = .ok policy)
    (source : RequestIdSource) (hstsPolicy : HstsPolicy) (decision : RateLimitDecision)
    (context : RequestContext) (terminalHandler : Next)
    (hInner : ∀ response, terminalHandler = .ok response → Bare response) :
    (∀ calls, ((corsHandler json policy context (counted
        (execute [errorMiddleware json, rateLimitMiddleware json decision] context terminalHandler))).run calls).2 ≠
          calls →
      context.request.method ≠ "OPTIONS" ∧
        (Fields.valuesOf context.request.fields "Origin" = [] ∨ ∃ origin, Admits policy context.request origin)) ∧
      ∀ response,
        execute (defaultMiddlewares json source hstsPolicy policy decision) context terminalHandler = .ok response →
          Answers policy context.request response := by
  refine ⟨fun calls hRun => ?_, ?_⟩
  · rw [corsHandler_counted] at hRun
    cases hGate : corsGate policy context.request with
    | passed origin =>
      refine ⟨((passesCors_iff policy context.request).mpr ⟨origin, hGate⟩).1, ?_⟩
      cases origin with
      | none => exact .inl (corsGate_passed_none hGate)
      | some origin => exact .inr ⟨origin, corsGate_origin hMade (congrArg origin? hGate)⟩
    | originDenied =>
      rw [hGate] at hRun
      exact absurd rfl hRun
    | preflightDenied origin =>
      rw [hGate] at hRun
      exact absurd rfl hRun
    | options origin preflight =>
      rw [hGate] at hRun
      exact absurd rfl hRun
  · exact yields_outer (fun _ _ hKeeps h => answers_keeps hKeeps h)
      (yields_corsMiddleware hMade (yields_errorMiddleware (yields_rateLimitMiddleware hInner))) source hstsPolicy

namespace Sample

def exactPolicy : CorsPolicy := ⟨["https://a"], false, true, 600⟩

def paddedOrigin : RequestContext :=
  ⟨⟨11, "GET", "/".toList, [⟨"origin", " https://a ".toList⟩], ""⟩, [], [], true, false⟩

theorem make_exactPolicy : CorsPolicy.make ["https://a"] true 600 = .ok exactPolicy := by
  refine CorsPolicy.make_eq_ok_iff.mpr ⟨⟨by decide, by decide, by decide, by decide⟩, ?_⟩
  rw [Ordered.sort, List.mergeSort_singleton]
  rfl

end Sample

theorem cors_gate_sample :
    (∀ calls, ((corsHandler compactJson Sample.exactPolicy Sample.paddedOrigin (counted
        (execute [errorMiddleware compactJson, rateLimitMiddleware compactJson ⟨true, 0, 0, 0⟩]
          Sample.paddedOrigin (.ok .initial)))).run calls).2 ≠ calls →
      Sample.paddedOrigin.request.method ≠ "OPTIONS" ∧
        (Fields.valuesOf Sample.paddedOrigin.request.fields "Origin" = [] ∨
          ∃ origin, Admits Sample.exactPolicy Sample.paddedOrigin.request origin)) ∧
      ∀ response,
        execute (defaultMiddlewares compactJson ⟨0, 0⟩ ⟨false, 0, false, false⟩ Sample.exactPolicy ⟨true, 0, 0, 0⟩)
          Sample.paddedOrigin (.ok .initial) = .ok response →
        Answers Sample.exactPolicy Sample.paddedOrigin.request response := by
  refine cors_gate Sample.make_exactPolicy ⟨0, 0⟩ ⟨false, 0, false, false⟩ ⟨true, 0, 0, 0⟩ Sample.paddedOrigin
    (.ok .initial) ?_
  rintro response ⟨⟩
  exact fun _ _ => rfl

end SecureCore.Cors

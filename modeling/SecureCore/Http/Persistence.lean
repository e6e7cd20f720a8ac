import SecureCore.Http.RequestIds

/-! # Connections that the client wants closed -/

namespace SecureCore

set_option autoImplicit false

open TrustedProxy

variable {json : JsonLibrary}

/-! ## The errors of the proxy headers -/

section plain

variable {α β : Type} {text : AddressText}

/-- The texts of an error are UTF-8. -/
def Plain (outcome : ProxyHeader α) : Prop :=
  ∀ error, outcome = .error error → ValidUtf8 error.code ∧ ValidUtf8 error.message

namespace Plain

theorem ok (value : α) : Plain (.ok value) := fun _ h => nomatch h

theorem error {code message : String} (hCode : ValidUtf8 code) (hMessage : ValidUtf8 message) :
    Plain (α := α) (.error ⟨code, message⟩) := by
  intro error hError
  cases hError
  exact ⟨hCode, hMessage⟩

theorem invalid {message : String} (h : ValidUtf8 message) :
    Plain (α := α) (.error (invalidForwardedHeader message)) :=
  error (validUtf8_ofList rfl) h

theorem bind {first : ProxyHeader α} {rest : α → ProxyHeader β} (hFirst : Plain first)
    (hRest : ∀ value, Plain (rest value)) : Plain (first >>= rest) := by
  cases first with
  | ok value => exact hRest value
  | error e =>
    intro error hError
    cases hError
    exact hFirst e rfl

theorem ite {condition : Prop} [Decidable condition] {first second : ProxyHeader α} (hFirst : Plain first)
    (hSecond : Plain second) : Plain (if condition then first else second) := by
  split
  · exact hFirst
  · exact hSecond

theorem foldlM {step : β → α → ProxyHeader β} (h : ∀ state item, Plain (step state item))
    (items : List α) (state : β) : Plain (items.foldlM step state) := by
  induction items generalizing state with
  | nil => exact ok state
  | cons item items ih =>
    rw [List.foldlM_cons]
    exact bind (h state item) ih

end Plain

theorem plain_splitFrom (delimiter : Char) (quoted escaped : Bool) (part value : List Char) :
    Plain (splitFrom delimiter quoted escaped part value) := by
  induction value generalizing quoted escaped part with
  | nil => exact .ite (.invalid (validUtf8_ofList rfl)) (.ok _)
  | cons c rest ih =>
    rw [splitFrom]
    exact .ite (ih _ _ _) (.ite (ih _ _ _) (.ite (ih _ _ _)
      (.ite (.bind (ih _ _ _) (fun _ => .ok _)) (ih _ _ _))))

theorem plain_unescape (escaped : Bool) (value : List Char) : Plain (unescape escaped value) := by
  induction value generalizing escaped with
  | nil => exact .ite (.invalid (validUtf8_ofList rfl)) (.ok _)
  | cons c rest ih =>
    rw [unescape]
    exact .ite (.ite (.invalid (validUtf8_ofList rfl)) (.bind (ih _) (fun _ => .ok _)))
      (.ite (ih _) (.ite (.invalid (validUtf8_ofList rfl)) (.bind (ih _) (fun _ => .ok _))))

theorem plain_unquote (value : List Char) : Plain (unquote value) :=
  .ite (.ok _) (.ite (.invalid (validUtf8_ofList rfl)) (plain_unescape false _))

theorem plain_addressText (value : List Char) : Plain (addressText value) := by
  have hPort : ∀ port address : List Char,
      Plain (if validPort port then .ok address else .error invalidPort) :=
    fun port address => .ite (.ok _) (.invalid (validUtf8_ofList rfl))
  unfold addressText
  apply Plain.ite
  · split
    · exact .invalid (validUtf8_ofList rfl)
    · simp only
      split
      · exact .ok _
      · exact .ite (.invalid (validUtf8_ofList rfl)) (hPort _ _)
  · exact .ite (hPort _ _) (.ok _)

theorem plain_parseIpToken (value : List Char) : Plain (parseIpToken text value) := by
  have hInvalid : ∀ {α : Type}, Plain (α := α) (.error (invalidForwardedHeader
      "The proxy forwarding header contains an invalid client IP address.")) :=
    .invalid (validUtf8_ofList rfl)
  apply Plain.bind (plain_unquote _)
  intro value
  apply Plain.ite (.invalid (validUtf8_ofList rfl))
  apply Plain.ite (.invalid (validUtf8_ofList rfl))
  apply Plain.bind (plain_addressText value)
  intro host
  simp only
  split
  · exact hInvalid
  · exact .ite hInvalid (.ok _)

theorem plain_tooManyHops : Plain (α := α) (.error tooManyHops) := .invalid (validUtf8_ofList rfl)

theorem plain_parseParameter (state : ForwardedValues × Bool) (parameter : List Char) :
    Plain (parseParameter text state parameter) := by
  unfold parseParameter
  apply Plain.ite (.invalid (validUtf8_ofList rfl))
  apply Plain.ite (.invalid (validUtf8_ofList rfl))
  apply Plain.ite
  · exact .ite (.invalid (validUtf8_ofList rfl)) (.bind (plain_parseIpToken _) (fun _ => .ok _))
  · exact .ite (.bind (plain_unquote _) (fun _ => .ite (.ok _) (.invalid (validUtf8_ofList rfl)))) (.ok _)

theorem plain_parseElement (values : ForwardedValues) (element : List Char) :
    Plain (parseElement text values element) :=
  .ite (.invalid (validUtf8_ofList rfl)) (.bind (plain_splitFrom _ _ _ _ _) (fun _ =>
    .bind (.foldlM plain_parseParameter _ _) (fun _ =>
      .ite (.invalid (validUtf8_ofList rfl)) (.ite plain_tooManyHops (.ok _)))))

theorem plain_parseForPart (addresses : List Address) (part : List Char) :
    Plain (parseForPart text addresses part) :=
  .ite (.invalid (validUtf8_ofList rfl)) (.bind (plain_parseIpToken part) (fun _ =>
    .ite plain_tooManyHops (.ok _)))

theorem plain_parseForwardedProto (value : List Char) : Plain (parseForwardedProto value) :=
  .ite (.ok _) (.bind (plain_splitFrom _ _ _ _ _) (fun _ =>
    .ite (.invalid (validUtf8_ofList rfl)) (.ite (.ok _) (.invalid (validUtf8_ofList rfl)))))

theorem plain_parseChain (headers : ForwardingHeaders) : Plain (parseChain text headers) :=
  .ite (.bind (plain_splitFrom _ _ _ _ _) (fun _ => .foldlM plain_parseElement _ _))
    (.ite (.bind (.bind (plain_splitFrom _ _ _ _ _) (fun _ => .foldlM plain_parseForPart _ _))
      (fun _ => .ok _)) (.ite (.bind (plain_parseIpToken _) (fun _ => .ok _)) (.ok _)))

/-- The value of the one field of a name. -/
def onlyValue : List (List Char) → ProxyHeader (List Char)
  | [] => .ok []
  | [value] => .ok value
  | _ => .error (invalidForwardedHeader "Duplicate proxy forwarding headers are not accepted.")

theorem headerValueFrom_eq (name : String) (result : Option (List Char)) (request : HttpRequest) :
    headerValueFrom name result request = onlyValue (result.toList ++ Fields.valuesOf request name) := by
  induction request generalizing result with
  | nil => cases result <;> rfl
  | cons field fields ih =>
    unfold headerValueFrom Fields.valuesOf
    rw [List.filter_cons]
    cases iequals field.name name with
    | false => exact ih result
    | true =>
      cases result with
      | none => exact ih (some field.value)
      | some value => rfl

theorem headerValue_eq (request : HttpRequest) (name : String) :
    headerValue request name = onlyValue (Fields.valuesOf request name) :=
  headerValueFrom_eq name none request

theorem plain_headerValue (request : HttpRequest) (name : String) : Plain (headerValue request name) := by
  rw [headerValue_eq]
  unfold onlyValue
  split
  · exact .ok _
  · exact .ok _
  · exact .invalid (validUtf8_ofList rfl)

theorem plain_readHeaders (request : HttpRequest) : Plain (readHeaders request) :=
  .bind (plain_headerValue _ _) (fun _ => .bind (plain_headerValue _ _) (fun _ =>
    .bind (plain_headerValue _ _) (fun _ => .bind (plain_headerValue _ _) (fun _ => .ok _))))

variable {resolver : TrustedProxyResolver}

theorem plain_forwarding (headers : ForwardingHeaders) : Plain (resolver.forwarding text headers) := by
  apply Plain.ite (.error (validUtf8_ofList rfl) (validUtf8_ofList rfl))
  exact .bind (plain_parseChain headers) (fun values =>
    .ite (.bind (plain_parseForwardedProto _) (fun _ => .ok _)) (.ok _))

theorem plain_resolve (peerIp : List Char) (request : HttpRequest) (directTls : Bool) :
    Plain (resolver.resolve text peerIp request directTls) := by
  unfold TrustedProxyResolver.resolve
  split
  · exact .ok _
  · apply Plain.ite (.ok _)
    exact .bind (plain_readHeaders request) (fun headers =>
      .bind (plain_forwarding headers) (fun _ => .ite (.ok _) (.ok _)))

/-- The address is read from the proxy headers only. -/
theorem resolve_set {name : String}
    (h : ∀ header ∈ ["Forwarded", "X-Forwarded-For", "X-Real-IP", "X-Forwarded-Proto"],
      iequals name header = false)
    (peerIp : List Char) (request : HttpRequest) (value : List Char) (directTls : Bool) :
    resolver.resolve text peerIp (Fields.set request name value) directTls =
      resolver.resolve text peerIp request directTls := by
  have hHeader : ∀ header ∈ ["Forwarded", "X-Forwarded-For", "X-Real-IP", "X-Forwarded-Proto"],
      headerValue (Fields.set request name value) header = headerValue request header := by
    intro header hIn
    rw [headerValue_eq, headerValue_eq, Fields.valuesOf_set_of_ne (h header hIn)]
  have hHeaders : readHeaders (Fields.set request name value) = readHeaders request := by
    unfold readHeaders
    rw [hHeader _ (by decide), hHeader _ (by decide), hHeader _ (by decide), hHeader _ (by decide)]
  unfold TrustedProxyResolver.resolve
  rw [hHeaders]

end plain

/-! ## What the request id leaves as it is -/

section identified

variable (request : HttpMessage) (requestId : String)

theorem requestHeader_identified {name : String} (h : iequals "X-Request-ID" name = false) :
    requestHeader (identified request requestId) name = requestHeader request name := by
  unfold requestHeader identified
  simp only [Fields.valuesOf_set_of_ne h]

theorem proxyError_identified (config : SessionConfig) (peerIp : List Char) :
    proxyError config peerIp (identified request requestId) = proxyError config peerIp request := by
  unfold proxyError identified
  rw [resolve_set (by decide)]

theorem keepAlive_identified : (identified request requestId).keepAlive = request.keepAlive :=
  Fields.keepAlive_congr (Fields.valuesOf_set_of_ne (by decide) _ _) _

end identified

/-! ## Requests whose connection closes -/

/-- The request is no preflight and comes from an allowed origin, or from none. -/
def PassesCors (policy : CorsPolicy) (request : HttpMessage) : Prop :=
  request.method ≠ "OPTIONS" ∧ ∀ origin ∈ requestHeader request "Origin",
    trimChars origin ≠ [] ∧ policy.allows (trimChars origin) = true

theorem passesCors_iff (policy : CorsPolicy) (request : HttpMessage) :
    PassesCors policy request ↔ ∃ origin, corsGate policy request = .passed origin := by
  have hOrigin : (∀ origin ∈ requestHeader request "Origin",
      trimChars origin ≠ [] ∧ policy.allows (trimChars origin) = true) ↔
        ¬((requestHeader request "Origin").map trimChars).any
          (fun origin => origin.isEmpty || !policy.allows origin) = true := by
    cases requestHeader request "Origin" with
    | none => simp
    | some origin => simp
  unfold PassesCors corsGate
  rw [hOrigin]
  simp only
  split
  · rename_i hDenied
    exact iff_of_false (fun h => h.2 hDenied) (fun ⟨_, h⟩ => nomatch h)
  · rename_i hAllowed
    rw [and_iff_left hAllowed]
    split
    · rename_i hOptions _
      refine iff_of_false (fun h => h (beq_iff_eq.mp hOptions)) ?_
      rintro ⟨_, h⟩
      split at h <;> cases h
    · rename_i hOptions _
      exact iff_of_false (fun h => h (beq_iff_eq.mp hOptions)) (fun ⟨_, h⟩ => nomatch h)
    · rename_i hOptions
      exact iff_of_true (ne_of_beq_false hOptions) ⟨_, rfl⟩

/-- An API error comes out of the proxy headers or the handler, with texts and a status that
the error middleware can make a response of. -/
def ThrowsApiError (config : SessionConfig) (peerIp : List Char) (request : HttpMessage)
    (dispatched : Dispatched) : Prop :=
  (proxyError config peerIp request).isSome = true ∨
    ∃ status error, dispatched = .thrown (.api status error) ∧ error.Valid ∧
      ({ HttpResponse.initial with status := status } : HttpResponse).bodiless = false

/-- The request runs to an API error, and its answer goes out before a shutdown. -/
def AnswersApiError (config : SessionConfig) (peerIp : List Char) (request : HttpMessage)
    (met : Surrounding) : Prop :=
  (met.drainingAtRead = false ∨ allowedDuringDrain request = true) ∧ met.submitted = .accepted ∧
    PassesCors config.corsPolicy request ∧ met.rateLimit.allowed = true ∧
      ThrowsApiError config peerIp request met.dispatched ∧ met.drainingAtCompletion = false

theorem passesCors_identified (policy : CorsPolicy) (request : HttpMessage) (requestId : String) :
    PassesCors policy (identified request requestId) ↔ PassesCors policy request := by
  unfold PassesCors
  rw [requestHeader_identified request requestId (by decide)]
  exact Iff.rfl

theorem throwsApiError_identified (config : SessionConfig) (peerIp : List Char) (request : HttpMessage)
    (requestId : String) (dispatched : Dispatched) :
    ThrowsApiError config peerIp (identified request requestId) dispatched ↔
      ThrowsApiError config peerIp request dispatched := by
  unfold ThrowsApiError
  rw [proxyError_identified]

theorem throwsApiError_iff (hJson : json.Documented) (config : SessionConfig) (peerIp : List Char)
    (request : HttpMessage) (met : Surrounding) : ThrowsApiError config peerIp request met.dispatched ↔
      Apologises (terminalHandler json request met (proxyError config peerIp request)) := by
  unfold ThrowsApiError
  cases hProxy : proxyError config peerIp request with
  | some error =>
    refine iff_of_true (.inl rfl) ⟨400, error, rfl, ?_, by decide⟩
    unfold proxyError at hProxy
    split at hProxy
    · rename_i headerError hResolved
      cases hProxy
      have hPlain := plain_resolve peerIp request.fields false headerError hResolved
      unfold ApiError.Valid ApiError.texts
      simp only [List.flatMap_nil, List.forall_mem_cons]
      exact ⟨hPlain.1, hPlain.2, fun _ h => absurd h List.not_mem_nil⟩
    · cases hProxy
  | none =>
    rw [Option.isSome_none]
    change (false = true ∨ _) ↔ Apologises (dispatch json request met.dispatched)
    rcases dispatch_cases hJson request met.dispatched with
      ⟨exception, hThrown, hOutcome⟩ | ⟨e, hOutcome⟩ | ⟨response, hOutcome, -⟩
    · rw [hOutcome, hThrown]
      constructor
      · rintro (h | ⟨status, error, h, hRest⟩)
        · cases h
        · cases h
          exact ⟨status, error, rfl, hRest⟩
      · rintro ⟨status, error, h, hRest⟩
        cases h
        exact .inr ⟨status, error, rfl, hRest⟩
    · rw [hOutcome]
      refine iff_of_false ?_ not_apologises_standard
      rintro (h | ⟨status, error, h, -⟩)
      · cases h
      · rw [h] at hOutcome
        cases hOutcome
    · rw [hOutcome]
      refine iff_of_false ?_ not_apologises_ok
      rintro (h | ⟨status, error, h, -⟩)
      · cases h
      · rw [h] at hOutcome
        cases hOutcome

theorem needEof_of_framed {response : HttpResponse} (h : Framed response) :
    response.needEof = !response.keepAlive := by
  have hFound : (response.fields.find "Content-Length").isSome = true := by
    unfold Framed at h
    unfold Fields.find
    rw [h]
    rfl
  unfold HttpResponse.needEof
  rw [hFound, Bool.or_true, Bool.true_or, if_pos rfl]

theorem completeRequest_keepAlive (draining : Bool) (response : HttpResponse) :
    (completeRequest draining response).keepAlive = (response.keepAlive && !draining) := by
  cases draining with
  | false => exact (Bool.and_true _).symm
  | true =>
    rw [Bool.not_true, Bool.and_false]
    exact HttpResponse.keepAlive_setKeepAlive response false

theorem handleRequest_open (hJson : json.Documented) (config : SessionConfig) (peerIp : List Char)
    {request : HttpMessage} (met : Surrounding) (hClose : request.keepAlive = false) :
    ∃ response, handleRequest json config peerIp request met = .ok response ∧
      Answered json (resolveRequestId request met.sessionId) response ∧
        (response.keepAlive = true ↔ met.submitted = .accepted ∧ PassesCors config.corsPolicy request ∧
          met.rateLimit.allowed = true ∧ ThrowsApiError config peerIp request met.dispatched ∧
            met.drainingAtCompletion = false) := by
  have hId := resolveRequestId_valid request met.sessionId
  rw [handleRequest_eq]
  split
  · rename_i hAccepted
    obtain ⟨response, hResponse, hAnswered, hOpen⟩ := workerTask_answered hJson config peerIp
      met hId (resolveRequestId_identified request hId met.middlewareId)
    have hIdentified := (keepAlive_identified request (resolveRequestId request met.sessionId)).trans hClose
    rw [staysOpen_innerChain hJson hIdentified (not_staysOpen_terminalHandler hJson met _ hIdentified),
      ← throwsApiError_iff hJson, throwsApiError_identified, ← passesCors_iff] at hOpen
    have hPasses := passesCors_identified config.corsPolicy request (resolveRequestId request met.sessionId)
    rw [hResponse]
    refine ⟨_, rfl, completeRequest_answered hAnswered met.drainingAtCompletion, ?_⟩
    rw [completeRequest_keepAlive, Bool.and_eq_true, hOpen, Bool.not_eq_true', and_iff_right hAccepted,
      ← hPasses, and_assoc, and_assoc]
    exact Iff.rfl
  · rename_i hRejected
    obtain ⟨response, hResponse, hAnswered, hClosed⟩ := rejectSubmission_answered hJson request met hId
    refine ⟨response, hResponse, hAnswered, ?_⟩
    rw [hClosed]
    exact iff_of_false Bool.false_ne_true (fun h => hRejected h.1)

/-- A connection that the client wants closed is closed, but for one kind of answer. -/
theorem respond_closes_iff (hJson : json.Documented) (config : SessionConfig) (peerIp : List Char)
    (request : HttpMessage) (met : Surrounding) (hClose : request.keepAlive = false) :
    ∃ response, respond json config peerIp request met = .ok response ∧
      response.needEof = !response.keepAlive ∧
        (response.keepAlive = false ↔ ¬AnswersApiError config peerIp request met) := by
  unfold respond AnswersApiError
  split
  · rename_i hDraining
    rw [Bool.and_eq_true, Bool.not_eq_true'] at hDraining
    obtain ⟨response, hResponse, hAnswered, hClosed⟩ :=
      rejectNewRequestDuringDrain_answered hJson request met
    refine ⟨response, hResponse, needEof_of_framed hAnswered.framed, iff_of_true hClosed ?_⟩
    rintro ⟨hRead | hPath, -⟩
    · exact Bool.false_ne_true (hRead.symm.trans hDraining.1)
    · exact Bool.false_ne_true (hDraining.2.symm.trans hPath)
  · rename_i hTaken
    obtain ⟨response, hResponse, hAnswered, hOpen⟩ := handleRequest_open hJson config peerIp met hClose
    have hReached : met.drainingAtRead = false ∨ allowedDuringDrain request = true := by
      cases hRead : met.drainingAtRead with
      | false => exact .inl rfl
      | true =>
        rw [hRead, Bool.true_and, Bool.not_eq_true', Bool.not_eq_false] at hTaken
        exact .inr hTaken
    refine ⟨response, hResponse, needEof_of_framed hAnswered.framed, ?_⟩
    rw [← Bool.not_eq_true, hOpen, and_iff_right hReached]

/-- A login that is no JSON keeps its connection although the client closes it. -/
theorem respond_keeps_closed_connection :
    Sample.brokenLogin.keepAlive = false ∧
      (respond Sample.compactJson Sample.sessionConfig Sample.proxyPeer Sample.brokenLogin
        Sample.calmServer).toOption.map (fun response => (response.status, response.keepAlive,
          response.needEof)) = some (400, true, false) := by
  decide +kernel

theorem respond_closes_sample :
    ∃ response, respond Sample.compactJson Sample.sessionConfig Sample.proxyPeer Sample.brokenLogin
        { Sample.calmServer with dispatched := .notFound } = .ok response ∧
      response.needEof = !response.keepAlive ∧
        (response.keepAlive = false ↔ ¬AnswersApiError Sample.sessionConfig Sample.proxyPeer
          Sample.brokenLogin { Sample.calmServer with dispatched := .notFound }) :=
  respond_closes_iff Sample.compactJson_documented Sample.sessionConfig Sample.proxyPeer Sample.brokenLogin
    { Sample.calmServer with dispatched := .notFound } (by decide)

end SecureCore

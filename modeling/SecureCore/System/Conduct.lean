import SecureCore.Http.Endpoints
import SecureCore.Interleaving.Reliance
import SecureCore.System.AuditedCalls

/-! # The conduct of a request

A request in the hands of a server process asks for one operation. At its accesses it does
what the operation may do, and it records once what they bear out. -/

namespace SecureCore

set_option autoImplicit false

open Interleaving Relational Handling

/-! ## Requests -/

/-- What a server process makes of a request behind its middlewares. -/
def serve (json : JsonLibrary) (config : RoutesConfig) (d : Deployment) (arrival : Arrival) :
    Handling HttpResponse :=
  match routeRequest config.registrationEnabled arrival.request with
  | .badRequest => Handling.lift (makeErrorResponse json arrival.request 400 "bad_request")
  | .notFound => Handling.lift (makeErrorResponse json arrival.request 404 "not_found")
  | .methodNotAllowed allow => Handling.lift (do
    let response ← makeErrorResponse json arrival.request 405 "method_not_allowed"
    .ok (response.set "Allow" (", ".toList.intercalate (allow.map String.toList))))
  | .reached endpoint parameters => do
    let response ← endpoint.handler json config (d.service arrival.process) arrival.context arrival.request
      parameters
    Handling.lift (finalizeResponse response arrival.request)

/-- The operation that a request asks an endpoint for. One that asks for no change is taken for
an authentication. -/
def Endpoint.operation (json : JsonLibrary) (arrival : Arrival) (parameters : RouteParameters)
    (accessToken : String) : Endpoint → Except Thrown Operation
  | register => do
    let (username, email, password) ← registrationInput json arrival.request
    .ok (.registerUser username email password)
  | login => do
    let (name, password) ← loginInput json arrival.request
    .ok (.login arrival.process name password (currentClientIp arrival.context))
  | refresh => do
    let refreshToken ← refreshInput json arrival.request
    .ok (.refresh arrival.process refreshToken)
  | logout => .ok (.logout arrival.process accessToken)
  | logoutAll => .ok (.logoutAll arrival.process accessToken)
  | revokeSession => do
    let sessionId ← pathId parameters
    .ok (.revokeSession arrival.process accessToken sessionId)
  | changePassword => do
    let (currentPassword, newPassword) ← changePasswordInput json arrival.request
    .ok (.changePassword arrival.process accessToken currentPassword newPassword)
  | setUserStatus => do
    let userId ← pathId parameters
    let enabled ← statusInput json arrival.request
    .ok (.setUserEnabled arrival.process accessToken userId enabled)
  | assignRole => do
    let userId ← pathId parameters
    let role ← roleInput json arrival.request
    .ok (.assignRole arrival.process accessToken userId role)
  | revokeRole => do
    let userId ← pathId parameters
    let role ← roleParameter parameters
    .ok (.revokeRole arrival.process accessToken userId role)
  | _ => .ok (.authenticate arrival.process accessToken)

def Arrival.operation (json : JsonLibrary) (config : RoutesConfig) (arrival : Arrival) : Operation :=
  let accessToken := (bearerToken arrival.request).getD ""
  match routeRequest config.registrationEnabled arrival.request with
  | .reached endpoint parameters =>
    match endpoint.operation json arrival parameters accessToken with
    | .ok op => op
    | .error _ => .authenticate arrival.process accessToken
  | _ => .authenticate arrival.process accessToken

/-- The endpoints whose handlers record all that they answer, whether they have done it or not. -/
def Endpoint.audited : Endpoint → Bool
  | register | login | refresh | logout | logoutAll | revokeSession | changePassword | setUserStatus
  | assignRole | revokeRole => true
  | _ => false

/-- The audited endpoints that ask for no access token. -/
def Endpoint.anonymous : Endpoint → Bool
  | register | login | refresh => true
  | _ => false

/-- Whether an answer to the request comes with a record. -/
def Arrival.audited (config : RoutesConfig) (arrival : Arrival) : Bool :=
  match routeRequest config.registrationEnabled arrival.request with
  | .reached endpoint _ => endpoint.audited && (endpoint.anonymous || (bearerToken arrival.request).isSome)
  | _ => false

/-! ## What a request may do at one access -/

/-- The accesses of a request as the services see them. -/
def worldly (past : List (Act Site SiteEvent)) : List (Act World Event) :=
  past.map (Act.through Site.world SiteEvent.service?)

def recordedCalls (past : List (Act Site SiteEvent)) : List AuditedCall :=
  past.flatMap (fun act => act.events.filterMap SiteEvent.call?)

inductive Conducts (json : JsonLibrary) (d : Deployment) (op : Operation)
    (context : Option RequestAuditContext) : List (Act Site SiteEvent) → Act Site SiteEvent → Prop
  | serves {past : List (Act Site SiteEvent)} {act : Act Site SiteEvent}
      (hCalls : act.events.filterMap SiteEvent.call? = []) (hEvents : act.after.events = act.before.events)
      (hObeys : Obeys d op (worldly past) (act.through Site.world SiteEvent.service?)) :
      Conducts json d op context past act
  | records {past : List (Act Site SiteEvent)} {act : Act Site SiteEvent} {call : AuditedCall}
      {record : AuditRecord} (stored : Stored) (createdAt : Strftime)
      (hFirst : recordedCalls past = []) (hCall : act.events = [.recorded call])
      (hRecord : call.record json = some record) (hBacked : Backed d (worldly past) op call)
      (hWorld : act.after.world = act.before.world)
      (hEvents : act.after.events = AuditService.record act.before.events record context stored createdAt) :
      Conducts json d op context past act

section rules

variable {json : JsonLibrary} {d : Deployment} {op : Operation} {context : Option RequestAuditContext}
  {past : List (Act Site SiteEvent)} {α : Type}

theorem Conducts.obeys {act : Act Site SiteEvent} (h : Conducts json d op context past act) :
    Obeys d op (worldly past) (act.through Site.world SiteEvent.service?) := by
  cases h with
  | serves hCalls hEvents hObeys => exact hObeys
  | records stored createdAt hFirst hCall hRecord hBacked hWorld hEvents =>
    refine .reads ?_ ?_
    · change act.after.world.database = act.before.world.database
      rw [hWorld]
    · change Event.writes (act.events.filterMap SiteEvent.service?) = []
      rw [hCall]
      rfl

/-- An access that has changed nothing and recorded nothing. -/
theorem Conducts.idle {act : Act Site SiteEvent} (hEvents : act.events = []) (hSame : act.after = act.before) :
    Conducts json d op context past act := by
  refine .serves (by rw [hEvents]; rfl) (by rw [hSame]) (.reads ?_ ?_)
  · change act.after.world.database = act.before.world.database
    rw [hSame]
  · change Event.writes (act.events.filterMap SiteEvent.service?) = []
    rw [hEvents]
    rfl

theorem recordedCalls_cons (act : Act Site SiteEvent) (past : List (Act Site SiteEvent)) :
    recordedCalls (act :: past) = act.events.filterMap SiteEvent.call? ++ recordedCalls past := rfl

/-- A request that owes a record has made one, and a request that owes none has changed nothing. -/
def Accounted (audited : Bool) (past : List (Act Site SiteEvent)) : Prop :=
  (audited = true → (recordedCalls past).length = 1) ∧ (audited = false → Untouched (worldly past))

/-- The handler keeps to its operation, and returns as `K` says. -/
def Conducted (json : JsonLibrary) (d : Deployment) (op : Operation) (context : Option RequestAuditContext)
    (x : Handling α) (past : List (Act Site SiteEvent)) (K : α → List (Act Site SiteEvent) → Prop) : Prop :=
  Fallible.Leads (Conducts json d op context) x past K (fun _ _ => True)

variable {K : α → List (Act Site SiteEvent) → Prop}

theorem conducted_bind {β : Type} {x : Handling α} {f : α → Handling β}
    {L : β → List (Act Site SiteEvent) → Prop} (hx : Conducted json d op context x past K)
    (hf : ∀ a past', K a past' → Conducted json d op context (f a) past' L) :
    Conducted json d op context (x >>= f) past L :=
  Fallible.leads_bind (Fallible.Leads.mono hx (fun _ _ h => h) hf (fun _ _ _ => trivial))

theorem conducted_pure {a : α} (h : K a past) : Conducted json d op context (pure a) past K :=
  Fallible.leads_pure h

theorem conducted_throw {e : Thrown} : Conducted json d op context (throw e : Handling α) past K :=
  Fallible.leads_throw trivial

theorem conducted_lift {result : Except Thrown α} (h : ∀ a, result = .ok a → K a past) :
    Conducted json d op context (Handling.lift result) past K := by
  cases result with
  | ok a => exact Fallible.leads_pure (h a rfl)
  | error e => exact Fallible.leads_throw trivial

/-- A call of a service: what is so of its accesses is so of those of the request. -/
theorem conducted_ask {x : Call α} {L : α → List (Act World Event) → Prop}
    {Z : Exception → List (Act World Event) → Prop} (h : Fallible.Leads (Obeys d op) x (worldly past) L Z) :
    Conducted json d op context (ask x) past (fun r past' =>
      Fallible.Ends L Z r (worldly past') ∧ recordedCalls past' = recordedCalls past) := by
  have hWithin : (x.run.within Site.world Site.withWorld Moment.surroundings SiteEvent.served).Along
      (fun past act => Conducts json d op context past act ∧ act.events.filterMap SiteEvent.call? = []) past
      (fun r past' => Fallible.Ends L Z r (worldly past')) := by
    have hCall : x.run.Along (Obeys d op) (worldly past) (Fallible.Ends L Z) := by
      refine (Fallible.along_of_leads h).mono (fun _ _ h => h) (fun r past' hEnd => ?_)
      cases r with
      | ok a => exact hEnd
      | error e => exact hEnd
    refine Process.along_within ?_ ?_ hCall ?_
    · exact fun _ _ => rfl
    · exact fun _ => rfl
    · intro past act world events hAfter hEvents hObeys
      have hCalls : act.events.filterMap SiteEvent.call? = [] := by
        rw [hEvents, List.filterMap_map]
        exact List.filterMap_eq_nil_iff.mpr (fun _ _ => rfl)
      exact ⟨.serves hCalls (by rw [hAfter]; rfl) hObeys, hCalls⟩
  have hSince := Process.Along.since hWithin (fun _ _ hAct => hAct.2) (Since.refl past)
  unfold Conducted Fallible.Leads ask
  rw [ExceptT.run_mk, Process.along_bind]
  refine hSince.mono (fun _ _ hAct => hAct.1) ?_
  rintro r past' ⟨hEnd, newer, rfl, hNewer⟩
  refine ⟨hEnd, ?_⟩
  unfold recordedCalls
  rw [List.flatMap_append, List.flatMap_eq_nil_iff.mpr hNewer, List.nil_append]

/-- A call of a service that only reads. -/
theorem conducted_ask_silent {x : Call α} {L : α → List (Act World Event) → Prop}
    (h : Fallible.Leads (fun _ act => Silent act) x (worldly past) L (fun _ _ => True))
    (hUntouched : Untouched (worldly past)) :
    Conducted json d op context (ask x) past (fun r past' =>
      (∀ a, r = .ok a → L a (worldly past')) ∧ recordedCalls past' = recordedCalls past ∧
        Since Silent (worldly past) (worldly past') ∧ Untouched (worldly past')) := by
  have hSince := Fallible.Leads.since h (fun _ _ hAct => hAct)
  refine Fallible.Leads.mono (conducted_ask (Fallible.Leads.mono hSince
    (fun _ _ hAct => .reads hAct.1 hAct.2) (fun _ _ h => h) (fun _ _ h => h))) (fun _ _ h => h) ?_ (fun _ _ h => h)
  rintro r past' ⟨hEnd, hCalls⟩
  cases r with
  | ok a =>
    refine ⟨fun a' ha => ?_, hCalls, hEnd.2, untouched_of_since hEnd.2 hUntouched⟩
    cases ha
    exact hEnd.1
  | error e =>
    refine ⟨fun a' ha => ?_, hCalls, hEnd.2, untouched_of_since hEnd.2 hUntouched⟩
    cases ha

theorem accounted_recorded {call : AuditedCall} (h : recordedCalls past = [call]) : Accounted true past := by
  refine ⟨fun _ => by rw [h]; rfl, fun hAudited => ?_⟩
  cases hAudited

theorem accounted_untouched (h : Untouched (worldly past)) : Accounted false past := by
  refine ⟨fun hAudited => ?_, fun _ => h⟩
  cases hAudited

/-- The one record of a request, and what the handler does behind it. -/
theorem conducted_record {call : AuditedCall} {next : Unit → Handling α} (hFirst : recordedCalls past = [])
    (hBacked : Backed d (worldly past) op call)
    (h : ∀ past', recordedCalls past' = [call] → (Untouched (worldly past) → Untouched (worldly past')) →
      Conducted json d op context (next ()) past' K) :
    Conducted json d op context (record json context call >>= next) past K := by
  unfold Handling.record
  cases hRecord : call.record json with
  | none => exact Fallible.leads_bind (Fallible.leads_throw trivial)
  | some made =>
    refine Fallible.leads_bind (Fallible.leads_atomic (fun moment site => ⟨?_, ?_⟩))
    · exact .records moment.stored moment.createdAt hFirst rfl hRecord hBacked rfl rfl
    · refine h _ ?_ (fun hUntouched => hUntouched.cons rfl)
      rw [recordedCalls_cons, hFirst]
      rfl

theorem conducted_recorded {call : AuditedCall} {result : Except Thrown HttpResponse}
    (hFirst : recordedCalls past = []) (hBacked : Backed d (worldly past) op call) :
    Conducted json d op context (do record json context call; Handling.lift result) past
      (fun _ past' => Accounted true past') :=
  conducted_record hFirst hBacked (fun _ hCalls _ => conducted_lift (fun _ _ => accounted_recorded hCalls))

theorem conducted_observe {look : Moment → α} {L : α → List (Act Site SiteEvent) → Prop}
    (h : ∀ a act, act.events = [] → act.after = act.before → L a (act :: past)) :
    Conducted json d op context (observe look) past L :=
  Fallible.leads_atomic (fun _ _ => ⟨.idle rfl rfl, h _ _ rfl rfl⟩)

end rules

/-! ## The handlers -/

section handlers

variable {json : JsonLibrary} {d : Deployment} {op : Operation} {context : Option RequestAuditContext}
  {past : List (Act Site SiteEvent)} {α ρ : Type} {K : HttpResponse → List (Act Site SiteEvent) → Prop}

/-- What a handler does with what it has read of its request. -/
theorem conducted_input {β γ : Type} {result : Except Thrown β} {f : β → Handling γ}
    {L : γ → List (Act Site SiteEvent) → Prop}
    (h : ∀ b, result = .ok b → Conducted json d op context (f b) past L) :
    Conducted json d op context (Handling.lift result >>= f) past L := by
  refine conducted_bind (K := fun b past' => result = .ok b ∧ past' = past)
    (conducted_lift (fun b hInput => ⟨hInput, rfl⟩)) ?_
  rintro b _ ⟨hInput, rfl⟩
  exact h b hInput

/-- A handler that records what its service answers. -/
theorem conducted_calling {call : Call α} {catches : Exception → Option ρ} {onSuccess : α → AuditedCall}
    {onFailure : ρ → AuditedCall} {success : α → Handling HttpResponse} {failure : ρ → Handling HttpResponse}
    (hReports : Reports d op call catches onSuccess onFailure)
    (hSuccess : ∀ a past', recordedCalls past' = [] → Backed d (worldly past') op (onSuccess a) →
      Conducted json d op context (success a) past' K)
    (hFailure : ∀ refusal past', recordedCalls past' = [] → Backed d (worldly past') op (onFailure refusal) →
      Conducted json d op context (failure refusal) past' K) :
    Conducted json d op context (calling call catches success failure) [] K := by
  refine conducted_bind (conducted_ask hReports) ?_
  rintro r past' ⟨hEnd, hCalls⟩
  cases r with
  | ok a => exact hSuccess a past' hCalls hEnd
  | error e =>
    cases hCaught : catches e with
    | none =>
      simp only [hCaught]
      exact conducted_throw
    | some refusal =>
      simp only [hCaught]
      exact hFailure refusal past' hCalls (hEnd refusal hCaught)

/-- A handler whose service only reads. -/
theorem conducted_reading {call : Call α} {catches : Exception → Option ρ}
    {success : α → Handling HttpResponse} {failure : ρ → Handling HttpResponse}
    {L : α → List (Act World Event) → Prop}
    (hCall : Fallible.Leads (fun _ act => Silent act) call [] L (fun _ _ => True))
    (hSuccess : ∀ a past', L a (worldly past') → recordedCalls past' = [] → Untouched (worldly past') →
      Conducted json d op context (success a) past' (fun _ past'' => Accounted false past''))
    (hFailure : ∀ refusal past', Untouched (worldly past') →
      Conducted json d op context (failure refusal) past' (fun _ past'' => Accounted false past'')) :
    Conducted json d op context (calling call catches success failure) []
      (fun _ past' => Accounted false past') := by
  refine conducted_bind (conducted_ask_silent hCall untouched_nil) ?_
  rintro r past' ⟨hEnd, hCalls, -, hUntouched⟩
  cases r with
  | ok a => exact hSuccess a past' (hEnd a rfl) hCalls hUntouched
  | error e =>
    cases hCaught : catches e with
    | none =>
      simp only [hCaught]
      exact conducted_throw
    | some refusal =>
      simp only [hCaught]
      exact hFailure refusal past' hUntouched

/-- A handler that answers with what its service has read. -/
theorem conducted_listing {call : Call α} {catches : Exception → Option ρ}
    {answer : α → Except Thrown HttpResponse} {refuse : ρ → Except Thrown HttpResponse}
    (hCall : Fallible.Leads (fun _ act => Silent act) call [] (fun _ _ => True) (fun _ _ => True)) :
    Conducted json d op context
      (calling call catches (fun a => Handling.lift (answer a)) (fun refusal => Handling.lift (refuse refusal))) []
      (fun _ past' => Accounted false past') :=
  conducted_reading hCall (fun _ _ _ _ h => conducted_lift (fun _ _ => accounted_untouched h))
    (fun _ _ h => conducted_lift (fun _ _ => accounted_untouched h))

theorem conducted_withBearerToken {request : HttpMessage} {handler : String → Handling HttpResponse}
    {audited : Bool} (h : ∀ token, bearerToken request = some token →
      Conducted json d op context (handler token) [] (fun _ past' => Accounted audited past')) :
    Conducted json d op context (withBearerToken json request handler) []
      (fun _ past' => Accounted (audited && (bearerToken request).isSome) past') := by
  unfold withBearerToken
  cases hToken : bearerToken request with
  | none =>
    rw [Option.isSome_none, Bool.and_false]
    exact conducted_lift (fun _ _ => accounted_untouched untouched_nil)
  | some token =>
    rw [Option.isSome_some, Bool.and_true]
    exact h token hToken

/-- A handler that owes no record. -/
theorem conducted_token {request : HttpMessage} {handler : String → Handling HttpResponse}
    (h : ∀ token, bearerToken request = some token →
      Conducted json d op context (handler token) [] (fun _ past' => Accounted false past')) :
    Conducted json d op context (withBearerToken json request handler) [] (fun _ past' => Accounted false past') := by
  have hToken := conducted_withBearerToken h
  rwa [Bool.false_and] at hToken

section audited

variable {service : AuthService} {request : HttpMessage}
  {parameters : RouteParameters} {process : Nat}

theorem conducted_registerHandler
    (hOp : ∀ username email password, registrationInput json request = .ok (username, email, password) →
      op = .registerUser username email password) :
    Conducted json d op context (registerHandler json service context request) []
      (fun _ past' => Accounted true past') := by
  refine conducted_input ?_
  rintro ⟨username, email, password⟩ hInput
  obtain rfl := hOp _ _ _ hInput
  refine conducted_calling reports_registerUser ?_ (fun _ _ hFirst hBacked => conducted_recorded hFirst hBacked)
  intro user past' hFirst hBacked
  refine conducted_input (fun response _ => conducted_record hFirst hBacked (fun _ hCalls _ => ?_))
  exact conducted_pure (accounted_recorded hCalls)

theorem conducted_loginHandler (hService : service.sodium = d.sodium)
    (hOp : ∀ login password, loginInput json request = .ok (login, password) →
      op = .login process login password (currentClientIp context)) :
    Conducted json d op context (loginHandler json service context request) []
      (fun _ past' => Accounted true past') := by
  refine conducted_input ?_
  rintro ⟨login, password⟩ hInput
  obtain rfl := hOp _ _ hInput
  exact conducted_calling (reports_login hService) (fun _ _ hFirst hBacked => conducted_recorded hFirst hBacked)
    (fun _ _ hFirst hBacked => conducted_recorded hFirst hBacked)

theorem conducted_refreshHandler (hService : service.sodium = d.sodium)
    (hOp : ∀ refreshToken, refreshInput json request = .ok refreshToken → op = .refresh process refreshToken) :
    Conducted json d op context (refreshHandler json service context request) []
      (fun _ past' => Accounted true past') := by
  refine conducted_input (fun refreshToken hInput => ?_)
  obtain rfl := hOp _ hInput
  exact conducted_calling (reports_refresh hService) (fun _ _ hFirst hBacked => conducted_recorded hFirst hBacked)
    (fun _ _ hFirst hBacked => conducted_recorded hFirst hBacked)

theorem conducted_logoutHandler (hService : service.sodium = d.sodium)
    (hOp : ∀ token, bearerToken request = some token → op = .logout process token) :
    Conducted json d op context (logoutHandler json service context request) []
      (fun _ past' => Accounted (true && (bearerToken request).isSome) past') := by
  refine conducted_withBearerToken (fun token hToken => ?_)
  obtain rfl := hOp token hToken
  exact conducted_calling (reports_logout hService) (fun _ _ hFirst hBacked => conducted_recorded hFirst hBacked)
    (fun refusal => refusal.elim)

theorem conducted_logoutAllHandler (hService : service.sodium = d.sodium)
    (hOp : ∀ token, bearerToken request = some token → op = .logoutAll process token) :
    Conducted json d op context (logoutAllHandler json service context request) []
      (fun _ past' => Accounted (true && (bearerToken request).isSome) past') := by
  refine conducted_withBearerToken (fun token hToken => ?_)
  obtain rfl := hOp token hToken
  exact conducted_calling (reports_logoutAll hService) (fun _ _ hFirst hBacked => conducted_recorded hFirst hBacked)
    (fun _ _ hFirst hBacked => conducted_recorded hFirst hBacked)

theorem conducted_revokeSessionHandler (hService : service.sodium = d.sodium)
    (hOp : ∀ token sessionId, bearerToken request = some token → pathId parameters = .ok sessionId →
      op = .revokeSession process token sessionId) :
    Conducted json d op context (revokeSessionHandler json service context request parameters) []
      (fun _ past' => Accounted (true && (bearerToken request).isSome) past') := by
  refine conducted_withBearerToken (fun token hToken => conducted_input (fun sessionId hSession => ?_))
  obtain rfl := hOp token sessionId hToken hSession
  exact conducted_calling (reports_revokeSession hService)
    (fun _ _ hFirst hBacked => conducted_recorded hFirst hBacked)
    (fun _ _ hFirst hBacked => conducted_recorded hFirst hBacked)

theorem conducted_changePasswordHandler (hService : service.sodium = d.sodium)
    (hOp : ∀ token currentPassword newPassword, bearerToken request = some token →
      changePasswordInput json request = .ok (currentPassword, newPassword) →
      op = .changePassword process token currentPassword newPassword) :
    Conducted json d op context (changePasswordHandler json service context request) []
      (fun _ past' => Accounted (true && (bearerToken request).isSome) past') := by
  refine conducted_withBearerToken (fun token hToken => conducted_input ?_)
  rintro ⟨currentPassword, newPassword⟩ hInput
  obtain rfl := hOp token currentPassword newPassword hToken hInput
  exact conducted_calling (reports_changePassword hService)
    (fun _ _ hFirst hBacked => conducted_recorded hFirst hBacked)
    (fun _ _ hFirst hBacked => conducted_recorded hFirst hBacked)

theorem conducted_setUserStatusHandler (hService : service.sodium = d.sodium)
    (hOp : ∀ token userId enabled, bearerToken request = some token → pathId parameters = .ok userId →
      statusInput json request = .ok enabled → op = .setUserEnabled process token userId enabled) :
    Conducted json d op context (setUserStatusHandler json service context request parameters) []
      (fun _ past' => Accounted (true && (bearerToken request).isSome) past') := by
  refine conducted_withBearerToken (fun token hToken => conducted_input (fun userId hUser =>
    conducted_input (fun enabled hInput => ?_)))
  obtain rfl := hOp token userId enabled hToken hUser hInput
  exact conducted_calling (reports_setUserEnabled hService)
    (fun _ _ hFirst hBacked => conducted_recorded hFirst hBacked)
    (fun _ _ hFirst hBacked => conducted_recorded hFirst hBacked)

theorem conducted_assignRoleHandler (hService : service.sodium = d.sodium)
    (hOp : ∀ token userId role, bearerToken request = some token → pathId parameters = .ok userId →
      roleInput json request = .ok role → op = .assignRole process token userId role) :
    Conducted json d op context (assignRoleHandler json service context request parameters) []
      (fun _ past' => Accounted (true && (bearerToken request).isSome) past') := by
  refine conducted_withBearerToken (fun token hToken => conducted_input (fun userId hUser =>
    conducted_input (fun role hInput => ?_)))
  obtain rfl := hOp token userId role hToken hUser hInput
  exact conducted_calling (reports_assignRole hService)
    (fun _ _ hFirst hBacked => conducted_recorded hFirst hBacked)
    (fun _ _ hFirst hBacked => conducted_recorded hFirst hBacked)

theorem conducted_revokeRoleHandling (hService : service.sodium = d.sodium)
    (hOp : ∀ token userId role, bearerToken request = some token → pathId parameters = .ok userId →
      roleParameter parameters = .ok role → op = .revokeRole process token userId role) :
    Conducted json d op context (revokeRoleHandling json service context request parameters) []
      (fun _ past' => Accounted (true && (bearerToken request).isSome) past') := by
  refine conducted_withBearerToken (fun token hToken => conducted_input (fun userId hUser =>
    conducted_input (fun role hInput => ?_)))
  obtain rfl := hOp token userId role hToken hUser hInput
  exact conducted_calling (reports_revokeRole hService)
    (fun _ _ hFirst hBacked => conducted_recorded hFirst hBacked)
    (fun _ _ hFirst hBacked => conducted_recorded hFirst hBacked)

end audited

end handlers

end SecureCore

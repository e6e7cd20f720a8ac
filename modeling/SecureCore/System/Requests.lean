import SecureCore.Net.AcceptedHeaders
import SecureCore.System.Conduct
import SecureCore.System.RoleListings
import SecureCore.System.RoleOrigins

/-! # Requests in the hands of the server processes

Any number of requests, in any number of server processes, over one database. -/

namespace SecureCore

set_option autoImplicit false

open Interleaving Relational Handling
open TrustedProxy (bind_eq_ok)

/-! ## The handlers that only read -/

section handlers

variable {json : JsonLibrary} {d : Deployment} {op : Operation} {context : Option RequestAuditContext}
  {past : List (Act Site SiteEvent)}

section reading

variable {service : AuthService} {accessToken : String} {calls : List (Act World Event)}

theorem silent_listSessions (hService : service.sodium = d.sodium) :
    Fallible.Leads (fun _ act => Silent act) (AccountSecurityService.listSessions service accessToken) calls
      (fun _ _ => True) (fun _ _ => True) := by
  refine Fallible.leads_bind (leads_authenticateCurrentSession hService admissible_silent ?_)
  intro current first sessionAct userAct readAct past₁ _ _ _ _ _ _ _ _
  refine Fallible.leads_bind (leads_currentUnixTime admissible_silent (fun now past₂ _ => ?_))
  refine Fallible.leads_bind ?_
  unfold AuthSessionRepository.listActiveForUser
  by_cases hUser : current.user.id ≤ 0
  · rw [if_pos hUser]
    exact Fallible.leads_pure (Fallible.leads_pure trivial)
  · rw [if_neg hUser]
    exact leads_query admissible_silent (fun _ => rfl) (fun _ _ _ => Fallible.leads_pure trivial)

theorem silent_listUsers (hService : service.sodium = d.sodium) {limit offset : Int} :
    Fallible.Leads (fun _ act => Silent act) (AdminService.listUsers service accessToken limit offset) calls
      (fun _ _ => True) (fun _ _ => True) := by
  refine Fallible.leads_bind (leads_permitted hService admissible_silent (fun _ past₁ _ => ?_))
  refine Fallible.leads_bind (Fallible.leads_throwIf (fun _ => trivial) (fun _ => ?_))
  refine Fallible.leads_bind (Fallible.leads_bind (Fallible.leads_throwIf (fun _ => trivial) (fun _ => ?_)))
  refine Fallible.leads_bind (Fallible.leads_throwIf (fun _ => trivial) (fun _ => ?_))
  refine leads_query admissible_silent (fun _ => rfl) (fun _ past₂ _ => ?_)
  refine Fallible.leads_bind (leads_query admissible_silent (fun _ => rfl) (fun _ past₃ _ => ?_))
  exact Fallible.leads_pure trivial

theorem silent_getUser (hService : service.sodium = d.sodium) {userId : Int} :
    Fallible.Leads (fun _ act => Silent act) (AdminService.getUser service accessToken userId) calls
      (fun _ _ => True) (fun _ _ => True) := by
  refine Fallible.leads_bind (leads_permitted hService admissible_silent (fun _ past₁ _ => ?_))
  exact Fallible.leads_bind (leads_findById admissible_silent (fun _ => Fallible.leads_throw trivial)
    (fun _ _ _ _ _ _ => Fallible.leads_pure trivial))

theorem silent_listRoles (hService : service.sodium = d.sodium) :
    Fallible.Leads (fun _ act => Silent act) (AdminService.listRoles service accessToken) calls
      (fun _ _ => True) (fun _ _ => True) := by
  refine Fallible.leads_bind (leads_permitted hService admissible_silent (fun _ past₁ _ => ?_))
  refine leads_withLockedHandle admissible_silent (fun past₂ _ => ?_)
  refine leads_autocommit_bind (leads_select_locked admissible_silent (fun _ => rfl) (fun act => ?_))
  exact leads_withPermissionsLocked admissible_silent _ (fun _ _ _ _ => trivial)

theorem silent_listPermissions (hService : service.sodium = d.sodium) :
    Fallible.Leads (fun _ act => Silent act) (AdminService.listPermissions service accessToken) calls
      (fun _ _ => True) (fun _ _ => True) := by
  refine Fallible.leads_bind (leads_permitted hService admissible_silent (fun _ past₁ _ => ?_))
  exact leads_query admissible_silent (fun _ => rfl) (fun _ _ _ => trivial)

/-- A look at the surroundings changes nothing. -/
theorem conducted_look {β : Type} {look : Moment → β} (h : Untouched (worldly past)) :
    Conducted json d op context (observe look) past (fun _ past' => Untouched (worldly past')) := by
  refine conducted_observe (fun _ act _ hSame => h.cons ?_)
  change act.after.world.database = act.before.world.database
  rw [hSame]

theorem conducted_readyHandler :
    Conducted json d op context (readyHandler json) [] (fun _ past' => Accounted false past') := by
  refine conducted_bind (conducted_ask_silent (L := fun _ _ => True)
    (leads_query admissible_silent (fun _ => rfl) (fun _ _ _ => trivial)) untouched_nil) ?_
  rintro healthy past₁ ⟨-, -, -, hPast₁⟩
  refine conducted_bind (conducted_look hPast₁) (fun ready past₂ hPast₂ => ?_)
  have hAnswer : ∀ (past' : List (Act Site SiteEvent)) (result : Except Thrown HttpResponse),
      Untouched (worldly past') →
      Conducted json d op context (Handling.lift result) past' (fun _ past'' => Accounted false past'') :=
    fun _ _ h => conducted_lift (fun _ _ => accounted_untouched h)
  cases ready with
  | false =>
    exact conducted_bind (conducted_look hPast₂) (fun status past₃ hPast₃ => hAnswer past₃ _ hPast₃)
  | true =>
    simp only [Bool.not_true, Bool.false_eq_true, if_false]
    cases healthy.isOk with
    | true => exact hAnswer past₂ _ hPast₂
    | false => exact hAnswer past₂ _ hPast₂

theorem conducted_metricsHandler (hService : service.sodium = d.sodium) {request : HttpMessage}
    {requireAuthentication : Bool} :
    Conducted json d op context (metricsHandler json service request requireAuthentication) []
      (fun _ past' => Accounted false past') := by
  have hExposition : ∀ past' : List (Act Site SiteEvent), Untouched (worldly past') →
      Conducted json d op context (do
        let text ← observe Moment.exposition
        Handling.lift ((RouteResponse.metrics text).build json request)) past'
        (fun _ past'' => Accounted false past'') :=
    fun past' h => conducted_bind (conducted_look h)
      (fun _ _ h => conducted_lift (fun _ _ => accounted_untouched h))
  unfold metricsHandler
  cases requireAuthentication with
  | false => exact hExposition [] untouched_nil
  | true =>
    refine conducted_token (fun token _ => ?_)
    exact conducted_reading (leads_permitted hService admissible_silent (K := fun _ _ => True) (fun _ _ _ => trivial))
      (fun _ past' _ _ h => hExposition past' h)
      (fun _ _ h => conducted_lift (fun _ _ => accounted_untouched h))

/-- A SELECT on audit_events changes nothing and records nothing. -/
theorem conducted_selectEvents {β : Type} {query : Table AuditEvent → Except Exception β}
    (h : Untouched (worldly past)) :
    Conducted json d op context (selectEvents query) past (fun _ past' =>
      recordedCalls past' = recordedCalls past ∧ worldly past <:+ worldly past' ∧ Untouched (worldly past')) := by
  refine conducted_bind (conducted_ask_silent (L := fun _ _ => True)
    (leads_acquireConnection admissible_silent (fun _ _ => trivial)) h) ?_
  rintro r past₁ ⟨-, hCalls, ⟨newer, hNewer, -⟩, hPast₁⟩
  have hSuffix : worldly past <:+ worldly past₁ := ⟨newer, hNewer.symm⟩
  cases r with
  | error e => exact conducted_throw
  | ok connection =>
    refine Fallible.leads_atomic (fun moment site => ?_)
    have hIdle : ∀ act : Act Site SiteEvent, act.events = [] → act.after = act.before →
        recordedCalls (act :: past₁) = recordedCalls past ∧ worldly past <:+ worldly (act :: past₁) ∧
          Untouched (worldly (act :: past₁)) := by
      intro act hEvents hSame
      refine ⟨?_, hSuffix.trans (List.suffix_cons _ _), hPast₁.cons ?_⟩
      · rw [recordedCalls_cons, hEvents]
        exact hCalls
      · change act.after.world.database = act.before.world.database
        rw [hSame]
    cases hFailure : (moment.surroundings 0).failure with
    | some code =>
      simp only
      exact ⟨.idle rfl rfl, trivial⟩
    | none =>
      simp only
      cases hQuery : query site.events with
      | error e => exact ⟨.idle rfl rfl, trivial⟩
      | ok answer => exact ⟨.idle rfl rfl, hIdle _ rfl rfl⟩

theorem conducted_listAuditEventsHandler (hService : service.sodium = d.sodium) {request : HttpMessage}
    {process : Nat} (hOp : ∀ token, bearerToken request = some token → op = .authenticate process token) :
    Conducted json d op context (listAuditEventsHandler json service context request) []
      (fun _ past' => Accounted false past') := by
  refine conducted_token (fun token hToken => conducted_input (fun filter _ => ?_))
  obtain rfl := hOp token hToken
  have hCall : Fallible.Leads (fun _ act => Silent act)
      (AdminService.authenticateWithPermission service token "audit.read") []
      (fun administrator past' => Authorised d ⟨token, "audit.read", 0, fun _ => .enable⟩ administrator past')
      (fun _ _ => True) :=
    leads_authenticateWithPermission hService ⟨token, "audit.read", 0, fun _ => .enable⟩ admissible_silent
      (fun _ _ hAuthorised => hAuthorised)
  refine conducted_reading hCall ?_ (fun _ _ h => conducted_lift (fun _ _ => accounted_untouched h))
  intro administrator past₁ hAuthorised hCalls₁ hPast₁
  refine conducted_bind (conducted_selectEvents hPast₁) ?_
  rintro events past₂ ⟨hCalls₂, hSuffix₂, hPast₂⟩
  refine conducted_bind (conducted_selectEvents hPast₂) ?_
  rintro total past₃ ⟨hCalls₃, hSuffix₃, hPast₃⟩
  have hFirst : recordedCalls past₃ = [] := hCalls₃.trans (hCalls₂.trans hCalls₁)
  have hStill := hAuthorised.of_suffix (hSuffix₂.trans hSuffix₃)
  refine conducted_record hFirst (.eventsListed rfl rfl hStill hPast₃) (fun past₄ _ hPast₄ => ?_)
  exact conducted_lift (fun _ _ => accounted_untouched (hPast₄ hPast₃))

/-- The endpoints that owe no record. -/
theorem conducted_reader (hService : service.sodium = d.sodium) {config : RoutesConfig}
    {request : HttpMessage} {parameters : RouteParameters} {process : Nat} {endpoint : Endpoint}
    (hReads : endpoint.audited = false)
    (hOp : endpoint = .listAuditEvents → ∀ token, bearerToken request = some token →
      op = .authenticate process token) :
    Conducted json d op context (endpoint.handler json config service context request parameters) []
      (fun _ past' => Accounted false past') := by
  have hLift : ∀ result : Except Thrown HttpResponse,
      Conducted json d op context (Handling.lift result) [] (fun _ past' => Accounted false past') :=
    fun _ => conducted_lift (fun _ _ => accounted_untouched untouched_nil)
  cases endpoint with
  | health => exact hLift _
  | ready => exact conducted_readyHandler
  | echo => exact conducted_input (fun _ _ => hLift _)
  | me =>
    exact conducted_token (fun token _ => conducted_listing
      (leads_authenticateAccessToken hService admissible_silent (fun _ _ _ _ _ _ _ _ => trivial)))
  | listUsers =>
    exact conducted_token (fun token _ => conducted_input (fun limit _ => conducted_input (fun offset _ =>
      conducted_listing (silent_listUsers hService))))
  | getUser =>
    exact conducted_token (fun token _ => conducted_input (fun userId _ =>
      conducted_listing (silent_getUser hService)))
  | listSessions => exact conducted_token (fun token _ => conducted_listing (silent_listSessions hService))
  | listRoles => exact conducted_token (fun token _ => conducted_listing (silent_listRoles hService))
  | listPermissions => exact conducted_token (fun token _ => conducted_listing (silent_listPermissions hService))
  | listUserRoles =>
    exact conducted_token (fun token _ => conducted_input (fun userId _ => conducted_listing
      (leads_listUserRoles hService admissible_silent (fun _ _ _ _ _ => trivial))))
  | listAuditEvents => exact conducted_listAuditEventsHandler hService (hOp rfl)
  | metrics => exact conducted_metricsHandler hService
  | _ => cases hReads

/-- Every endpoint keeps to the operation that the request asks it for. -/
theorem conducted_handler (hService : service.sodium = d.sodium) {config : RoutesConfig} {arrival : Arrival}
    {parameters : RouteParameters} (endpoint : Endpoint)
    (hOp : ∀ op', endpoint.operation json arrival parameters ((bearerToken arrival.request).getD "") = .ok op' →
      op = op') :
    Conducted json d op arrival.context
      (endpoint.handler json config service arrival.context arrival.request parameters) [] (fun _ past' =>
        Accounted (endpoint.audited && (endpoint.anonymous || (bearerToken arrival.request).isSome)) past') := by
  cases hAudited : endpoint.audited with
  | false =>
    rw [Bool.false_and]
    have hListed : endpoint = .listAuditEvents → ∀ token, bearerToken arrival.request = some token →
        op = .authenticate arrival.process token := by
      rintro rfl token hToken
      exact hOp _ (by rw [hToken]; rfl)
    exact conducted_reader hService hAudited hListed
  | true =>
    rw [Bool.true_and]
    cases endpoint with
    | register =>
      refine conducted_registerHandler (fun username email password hInput => hOp _ ?_)
      rw [Endpoint.operation, hInput]
      rfl
    | login =>
      refine conducted_loginHandler hService (fun login password hInput =>
        hOp (.login arrival.process login password (currentClientIp arrival.context)) ?_)
      rw [Endpoint.operation, hInput]
      rfl
    | refresh =>
      refine conducted_refreshHandler hService (fun refreshToken hInput =>
        hOp (.refresh arrival.process refreshToken) ?_)
      rw [Endpoint.operation, hInput]
      rfl
    | logout =>
      refine conducted_logoutHandler hService (fun token hToken => hOp (.logout arrival.process token) ?_)
      rw [Endpoint.operation, hToken]
      rfl
    | logoutAll =>
      refine conducted_logoutAllHandler hService (fun token hToken => hOp (.logoutAll arrival.process token) ?_)
      rw [Endpoint.operation, hToken]
      rfl
    | revokeSession =>
      refine conducted_revokeSessionHandler hService (fun token sessionId hToken hSession =>
        hOp (.revokeSession arrival.process token sessionId) ?_)
      rw [Endpoint.operation, hToken, hSession]
      rfl
    | changePassword =>
      refine conducted_changePasswordHandler hService
        (fun token currentPassword newPassword hToken hInput =>
          hOp (.changePassword arrival.process token currentPassword newPassword) ?_)
      rw [Endpoint.operation, hToken, hInput]
      rfl
    | setUserStatus =>
      refine conducted_setUserStatusHandler hService (fun token userId enabled hToken hUser hInput =>
        hOp (.setUserEnabled arrival.process token userId enabled) ?_)
      rw [Endpoint.operation, hToken, hUser, hInput]
      rfl
    | assignRole =>
      refine conducted_assignRoleHandler hService (fun token userId role hToken hUser hInput =>
        hOp (.assignRole arrival.process token userId role) ?_)
      rw [Endpoint.operation, hToken, hUser, hInput]
      rfl
    | revokeRole =>
      refine conducted_revokeRoleHandling hService (fun token userId role hToken hUser hInput =>
        hOp (.revokeRole arrival.process token userId role) ?_)
      rw [Endpoint.operation, hToken, hUser, hInput]
      rfl
    | _ => cases hAudited

end reading

end handlers

/-! ## Runs -/

theorem conducted_serve (json : JsonLibrary) (config : RoutesConfig) (d : Deployment) (arrival : Arrival) :
    Conducted json d (arrival.operation json config) arrival.context (serve json config d arrival) []
      (fun _ past' => Accounted (arrival.audited config) past') := by
  have hLift : ∀ result : Except Thrown HttpResponse,
      Conducted json d (arrival.operation json config) arrival.context (Handling.lift result) []
        (fun _ past' => Accounted false past') :=
    fun _ => conducted_lift (fun _ _ => accounted_untouched untouched_nil)
  unfold serve Arrival.audited
  cases hRouted : routeRequest config.registrationEnabled arrival.request with
  | badRequest => exact hLift _
  | notFound => exact hLift _
  | methodNotAllowed allow => exact hLift _
  | reached endpoint parameters =>
    refine conducted_bind (conducted_handler (d.shared arrival.process) endpoint ?_)
      (fun response past' hAccounted => conducted_lift (fun _ _ => hAccounted))
    intro op' hOp
    simp only [Arrival.operation, hRouted, hOp]

theorem meeting_bind_lift {β γ : Type} (x : Handling β) (f : β → Except Thrown γ) (moments : Nat → Moment)
    (sites : Nat → Site) :
    (x >>= fun b => Handling.lift (f b)).run.meeting moments sites = x.run.meeting moments sites >>= f := by
  have hRun : (x >>= fun b => Handling.lift (f b)).run = x.run >>= fun result => pure (result >>= f) := by
    rw [ExceptT.run_bind]
    refine bind_congr (fun result => ?_)
    cases result <;> rfl
  rw [hRun, Process.meeting_bind_pure]

/-- Whatever a request meets at its accesses, its answer is the one that the table of the routes
gives on what its handler returns there. -/
theorem serve_meeting (json : JsonLibrary) (config : RoutesConfig) (d : Deployment) (arrival : Arrival)
    (moments : Nat → Moment) (sites : Nat → Site) :
    (serve json config d arrival).run.meeting moments sites =
      Router.dispatch json (Router.run ((Endpoint.all config.registrationEnabled).map
        (Endpoint.registration (fun endpoint request parameters =>
          (endpoint.handler json config (d.service arrival.process) arrival.context request
            parameters).run.meeting moments sites)))) arrival.request := by
  rw [Endpoint.dispatch_eq]
  unfold serve
  cases routeRequest config.registrationEnabled arrival.request with
  | badRequest => rfl
  | notFound => rfl
  | methodNotAllowed allow => rfl
  | reached endpoint parameters => exact meeting_bind_lift _ _ moments sites

/-- All requests before their first access. -/
def requestPool {τ : Type} (json : JsonLibrary) (config : RoutesConfig) (d : Deployment) (arrivals : τ → Arrival)
    (site : Site) : Pool τ Moment Site SiteEvent (Except Thrown HttpResponse) :=
  Pool.start (fun t => (serve json config d (arrivals t)).run) site

section runs

variable {τ : Type} [DecidableEq τ]

theorem running_requestPool (json : JsonLibrary) (config : RoutesConfig) (d : Deployment)
    (arrivals : τ → Arrival) (site : Site) (schedule : List (τ × Moment)) :
    Pool.Running (fun t => Conducts json d ((arrivals t).operation json config) (arrivals t).context)
      (fun t r past => ∀ response, r = .ok response → Accounted ((arrivals t).audited config) past) site
      ((requestPool json config d arrivals site).run schedule) := by
  refine Pool.running_of_along (fun t => ?_) site schedule
  refine (Fallible.along_of_leads (conducted_serve json config d (arrivals t))).mono (fun _ _ h => h) ?_
  rintro r past hEnd response rfl
  exact hEnd

end runs

/-! ## What a request can ask for -/

section operations

variable {json : JsonLibrary} {config : RoutesConfig} {d : Deployment} {arrival : Arrival}

/-- The endpoint that a request reaches is one of the table and has the method of the request. -/
theorem routeRequest_reached {registrationEnabled : Bool} {request : HttpMessage} {endpoint : Endpoint}
    {parameters : RouteParameters} (h : routeRequest registrationEnabled request = .reached endpoint parameters) :
    endpoint ∈ Endpoint.all registrationEnabled ∧ endpoint.verb = request.verb := by
  unfold routeRequest Routed.ofMatching at h
  simp only at h
  split at h
  · cases h
  · split at h
    · rename_i hFound
      cases h
      have hMatching := List.mem_of_find?_eq_some hFound
      exact ⟨(Endpoint.mem_matching.mp hMatching).1, by simpa using List.find?_some hFound⟩
    · split at h <;> cases h

theorem Arrival.operation_of_get (json : JsonLibrary) (config : RoutesConfig) (h : arrival.request.verb = .get) :
    ∃ accessToken, arrival.operation json config = .authenticate arrival.process accessToken := by
  unfold Arrival.operation
  simp only
  cases hRouted : routeRequest config.registrationEnabled arrival.request with
  | reached endpoint parameters =>
    have hVerb : endpoint.verb = .get := (routeRequest_reached hRouted).2.trans h
    cases endpoint <;> first | exact ⟨_, rfl⟩ | cases hVerb
  | _ => exact ⟨_, rfl⟩

theorem Endpoint.operation_ne_registerUser {endpoint : Endpoint} (hOther : endpoint ≠ .register)
    {parameters : RouteParameters} {accessToken : String} {op : Operation}
    (h : endpoint.operation json arrival parameters accessToken = .ok op) (username email password : String) :
    op ≠ .registerUser username email password := by
  rintro rfl
  cases endpoint with
  | register => exact hOther rfl
  | login | changePassword =>
    obtain ⟨⟨_, _⟩, -, h⟩ := bind_eq_ok.mp h
    cases h
  | refresh | revokeSession =>
    obtain ⟨input, -, h⟩ := bind_eq_ok.mp h
    cases h
  | setUserStatus | assignRole | revokeRole =>
    obtain ⟨userId, -, h⟩ := bind_eq_ok.mp h
    obtain ⟨input, -, h⟩ := bind_eq_ok.mp h
    cases h
  | _ => cases h

theorem Arrival.operation_ne_registerUser (json : JsonLibrary) (h : config.registrationEnabled = false)
    (username email password : String) : arrival.operation json config ≠ .registerUser username email password := by
  unfold Arrival.operation
  simp only
  cases hRouted : routeRequest config.registrationEnabled arrival.request with
  | reached endpoint parameters =>
    simp only
    have hListed := (routeRequest_reached hRouted).1
    have hOther : endpoint ≠ .register := by
      rintro rfl
      rw [h] at hListed
      exact absurd hListed (by decide)
    cases hOp : endpoint.operation json arrival parameters ((bearerToken arrival.request).getD "") with
    | error e => exact fun hCall => by cases hCall
    | ok op => exact Endpoint.operation_ne_registerUser hOther hOp username email password
  | _ => exact fun hCall => by cases hCall

theorem Obeys.of_authenticate {process : Nat} {accessToken : String} {past : List (Act World Event)}
    {act : Act World Event} (h : Obeys d (.authenticate process accessToken) past act) :
    act.after.database = act.before.database := by
  cases h with
  | reads hSame hEvents => exact hSame
  | administer hRequest hAuthorised hChange hEvents => cases hRequest

/-- Only a registration adds a user. -/
theorem Obeys.userIds {op : Operation} {past : List (Act World Event)} {act : Act World Event}
    (h : Obeys d op past act) (hOther : ∀ username email password, op ≠ .registerUser username email password) :
    userIds act.after.database = userIds act.before.database := by
  cases h with
  | reads hSame hEvents => rw [hSame]
  | register now hUnused hAfter hEvents hRole => exact absurd rfl (hOther _ _ _)
  | upgradeHash salt now hReady hAfter hEvents =>
    rw [hAfter]
    exact (keepsAccounts_setPasswordHash _ _ _ _).userIds
  | refresh hOutcome => exact hOutcome.keepsAccounts.userIds
  | changePassword salt now revokedAt hReady hAfter hEvents =>
    rw [hAfter]
    exact (keepsAccounts_setPasswordHash _ _ _ _).userIds
  | administer hRequest hAuthorised hChange hEvents => exact hChange.userIds
  | secureAdmin hAction hChange hEvents => exact hChange.userIds
  | openSession _ _ _ hAfter | logout _ _ _ hAfter | logoutAll _ _ _ hAfter
  | revokeSession _ _ _ hAfter | expire hAfter =>
    rw [hAfter]
    rfl

end operations

/-! ## The audit trail -/

section trail

variable {τ : Type} [DecidableEq τ] {json : JsonLibrary} {config : RoutesConfig} {d : Deployment}
  {arrivals : τ → Arrival} {site : Site} {history : List (Entry τ Site SiteEvent)}

/-- A row of audit_events is what an access has stored of a call that the accesses before it bear out. -/
def Vouched (json : JsonLibrary) (d : Deployment) (op : Operation) (context : Option RequestAuditContext)
    (past : List (Act Site SiteEvent)) (act : Act Site SiteEvent) (row : AuditEvent) : Prop :=
  ∃ call record createdAt, act.events = [.recorded call] ∧ call.record json = some record ∧
    Backed d (worldly past) op call ∧
    row = Keyed.withKey act.before.events.nextKey (AuditRepository.row (AuditService.input record context) createdAt)

/-- An entry of the history has stored the row. -/
def StoredBy (json : JsonLibrary) (config : RoutesConfig) (d : Deployment) (arrivals : τ → Arrival)
    (history : List (Entry τ Site SiteEvent)) (row : AuditEvent) (e : Entry τ Site SiteEvent) : Prop :=
  ∃ newer older, history = newer ++ e :: older ∧
    Vouched json d ((arrivals e.thread).operation json config) (arrivals e.thread).context (own e.thread older)
      e.toAct row

/-- What has been stored since the start, row by row, with the entries that stored it: no two of
them are of one request. -/
def Trail (json : JsonLibrary) (config : RoutesConfig) (d : Deployment) (arrivals : τ → Arrival) (site : Site)
    (events : Table AuditEvent) (history : List (Entry τ Site SiteEvent)) : Prop :=
  ∃ rows entries, events.rows = site.events.rows ++ rows ∧
    List.Forall₂ (StoredBy json config d arrivals history) rows entries ∧ (entries.map Entry.thread).Nodup

theorem StoredBy.cons {row : AuditEvent} {e : Entry τ Site SiteEvent}
    (h : StoredBy json config d arrivals history row e) (latest : Entry τ Site SiteEvent) :
    StoredBy json config d arrivals (latest :: history) row e := by
  obtain ⟨newer, older, rfl, hVouched⟩ := h
  exact ⟨latest :: newer, older, rfl, hVouched⟩

theorem StoredBy.recordedCalls_ne_nil {row : AuditEvent} {e : Entry τ Site SiteEvent}
    (h : StoredBy json config d arrivals history row e) : recordedCalls (own e.thread history) ≠ [] := by
  obtain ⟨newer, older, rfl, call, record, createdAt, hCall, -⟩ := h
  intro hNone
  have hMem : e.toAct ∈ own e.thread (newer ++ e :: older) :=
    mem_own.mpr ⟨e, List.mem_append_right _ List.mem_cons_self, rfl, rfl⟩
  have hCalls := List.flatMap_eq_nil_iff.mp hNone _ hMem
  rw [hCall] at hCalls
  cases hCalls

/-- Each entry of a trail has stored a row. -/
theorem exists_storedBy {rows : List AuditEvent} {entries : List (Entry τ Site SiteEvent)}
    (h : List.Forall₂ (StoredBy json config d arrivals history) rows entries) {e : Entry τ Site SiteEvent}
    (hEntry : e ∈ entries) : ∃ row, StoredBy json config d arrivals history row e := by
  induction h with
  | nil => cases hEntry
  | @cons row e' rows entries hRow hRest ih =>
    rcases List.mem_cons.mp hEntry with rfl | hLater
    · exact ⟨row, hRow⟩
    · exact ih hLater

/-- AuditService::record keeps the rows, or adds the row of the record. -/
theorem AuditService.record_rows (events : Table AuditEvent) (record : AuditRecord)
    (context : Option RequestAuditContext) (stored : Stored) (createdAt : Strftime) :
    (AuditService.record events record context stored createdAt).rows = events.rows ∨
      (AuditService.record events record context stored createdAt).rows = events.rows ++
        [Keyed.withKey events.nextKey (AuditRepository.row (AuditService.input record context) createdAt)] := by
  unfold AuditService.record AuditRepository.create
  cases AuditRepository.validateInput (AuditService.input record context) with
  | error e => exact .inl rfl
  | ok checked =>
    cases stored with
    | refused e => exact .inl rfl
    | created => exact .inr rfl
    | unread e => exact .inr rfl

/-- One access keeps the trail. -/
theorem Trail.access {e : Entry τ Site SiteEvent} {older : List (Entry τ Site SiteEvent)}
    (hConducts : Conducts json d ((arrivals e.thread).operation json config) (arrivals e.thread).context
      (own e.thread older) e.toAct)
    (h : Trail json config d arrivals site e.before.events older) :
    Trail json config d arrivals site e.after.events (e :: older) := by
  obtain ⟨rows, entries, hRows, hStored, hThreads⟩ := h
  have hStill : List.Forall₂ (StoredBy json config d arrivals (e :: older)) rows entries :=
    hStored.imp (fun _ _ h => h.cons e)
  cases hConducts with
  | serves hCalls hEvents hObeys => exact ⟨rows, entries, by rw [hEvents, hRows], hStill, hThreads⟩
  | @records call record stored createdAt hFirst hCall hRecord hBacked hWorld hEvents =>
    rcases AuditService.record_rows e.before.events record (arrivals e.thread).context stored createdAt with
      hSame | hNew
    · exact ⟨rows, entries, by rw [hEvents, hSame, hRows], hStill, hThreads⟩
    · refine ⟨rows ++ [_], entries ++ [e], by rw [hEvents, hNew, hRows, List.append_assoc], ?_, ?_⟩
      · refine List.rel_append hStill (.cons ?_ .nil)
        exact ⟨[], older, rfl, call, record, createdAt, hCall, hRecord, hBacked, rfl⟩
      · -- Another record of this request would be among its earlier accesses.
        rw [List.map_append, List.map_singleton, List.nodup_append]
        refine ⟨hThreads, List.nodup_singleton _, ?_⟩
        intro t hOld t' hNew' hSame
        cases List.mem_singleton.mp hNew'
        obtain ⟨e', hEntry, hThread⟩ := List.mem_map.mp hOld
        obtain ⟨row, hRow⟩ := exists_storedBy hStored hEntry
        refine hRow.recordedCalls_ne_nil ?_
        rw [hThread, hSame]
        exact hFirst

end trail

/-- The audit log of any number of requests, in any interleaving of their accesses: what is new
in it was stored by an access of a request that the earlier accesses of this request bear out,
no request stored twice, and every request that was answered has made its one record, or owes
none and has changed nothing. -/
theorem audit_trail_is_true {τ : Type} [DecidableEq τ] (json : JsonLibrary) (config : RoutesConfig)
    (d : Deployment) (arrivals : τ → Arrival) (site : Site) (schedule : List (τ × Moment)) :
    let ran := (requestPool json config d arrivals site).run schedule
    Trail json config d arrivals site ran.state.events ran.history ∧
      ∀ t response, (ran.threads t).result? = some (.ok response) →
        Accounted ((arrivals t).audited config) (own t ran.history) := by
  intro ran
  have hRun := running_requestPool json config d arrivals site schedule
  constructor
  · rw [show ran.state = _ from hRun.state]
    apply Execution.invariant
      (I := fun site' history => Trail json config d arrivals site site'.events history) _ _ hRun.execution
    · exact ⟨[], [], (List.append_nil _).symm, .nil, List.nodup_nil⟩
    · exact fun e older hEntry hBefore => Trail.access hEntry.uncons.2.2 hBefore
  · intro t response hAnswered
    exact hRun.returned (Process.eq_done_of_result? hAnswered) response rfl

/-- Requests are the operations that they ask for: seen by the services, a run of requests is a
history of these operations. No GET changes the database, and where the server registers nobody,
no request adds a user. -/
theorem requests_refine_operations {τ : Type} [DecidableEq τ] (json : JsonLibrary) (config : RoutesConfig)
    (d : Deployment) (arrivals : τ → Arrival) (site : Site) (schedule : List (τ × Moment)) :
    let ran := (requestPool json config d arrivals site).run schedule
    let seen := ran.history.map (Entry.through Site.world SiteEvent.service?)
    (Histories d (fun t => (arrivals t).operation json config) site.world seen ∧
      ran.state.world = stateAfter site.world seen) ∧
    (∀ e ∈ ran.history, (arrivals e.thread).request.verb = .get →
      e.after.world.database = e.before.world.database) ∧
    (config.registrationEnabled = false → userIds ran.state.world.database = userIds site.world.database) := by
  intro ran seen
  have hRun := running_requestPool json config d arrivals site schedule
  refine ⟨⟨hRun.execution.through (fun _ _ _ h => h.obeys), ?_⟩, ?_, ?_⟩
  · rw [show seen = _ from rfl, stateAfter_through, ← hRun.state]
  · intro e hEntry hGet
    obtain ⟨newer, older, hHistory⟩ := List.append_of_mem hEntry
    have hExecution := hRun.execution
    rw [show _ = _ from hHistory] at hExecution
    obtain ⟨accessToken, hOp⟩ := Arrival.operation_of_get json config hGet
    have hObeys := hExecution.at_entry.2.obeys
    rw [hOp] at hObeys
    exact hObeys.of_authenticate
  · intro hDisabled
    rw [show ran.state = _ from hRun.state]
    apply Execution.invariant
      (I := fun site' _ => userIds site'.world.database = userIds site.world.database) rfl _ hRun.execution
    intro e older hEntry hBefore
    refine Eq.trans ?_ hBefore
    exact hEntry.uncons.2.2.obeys.userIds (Arrival.operation_ne_registerUser json hDisabled)

end SecureCore

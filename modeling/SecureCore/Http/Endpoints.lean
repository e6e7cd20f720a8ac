import SecureCore.Http.Handlers
import SecureCore.Http.PathParameters
import SecureCore.Http.RouteLookup

/-! # The routes of the server

The table that the register functions of the route files build, and what it makes of a
request. -/

namespace SecureCore

set_option autoImplicit false

open Interleaving

inductive Endpoint where
  | health | ready | register | login | refresh | logout | logoutAll | me | echo
  | listUsers | getUser | setUserStatus
  | listSessions | revokeSession | changePassword
  | listRoles | listPermissions | listUserRoles | assignRole | revokeRole
  | listAuditEvents
  | metrics
  deriving DecidableEq, Repr

structure RoutesConfig where
  registrationEnabled : Bool
  metricsRequireAuth : Bool

namespace Endpoint

/-- All endpoints, in the order of their registration. -/
def all (registrationEnabled : Bool) : List Endpoint :=
  [health, ready] ++ (if registrationEnabled then [register] else []) ++
    [login, refresh, logout, logoutAll, me, echo, listUsers, getUser, setUserStatus, listSessions,
      revokeSession, changePassword, listRoles, listPermissions, listUserRoles, assignRole, revokeRole,
      listAuditEvents, metrics]

def verb : Endpoint → Verb
  | health | ready | me | listUsers | getUser | listSessions | listRoles | listPermissions
  | listUserRoles | listAuditEvents | metrics => .get
  | register | login | refresh | logout | logoutAll | echo | changePassword | assignRole => .post
  | setUserStatus => .patch
  | revokeSession | revokeRole => .delete

def path : Endpoint → String
  | health => "/health"
  | ready => "/ready"
  | register => "/v1/auth/register"
  | login => "/v1/auth/login"
  | refresh => "/v1/auth/refresh"
  | logout => "/v1/auth/logout"
  | logoutAll => "/v1/auth/logout-all"
  | me => "/v1/users/me"
  | echo => "/v1/echo"
  | listUsers => "/v1/admin/users"
  | getUser => "/v1/admin/users/{id}"
  | setUserStatus => "/v1/admin/users/{id}/status"
  | listSessions => "/v1/auth/sessions"
  | revokeSession => "/v1/auth/sessions/{id}"
  | changePassword => "/v1/users/me/password"
  | listRoles => "/v1/admin/roles"
  | listPermissions => "/v1/admin/permissions"
  | listUserRoles => "/v1/admin/users/{id}/roles"
  | assignRole => "/v1/admin/users/{id}/roles"
  | revokeRole => "/v1/admin/users/{id}/roles/{role}"
  | listAuditEvents => "/v1/admin/audit-events"
  | metrics => "/metrics"

/-- Whether the handler is one of those with parameters. -/
def takesParameters : Endpoint → Bool
  | getUser | setUserStatus | revokeSession | listUserRoles | assignRole | revokeRole => true
  | _ => false

def registration (handlers : Endpoint → Router.Handler) (endpoint : Endpoint) : Router.Registration :=
  if endpoint.takesParameters then .full endpoint.verb endpoint.path.toList (some (handlers endpoint))
  else .simple endpoint.verb endpoint.path.toList (some (fun request => handlers endpoint request ∅))

/-- The handler of an endpoint while it runs on a request. -/
def handler (json : JsonLibrary) (config : RoutesConfig) (service : AuthService)
    (context : Option RequestAuditContext) (request : HttpMessage) (parameters : RouteParameters) :
    Endpoint → Handling HttpResponse
  | health => healthHandler json
  | ready => readyHandler json
  | register => registerHandler json service context request
  | login => loginHandler json service context request
  | refresh => refreshHandler json service context request
  | logout => logoutHandler json service context request
  | logoutAll => logoutAllHandler json service context request
  | me => meHandler json service request
  | echo => echoHandler json request
  | listUsers => listUsersHandler json service request
  | getUser => getUserHandler json service request parameters
  | setUserStatus => setUserStatusHandler json service context request parameters
  | listSessions => listSessionsHandler json service request
  | revokeSession => revokeSessionHandler json service context request parameters
  | changePassword => changePasswordHandler json service context request
  | listRoles => listRolesHandler json service request
  | listPermissions => listPermissionsHandler json service request
  | listUserRoles => listUserRolesHandler json service request parameters
  | assignRole => assignRoleHandler json service context request parameters
  | revokeRole => revokeRoleHandling json service context request parameters
  | listAuditEvents => listAuditEventsHandler json service context request
  | metrics => metricsHandler json service request config.metricsRequireAuth

end Endpoint

/-! ## What the table makes of a request -/

/-- What the routes make of a request before a handler runs. -/
inductive Routed where
  | badRequest
  | notFound
  | methodNotAllowed (allow : List String)
  | reached (endpoint : Endpoint) (parameters : RouteParameters)

/-- The endpoints whose path a request matches. -/
def Endpoint.matching (registrationEnabled : Bool) (path : List Char) : List (Endpoint × RouteParameters) :=
  (all registrationEnabled).filterMap (fun endpoint =>
    (parametersOf endpoint.path.toList path).map (fun parameters => (endpoint, parameters)))

def Routed.ofMatching (method : Verb) (matching : List (Endpoint × RouteParameters)) : Routed :=
  match matching.find? (fun match' => match'.1.verb == method) with
  | some (endpoint, parameters) => .reached endpoint parameters
  | none =>
    if matching.isEmpty then .notFound
    else .methodNotAllowed ((matching.map (fun match' => match'.1.verb.name)).insertionSort (· ≤ ·))

def routeRequest (registrationEnabled : Bool) (request : HttpMessage) : Routed :=
  let path := pathFromTarget request.target
  if path.head? != some '/' then .badRequest
  else .ofMatching request.verb (Endpoint.matching registrationEnabled path)

/-- The answer, given what a handler makes of the request. -/
def Routed.respond (json : JsonLibrary) (request : HttpMessage)
    (handled : Endpoint → RouteParameters → Except Thrown HttpResponse) : Routed → Except Thrown HttpResponse
  | badRequest => makeErrorResponse json request 400 "bad_request"
  | notFound => makeErrorResponse json request 404 "not_found"
  | methodNotAllowed allow => do
    let response ← makeErrorResponse json request 405 "method_not_allowed"
    .ok (response.set "Allow" (", ".toList.intercalate (allow.map String.toList)))
  | reached endpoint parameters => do
    let response ← handled endpoint parameters
    finalizeResponse response request

namespace Endpoint

/-! ## The table has no ambiguity -/

/-- The segments of a path, with its parameters. -/
def segments (endpoint : Endpoint) : List RouteSegment :=
  match compilePattern endpoint.path.toList with
  | .ok compiled => compiled.segments
  | .error _ => []

/-- Whether two lists of segments differ in length or in a static segment. -/
def apart : List RouteSegment → List RouteSegment → Bool
  | first :: segments, second :: segments' =>
    (!first.parameter && !second.parameter && first.value != second.value) || apart segments segments'
  | [], [] => false
  | _, _ => true

/-- One segment of a match. -/
theorem matchSegments_cons {first : RouteSegment} {segments : List RouteSegment} {actual : List Char}
    {path : List (List Char)} {parameters : RouteParameters}
    (h : (matchSegments parameters (first :: segments) (actual :: path)).isSome = true) :
    (first.parameter = false → first.value = actual) ∧
      ∃ next, (matchSegments next segments path).isSome = true := by
  rw [matchSegments] at h
  cases hParameter : first.parameter with
  | false =>
    rw [hParameter, Bool.not_false, if_pos rfl] at h
    by_cases hSame : first.value = actual
    · rw [hSame, bne_self_eq_false, if_neg Bool.false_ne_true] at h
      exact ⟨fun _ => hSame, parameters, h⟩
    · rw [if_pos (bne_iff_ne.mpr hSame)] at h
      cases h
  | true =>
    rw [hParameter, Bool.not_true, if_neg Bool.false_ne_true] at h
    refine ⟨fun hStatic => Bool.noConfusion hStatic, ?_⟩
    cases hEmpty : actual.isEmpty with
    | true =>
      rw [hEmpty, if_pos rfl] at h
      cases h
    | false =>
      rw [hEmpty, if_neg Bool.false_ne_true] at h
      cases hDecoded : decodeComponent actual false with
      | none => rw [hDecoded] at h; cases h
      | some decoded => rw [hDecoded] at h; exact ⟨_, h⟩

/-- Segments that are apart match no path together. -/
theorem apart_of_matches {segments segments' : List RouteSegment} {path : List (List Char)}
    (hLength : path.length = segments.length) (hLength' : path.length = segments'.length)
    {parameters parameters' : RouteParameters}
    (hMatch : (matchSegments parameters segments path).isSome = true)
    (hMatch' : (matchSegments parameters' segments' path).isSome = true) :
    apart segments segments' = false := by
  induction path generalizing segments segments' parameters parameters' with
  | nil =>
    rw [List.length_nil, eq_comm, List.length_eq_zero_iff] at hLength hLength'
    rw [hLength, hLength', apart]
  | cons actual path ih =>
    cases segments with
    | nil => cases hLength
    | cons first segments =>
      cases segments' with
      | nil => cases hLength'
      | cons second segments' =>
        rw [List.length_cons, List.length_cons, Nat.add_right_cancel_iff] at hLength hLength'
        obtain ⟨hFirst, next, hNext⟩ := matchSegments_cons hMatch
        obtain ⟨hSecond, next', hNext'⟩ := matchSegments_cons hMatch'
        rw [apart, ih hLength hLength' hNext hNext', Bool.or_false]
        cases hStatic : first.parameter with
        | true => rfl
        | false =>
          cases hStatic' : second.parameter with
          | true => rfl
          | false =>
            rw [hFirst hStatic, hSecond hStatic', bne_self_eq_false]
            rfl

/-! ## Facts of the table -/

theorem takesParameters_eq (endpoint : Endpoint) :
    isPatternPath endpoint.path.toList = endpoint.takesParameters := by
  cases endpoint <;> decide +kernel

theorem mem_all (endpoint : Endpoint) : endpoint ∈ all true := by
  cases endpoint <;> decide

theorem all_sublist (registrationEnabled : Bool) : (all registrationEnabled).Sublist (all true) := by
  cases registrationEnabled <;> decide

/-- Every path compiles, and its segments leave no room for another path. -/
structure Compiles (endpoint : Endpoint) (compiled : PatternRoute) : Prop where
  compiles : compilePattern endpoint.path.toList = .ok compiled
  sameSegments : compiled.segments = endpoint.segments

theorem exists_compiles (endpoint : Endpoint) : ∃ compiled, endpoint.Compiles compiled := by
  have hOk : (compilePattern endpoint.path.toList).isOk = true := by
    cases endpoint <;> decide +kernel
  cases hCompiled : compilePattern endpoint.path.toList with
  | error e =>
    rw [hCompiled] at hOk
    cases hOk
  | ok compiled => exact ⟨compiled, hCompiled, by rw [segments, hCompiled]⟩

theorem path_absolute (endpoint : Endpoint) :
    endpoint.path.toList.head? = some '/' ∧ '?' ∉ endpoint.path.toList := by
  cases endpoint <;> decide

theorem methods_differ : (all true).Pairwise (fun endpoint other =>
    endpoint.path = other.path → endpoint.verb ≠ other.verb) := by
  decide +kernel

theorem segments_apart (endpoint other : Endpoint) : endpoint.path = other.path ∨
    endpoint.segments.length ≠ other.segments.length ∨ apart endpoint.segments other.segments = true := by
  have hAll : ∀ first ∈ all true, ∀ second ∈ all true, first.path = second.path ∨
      first.segments.length ≠ second.segments.length ∨ apart first.segments second.segments = true := by
    decide +kernel
  exact hAll endpoint (mem_all endpoint) other (mem_all other)

/-- The segments that a path without parameters has itself. -/
theorem splitPath_exact {endpoint : Endpoint} (h : endpoint.takesParameters = false) :
    splitPath endpoint.path.toList = endpoint.segments.map RouteSegment.value ∧
      ∀ segment ∈ endpoint.segments, segment.parameter = false := by
  have hAll : ∀ endpoint ∈ all true, endpoint.takesParameters = false →
      splitPath endpoint.path.toList = endpoint.segments.map RouteSegment.value ∧
        ∀ segment ∈ endpoint.segments, segment.parameter = false := by
    decide +kernel
  exact hAll endpoint (mem_all endpoint) h

theorem segments_plain (endpoint : Endpoint) : ∀ segment ∈ endpoint.segments,
    segment.parameter = false → segment.value ≠ [] ∧ '/' ∉ segment.value ∧ '?' ∉ segment.value := by
  have hAll : ∀ endpoint ∈ all true, ∀ segment ∈ endpoint.segments,
      segment.parameter = false → segment.value ≠ [] ∧ '/' ∉ segment.value ∧ '?' ∉ segment.value := by
    decide +kernel
  exact hAll endpoint (mem_all endpoint)

theorem segments_static (endpoint : Endpoint) :
    ∃ segment ∈ endpoint.segments, segment.parameter = false := by
  have hAll : ∀ endpoint ∈ all true, ∃ segment ∈ endpoint.segments, segment.parameter = false := by
    decide +kernel
  exact hAll endpoint (mem_all endpoint)

/-! ## Matching -/

theorem matchSegments_static {segments : List RouteSegment}
    (h : ∀ segment ∈ segments, segment.parameter = false) (parameters : RouteParameters) :
    matchSegments parameters segments (segments.map RouteSegment.value) = some parameters := by
  induction segments with
  | nil => rfl
  | cons segment segments ih =>
    rw [List.forall_mem_cons] at h
    rw [List.map_cons, matchSegments, h.1, Bool.not_false, if_pos rfl, bne_self_eq_false,
      if_neg Bool.false_ne_true, ih h.2]

/-- A path that matches has as many segments as the path of the endpoint, and they match. -/
theorem segments_match {endpoint : Endpoint} {path : List Char}
    (h : (parametersOf endpoint.path.toList path).isSome = true) :
    (splitPath path).length = endpoint.segments.length ∧
      (matchSegments ∅ endpoint.segments (splitPath path)).isSome = true := by
  unfold parametersOf at h
  rw [takesParameters_eq] at h
  cases hParameters : endpoint.takesParameters with
  | true =>
    obtain ⟨compiled, hCompiled, hSegments⟩ := exists_compiles endpoint
    rw [hParameters, if_pos rfl, hCompiled] at h
    simp only [matchPattern, hSegments] at h
    by_cases hLength : (splitPath path).length = endpoint.segments.length
    · rw [hLength, bne_self_eq_false, if_neg Bool.false_ne_true] at h
      exact ⟨hLength, h⟩
    · rw [if_pos (bne_iff_ne.mpr hLength)] at h
      cases h
  | false =>
    rw [hParameters, if_neg Bool.false_ne_true] at h
    by_cases hPath : endpoint.path.toList = path
    · obtain ⟨hSplit, hStatic⟩ := splitPath_exact hParameters
      rw [← hPath, hSplit, List.length_map, matchSegments_static hStatic]
      exact ⟨rfl, rfl⟩
    · rw [if_neg hPath] at h
      cases h

theorem path_unique {endpoint other : Endpoint} {path : List Char}
    (h : (parametersOf endpoint.path.toList path).isSome = true)
    (h' : (parametersOf other.path.toList path).isSome = true) : endpoint.path = other.path := by
  obtain ⟨hLength, hMatch⟩ := segments_match h
  obtain ⟨hLength', hMatch'⟩ := segments_match h'
  rcases segments_apart endpoint other with hSame | hDiffer | hApart
  · exact hSame
  · exact absurd (hLength.symm.trans hLength') hDiffer
  · rw [apart_of_matches hLength hLength' hMatch hMatch'] at hApart
    cases hApart

/-! ## The routes -/

section routes

variable (handlers : Endpoint → Router.Handler) (registrationEnabled : Bool)

/-- What the registration of an endpoint is to register. -/
def route (endpoint : Endpoint) : Router.Route :=
  ⟨endpoint.verb, endpoint.path.toList,
    if endpoint.takesParameters then handlers endpoint else fun request _ => handlers endpoint request ∅⟩

theorem registration_route (endpoint : Endpoint) :
    (endpoint.registration handlers).route = some (endpoint.route handlers) := by
  unfold registration route
  cases endpoint.takesParameters <;> rfl

theorem route_handler {endpoint : Endpoint} {path : List Char} {parameters : RouteParameters}
    (h : parametersOf endpoint.path.toList path = some parameters) (request : HttpMessage) :
    (endpoint.route handlers).handler request parameters = handlers endpoint request parameters := by
  unfold route
  unfold parametersOf at h
  rw [takesParameters_eq] at h
  cases hParameters : endpoint.takesParameters with
  | true => rfl
  | false =>
    rw [hParameters, if_neg Bool.false_ne_true] at h
    by_cases hPath : endpoint.path.toList = path
    · rw [if_pos hPath] at h
      cases h
      rfl
    · rw [if_neg hPath] at h
      cases h

theorem unambiguous : Router.Unambiguous ((all registrationEnabled).map (route handlers)) := by
  constructor
  · intro first hFirst second hSecond path hMatch hMatch'
    obtain ⟨endpoint, -, rfl⟩ := List.mem_map.mp hFirst
    obtain ⟨other, -, rfl⟩ := List.mem_map.mp hSecond
    exact congrArg String.toList (path_unique hMatch hMatch')
  · rw [List.pairwise_map]
    refine (methods_differ.sublist (all_sublist registrationEnabled)).imp ?_
    intro endpoint other hDiffer hPath
    exact hDiffer (String.toList_inj.mp hPath)

theorem shapes_differ (endpoint other : Endpoint) {compiled compiled' : PatternRoute}
    (h : compilePattern endpoint.path.toList = .ok compiled)
    (h' : compilePattern other.path.toList = .ok compiled') (hShape : compiled.shape = compiled'.shape) :
    endpoint.path = other.path := by
  have hAll : ∀ first ∈ all true, ∀ second ∈ all true, first.path = second.path ∨
      (compilePattern first.path.toList).map PatternRoute.shape ≠
        (compilePattern second.path.toList).map PatternRoute.shape := by
    decide +kernel
  rcases hAll endpoint (mem_all endpoint) other (mem_all other) with hSame | hDiffer
  · exact hSame
  · refine absurd ?_ hDiffer
    rw [h, h']
    exact congrArg Except.ok hShape

theorem fresh {before after : List Router.Route} {route' : Router.Route}
    (h : (all registrationEnabled).map (route handlers) = before ++ route' :: after) :
    Router.Fresh before route' := by
  have hMem : ∀ other ∈ before ++ route' :: after, ∃ endpoint : Endpoint, endpoint.route handlers = other := by
    intro other hOther
    rw [← h] at hOther
    obtain ⟨endpoint, -, hSame⟩ := List.mem_map.mp hOther
    exact ⟨endpoint, hSame⟩
  obtain ⟨endpoint, rfl⟩ := hMem route' (List.mem_append_right _ List.mem_cons_self)
  have hMethods := (unambiguous handlers registrationEnabled).method
  rw [h, List.pairwise_append] at hMethods
  refine ⟨(path_absolute endpoint).1, (path_absolute endpoint).2, ?_, ?_, ?_⟩
  · intro _
    obtain ⟨compiled, hCompiled, -⟩ := exists_compiles endpoint
    exact ⟨compiled, hCompiled⟩
  · intro other hOther
    exact hMethods.2.2 other hOther _ List.mem_cons_self
  · intro other hOther compiled compiled' hCompiled hCompiled' hShape
    obtain ⟨endpoint', rfl⟩ := hMem other (List.mem_append_left _ hOther)
    exact congrArg String.toList (shapes_differ endpoint' endpoint hCompiled hCompiled' hShape)

end routes

/-! ## Paths made for an endpoint -/

/-- A path made of the segments of an endpoint, with values in the place of its parameters. -/
theorem parametersOf_substitute (endpoint : Endpoint) {raw values : List Char → List Char}
    (h : ∀ name ∈ parameterNames endpoint.segments,
      values name ≠ [] ∧ Coding.Encodes PathCode (values name) (raw name)) :
    '?' ∉ substitute raw endpoint.segments ∧
      ∃ parameters, parametersOf endpoint.path.toList (substitute raw endpoint.segments) = some parameters ∧
        ∀ name, parameters.lookup name =
          if name ∈ parameterNames endpoint.segments then some (values name) else none := by
  obtain ⟨compiled, hCompiled, hSegments⟩ := exists_compiles endpoint
  rw [← hSegments] at h ⊢
  have hPlain := segments_plain endpoint
  rw [← hSegments] at hPlain
  have hFree := fillSegment_free (c := '/') (fun segment hSegment hStatic => (hPlain segment hSegment hStatic).2.1)
    (fun name hName => encodes_not_mem (by decide) (by decide) (by decide) (by decide) (h name hName).2)
  have hNoQuery := fillSegment_free (c := '?') (fun segment hSegment hStatic => (hPlain segment hSegment hStatic).2.2)
    (fun name hName => encodes_not_mem (by decide) (by decide) (by decide) (by decide) (h name hName).2)
  have hDecodes : ∀ name ∈ parameterNames compiled.segments,
      raw name ≠ [] ∧ decodeComponent (raw name) false = some (values name) := by
    intro name hName
    obtain ⟨hNonempty, hCode⟩ := h name hName
    refine ⟨hCode.ne_nil (fun _ _ hPiece => hPiece.ne_nil) hNonempty, ?_⟩
    exact decodeComponent_of_encodes (by decide) (fun h => nomatch h) hCode
  have hSplit : splitPath (substitute raw compiled.segments) = compiled.segments.map (fillSegment raw) := by
    rw [substitute_eq]
    obtain ⟨segment, hSegment, hStatic⟩ := segments_static endpoint
    rw [← hSegments] at hSegment
    refine splitPath_flatMap hFree ⟨_, List.mem_map_of_mem hSegment, ?_⟩
    rw [fillSegment, hStatic, if_neg Bool.false_ne_true]
    exact (hPlain segment hSegment hStatic).1
  constructor
  · rw [substitute_eq]
    intro hMem
    obtain ⟨text, hText, hc⟩ := List.mem_flatMap.mp hMem
    rcases List.mem_cons.mp hc with hSame | hc
    · exact absurd hSame (by decide)
    · exact hNoQuery text hText hc
  · unfold parametersOf
    rw [takesParameters_eq]
    cases hParameters : endpoint.takesParameters with
    | true =>
      obtain ⟨parameters, hMatch, hLookup⟩ := matchSegments_fill ∅ hDecodes
      refine ⟨parameters, ?_, ?_⟩
      · rw [if_pos rfl, hCompiled]
        simp only [matchPattern, hSplit, List.length_map, bne_self_eq_false, Bool.false_eq_true, if_false]
        exact hMatch
      · intro name
        rw [hLookup name, AList.lookup_empty, Option.none_or]
    | false =>
      obtain ⟨hOwn, hStatic⟩ := splitPath_exact hParameters
      have hFill : compiled.segments.map (fillSegment raw) = splitPath endpoint.path.toList := by
        rw [hOwn, hSegments]
        refine List.map_congr_left (fun segment hSegment => ?_)
        rw [fillSegment, hStatic segment hSegment, if_neg Bool.false_ne_true]
      have hNonempty : splitPath endpoint.path.toList ≠ [] := by
        obtain ⟨segment, hSegment, -⟩ := segments_static endpoint
        rw [hOwn]
        exact List.ne_nil_of_mem (List.mem_map_of_mem hSegment)
      have hPath : endpoint.path.toList = substitute raw compiled.segments := by
        rw [substitute_eq, hFill]
        exact (flatMap_splitPath (path_absolute endpoint).1 hNonempty).1.symm
      have hNames : parameterNames compiled.segments = [] := by
        rw [hSegments]
        unfold parameterNames
        rw [List.filter_eq_nil_iff.mpr (fun segment hSegment => by
          rw [hStatic segment hSegment]
          exact Bool.false_ne_true)]
        rfl
      refine ⟨∅, ?_, fun name => ?_⟩
      · rw [if_neg Bool.false_ne_true, if_pos hPath]
      · rw [hNames, if_neg List.not_mem_nil]
        exact AList.lookup_empty name

/-! ## The table and the look-up -/

section table

variable {handlers : Endpoint → Router.Handler} {registrationEnabled : Bool} {path : List Char}
  {endpoint : Endpoint} {parameters : RouteParameters}

theorem mem_matching : (endpoint, parameters) ∈ matching registrationEnabled path ↔
    endpoint ∈ all registrationEnabled ∧ parametersOf endpoint.path.toList path = some parameters := by
  unfold matching
  rw [List.mem_filterMap]
  constructor
  · rintro ⟨other, hOther, hMatch⟩
    obtain ⟨parameters', hParameters, hSame⟩ := Option.map_eq_some_iff.mp hMatch
    cases hSame
    exact ⟨hOther, hParameters⟩
  · rintro ⟨hEndpoint, hParameters⟩
    exact ⟨endpoint, hEndpoint, by rw [hParameters]; rfl⟩

theorem found_routes (handlers : Endpoint → Router.Handler) (registrationEnabled : Bool) (path : List Char) :
    Router.found ((all registrationEnabled).map (route handlers)) path =
      (matching registrationEnabled path).map (fun match' => (match'.1.route handlers, match'.2)) := by
  unfold Router.found matching
  rw [List.filterMap_map, List.map_filterMap]
  apply List.filterMap_congr
  intro endpoint _
  rw [Option.map_map]
  rfl

theorem respond_lookup (json : JsonLibrary) (handlers : Endpoint → Router.Handler)
    (registrationEnabled : Bool) (path : List Char) (request : HttpMessage) :
    (Router.lookup ((all registrationEnabled).map (route handlers)) path request.verb).respond json request =
      (Routed.ofMatching request.verb (matching registrationEnabled path)).respond json request
        (fun endpoint parameters => handlers endpoint request parameters) := by
  unfold Router.lookup Routed.ofMatching
  rw [found_routes, List.find?_map, List.isEmpty_map, List.map_map]
  have hSame : ((fun match' : Router.Route × RouteParameters => match'.1.method == request.verb) ∘
      fun match' : Endpoint × RouteParameters => (match'.1.route handlers, match'.2)) =
        fun match' => match'.1.verb == request.verb := rfl
  rw [hSame]
  cases hFind : (matching registrationEnabled path).find? (fun match' => match'.1.verb == request.verb) with
  | none =>
    rw [Option.map_none]
    cases (matching registrationEnabled path).isEmpty <;> rfl
  | some match' =>
    obtain ⟨endpoint, parameters⟩ := match'
    have hMatch := (mem_matching.mp (List.mem_of_find?_eq_some hFind)).2
    simp only [Option.map_some, Router.Answer.respond, Routed.respond, route_handler handlers hMatch]

/-- Another endpoint of the same path and method is the same endpoint. -/
theorem eq_of_matching {other : Endpoint} {parameters' : RouteParameters}
    (h : parametersOf endpoint.path.toList path = some parameters)
    (h' : parametersOf other.path.toList path = some parameters') (hVerb : endpoint.verb = other.verb) :
    endpoint = other := by
  have hPath : endpoint.path = other.path := path_unique (by rw [h]; rfl) (by rw [h']; rfl)
  have hAll : ∀ first ∈ all true, ∀ second ∈ all true, first.path = second.path →
      first.verb = second.verb → first = second := by
    decide +kernel
  exact hAll endpoint (mem_all endpoint) other (mem_all other) hPath hVerb

theorem ofMatching_reached (hEndpoint : endpoint ∈ all registrationEnabled)
    (h : parametersOf endpoint.path.toList path = some parameters) :
    Routed.ofMatching endpoint.verb (matching registrationEnabled path) = .reached endpoint parameters := by
  unfold Routed.ofMatching
  have hMem := mem_matching.mpr ⟨hEndpoint, h⟩
  cases hFind : (matching registrationEnabled path).find? (fun match' => match'.1.verb == endpoint.verb) with
  | none =>
    exact absurd (beq_self_eq_true endpoint.verb) (List.find?_eq_none.mp hFind _ hMem)
  | some match' =>
    obtain ⟨other, parameters'⟩ := match'
    obtain ⟨-, hOther⟩ := mem_matching.mp (List.mem_of_find?_eq_some hFind)
    have hVerb : other.verb = endpoint.verb := by simpa using List.find?_some hFind
    obtain rfl := eq_of_matching h hOther hVerb.symm
    rw [h] at hOther
    rw [Option.some.inj hOther]

/-- The table answers a request as the one endpoint does that the request names. -/
theorem dispatch_eq (json : JsonLibrary) (registrationEnabled : Bool) (handlers : Endpoint → Router.Handler)
    (request : HttpMessage) :
    Router.dispatch json (Router.run ((all registrationEnabled).map (registration handlers))) request =
      (routeRequest registrationEnabled request).respond json request
        (fun endpoint parameters => handlers endpoint request parameters) := by
  unfold routeRequest
  simp only
  by_cases hPath : (pathFromTarget request.target).head? = some '/'
  · rw [hPath, bne_self_eq_false, if_neg Bool.false_ne_true, ← respond_lookup]
    refine Router.dispatch_lookup json ?_ (fun before route' after hRoutes =>
      fresh handlers registrationEnabled hRoutes) (unambiguous handlers registrationEnabled) request hPath
    rw [List.map_map, List.map_map]
    exact List.map_congr_left (fun endpoint _ => registration_route handlers endpoint)
  · have hOther : ((pathFromTarget request.target).head? != some '/') = true := bne_iff_ne.mpr hPath
    unfold Router.dispatch
    simp only
    rw [if_pos hOther, if_pos hOther]
    rfl

end table

/-- The routes of the server: every registration is accepted, every request is answered by the
one endpoint that it names, and a URL that is made for an endpoint reaches it with the values
that were put in. -/
theorem server_routes (json : JsonLibrary) (registrationEnabled : Bool) (handlers : Endpoint → Router.Handler) :
    (∀ before call after, (all registrationEnabled).map (registration handlers) = before ++ call :: after →
      (call.apply (Router.run before)).1 = .ok ()) ∧
    (∀ request, Router.dispatch json (Router.run ((all registrationEnabled).map (registration handlers))) request =
      (routeRequest registrationEnabled request).respond json request
        (fun endpoint parameters => handlers endpoint request parameters)) ∧
    ∀ endpoint ∈ all registrationEnabled, ∀ raw values : List Char → List Char,
      (∀ name ∈ parameterNames endpoint.segments,
        values name ≠ [] ∧ Coding.Encodes PathCode (values name) (raw name)) →
      ∀ request : HttpMessage, request.verb = endpoint.verb →
        (request.target = substitute raw endpoint.segments ∨
          ∃ query, request.target = substitute raw endpoint.segments ++ '?' :: query) →
        ∃ parameters, routeRequest registrationEnabled request = .reached endpoint parameters ∧
          ∀ name, parameters.lookup name =
            if name ∈ parameterNames endpoint.segments then some (values name) else none := by
  refine ⟨?_, ?_, ?_⟩
  · intro before call after hCalls
    obtain ⟨endpoints, more, hSplit, rfl, hMore⟩ := List.map_eq_append_iff.mp hCalls
    obtain ⟨endpoint, rest, rfl, rfl, -⟩ := List.map_eq_cons_iff.mp hMore
    have hRoutes : (all registrationEnabled).map (route handlers) =
        endpoints.map (route handlers) ++ endpoint.route handlers :: rest.map (route handlers) := by
      rw [hSplit, List.map_append, List.map_cons]
    have hRun := Router.represents_run (endpoints.map (registration handlers))
    have hAccepted : Router.accepted (endpoints.map (registration handlers)) = endpoints.map (route handlers) := by
      refine Router.acceptedFrom_fresh Router.represents_empty ?_ ?_
      · rw [List.map_map, List.map_map]
        exact List.map_congr_left (fun endpoint _ => registration_route handlers endpoint)
      · intro before' route' after' hBefore
        rw [List.nil_append]
        rw [hBefore, List.append_assoc, List.cons_append] at hRoutes
        exact fresh handlers registrationEnabled hRoutes
    rw [hAccepted] at hRun
    exact Router.apply_fresh hRun (registration_route handlers endpoint)
      (fresh handlers registrationEnabled hRoutes)
  · exact dispatch_eq json registrationEnabled handlers
  · intro endpoint hEndpoint raw values hValues request hVerb hTarget
    obtain ⟨hQuery, parameters, hParameters, hLookup⟩ := parametersOf_substitute endpoint hValues
    have hPath : pathFromTarget request.target = substitute raw endpoint.segments := by
      rcases hTarget with hTarget | ⟨query, hTarget⟩
      · rw [hTarget, pathFromTarget_of_not_mem hQuery]
      · rw [hTarget, pathFromTarget_append hQuery]
    have hSlash : (substitute raw endpoint.segments).head? = some '/' := by
      obtain ⟨segment, hSegment, -⟩ := segments_static endpoint
      cases hSegments : endpoint.segments with
      | nil => rw [hSegments] at hSegment; cases hSegment
      | cons first rest => rfl
    refine ⟨parameters, ?_, hLookup⟩
    unfold routeRequest
    simp only
    rw [hPath, hSlash, bne_self_eq_false, if_neg Bool.false_ne_true, hVerb]
    exact ofMatching_reached hEndpoint hParameters

end Endpoint

end SecureCore

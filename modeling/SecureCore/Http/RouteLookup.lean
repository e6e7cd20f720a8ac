import SecureCore.Http.Dispatch

/-! # Tables without ambiguity

If no two paths of a table match one request, neither the order of the registrations nor the
number of static segments matters: dispatching is looking up. -/

namespace SecureCore

set_option autoImplicit false

open Precedence

/-- The parameters with which a path matches the path of a route. -/
def parametersOf (pattern path : List Char) : Option RouteParameters :=
  if isPatternPath pattern then
    match compilePattern pattern with
    | .ok compiled => matchPattern compiled path
    | .error _ => none
  else if pattern = path then some ∅ else none

theorem parametersOf_exact {path : List Char} (h : isPatternPath path = false) :
    parametersOf path path = some ∅ := by
  rw [parametersOf, h, if_neg Bool.false_ne_true, if_pos rfl]

theorem parametersOf_pattern {path : List Char} {compiled : PatternRoute}
    (h : isPatternPath compiled.pattern = true) (hCompiled : compilePattern compiled.pattern = .ok compiled) :
    parametersOf compiled.pattern path = matchPattern compiled path := by
  rw [parametersOf, h, if_pos rfl, hCompiled]

namespace Router

/-! ## Registrations that are accepted -/

/-- A route that can be added to others. -/
structure Fresh (routes : List Route) (route : Route) : Prop where
  slash : route.path.head? = some '/'
  query : '?' ∉ route.path
  compiles : isPatternPath route.path = true → ∃ compiled, compilePattern route.path = .ok compiled
  method : ∀ other ∈ routes, other.path = route.path → other.method ≠ route.method
  shape : ∀ other ∈ routes, ∀ compiled compiled', compilePattern other.path = .ok compiled →
    compilePattern route.path = .ok compiled' → compiled.shape = compiled'.shape → other.path = route.path

section accepted

variable {router : Router} {routes more : List Route} {route : Route}

theorem Fresh.not_mem {methods : MethodMap} (h : Fresh routes route)
    (hMethods : Holds routes route.path methods) : route.method ∉ methods := by
  intro hMem
  obtain ⟨handler, hRoute⟩ := (hMethods.mem_iff route.method).mp hMem
  exact h.method _ hRoute rfl rfl

theorem addPattern_fresh (hRouter : Represents router routes) (h : Fresh routes route)
    {compiled : PatternRoute} (hCompiled : compilePattern route.path = .ok compiled) :
    (router.addPattern route.method compiled route.handler).1 = .ok () := by
  obtain ⟨-, hPattern, hMethods, -⟩ := compilePattern_ok hCompiled
  have hNone : route.method ∉ compiled.methods := by
    rw [hMethods]
    exact AList.notMem_empty _
  unfold addPattern
  simp only
  cases hRows : router.patternRoutes.dropWhile (fun row => row.shape != compiled.shape) with
  | nil =>
    unfold addMethod MethodMap.emplace
    rw [if_neg hNone]
    rfl
  | cons row after =>
    have hRow : row ∈ router.patternRoutes :=
      (List.dropWhile_suffix _).subset (hRows ▸ List.mem_cons_self)
    have hShape : row.shape = compiled.shape := by
      have hFirst := List.head?_dropWhile_not (fun row : PatternRoute => row.shape != compiled.shape)
        router.patternRoutes
      rw [hRows] at hFirst
      simpa using hFirst
    have hTable := hRouter.rows row hRow
    obtain ⟨other, hOther, hPath⟩ := List.mem_map.mp hTable.registered
    have hOtherCompiled : compilePattern other.path = .ok { row with methods := ∅ } := by
      rw [hPath]
      exact hTable.compiled
    have hSame : row.pattern = route.path := by
      rw [← hPath]
      exact h.shape other hOther { row with methods := ∅ } compiled hOtherCompiled hCompiled hShape
    have hNew : route.method ∉ row.methods := h.not_mem (hSame ▸ hTable.methods)
    simp only
    rw [hSame, hPattern, bne_self_eq_false, if_neg Bool.false_ne_true]
    unfold addMethod MethodMap.emplace
    rw [if_neg hNew]
    rfl

theorem addRoute_fresh (hRouter : Represents router routes) (h : Fresh routes route) :
    (router.addRoute route.method route.path (some route.handler)).1 = .ok () := by
  have hPath : (route.path.head? != some '/' || route.path.contains '?') = false := by
    rw [h.slash, bne_self_eq_false, Bool.false_or]
    simpa using h.query
  unfold addRoute
  rw [hPath, if_neg Bool.false_ne_true]
  simp only
  cases hPattern : isPatternPath route.path with
  | false =>
    have hNew : route.method ∉ (router.exactRoutes.lookup route.path).getD ∅ := by
      cases hFound : router.exactRoutes.lookup route.path with
      | none => exact AList.notMem_empty _
      | some methods => exact h.not_mem (hRouter.exact _ _ hFound).2.2
    unfold MethodMap.emplace
    rw [if_neg hNew]
    rfl
  | true =>
    obtain ⟨compiled, hCompiled⟩ := h.compiles hPattern
    rw [hCompiled]
    exact addPattern_fresh hRouter h hCompiled

theorem apply_fresh (hRouter : Represents router routes) {call : Registration}
    (hRoute : call.route = some route) (h : Fresh routes route) : (call.apply router).1 = .ok () := by
  cases call with
  | full method path handler =>
    cases handler with
    | none => cases hRoute
    | some handler =>
      cases hRoute
      exact addRoute_fresh hRouter h
  | simple method path handler =>
    cases handler with
    | none => cases hRoute
    | some handler =>
      cases hRoute
      exact addRoute_fresh hRouter h

/-- Fresh routes are all accepted. -/
theorem acceptedFrom_fresh (hRouter : Represents router routes) {calls : List Registration}
    (hCalls : calls.map Registration.route = more.map some)
    (hFresh : ∀ before route after, more = before ++ route :: after → Fresh (routes ++ before) route) :
    acceptedFrom router calls = more := by
  induction calls generalizing router routes more with
  | nil =>
    rw [List.map_nil, eq_comm, List.map_eq_nil_iff] at hCalls
    rw [hCalls, acceptedFrom]
  | cons call calls ih =>
    cases more with
    | nil => cases hCalls
    | cons route more =>
      rw [List.map_cons, List.map_cons, List.cons.injEq] at hCalls
      obtain ⟨hRoute, hCalls⟩ := hCalls
      have hFirst := hFresh [] route more rfl
      rw [List.append_nil] at hFirst
      have hOk := apply_fresh hRouter hRoute hFirst
      cases hApplied : call.apply router with
      | mk result after =>
        rw [hApplied] at hOk
        cases hOk
        have hAfter := hRouter.apply hApplied
        rw [hRoute, Option.toList_some] at hAfter
        rw [acceptedFrom, hApplied, hRoute, Option.toList_some]
        have hRest : acceptedFrom after calls = more := by
          refine ih hAfter hCalls (fun before route' after' hMore => ?_)
          rw [List.append_assoc]
          exact hFresh (route :: before) route' after' (by rw [hMore]; rfl)
        simp only [hRest, List.singleton_append]

end accepted

/-! ## Looking up -/

/-- The routes that match a path. -/
def found (routes : List Route) (path : List Char) : List (Route × RouteParameters) :=
  routes.filterMap (fun route => (parametersOf route.path path).map (fun parameters => (route, parameters)))

/-- The answer of a table in which all matches have one path. -/
def lookup (routes : List Route) (path : List Char) (method : Verb) : Answer :=
  match (found routes path).find? (fun match' => match'.1.method == method) with
  | some (route, parameters) => .handled route.handler parameters
  | none =>
    if (found routes path).isEmpty then .notFound
    else .methodNotAllowed
      (((found routes path).map (fun match' => match'.1.method.name)).insertionSort (· ≤ ·))

/-- No request is matched by routes of two paths, and no path has a method twice. -/
structure Unambiguous (routes : List Route) : Prop where
  path : ∀ route ∈ routes, ∀ other ∈ routes, ∀ path, (parametersOf route.path path).isSome = true →
    (parametersOf other.path path).isSome = true → route.path = other.path
  method : routes.Pairwise (fun route other => route.path = other.path → route.method ≠ other.method)

section lookup

variable {routes : List Route} {route : Route} {path : List Char} {parameters : RouteParameters}

theorem mem_found : (route, parameters) ∈ found routes path ↔
    route ∈ routes ∧ parametersOf route.path path = some parameters := by
  unfold found
  rw [List.mem_filterMap]
  constructor
  · rintro ⟨other, hOther, hMatch⟩
    obtain ⟨parameters', hParameters, hSame⟩ := Option.map_eq_some_iff.mp hMatch
    cases hSame
    exact ⟨hOther, hParameters⟩
  · rintro ⟨hRoute, hParameters⟩
    exact ⟨route, hRoute, by rw [hParameters]; rfl⟩

theorem isSome_of_hasExact (h : HasExact routes path) :
    ∃ route ∈ routes, route.path = path ∧ parametersOf route.path path = some ∅ := by
  obtain ⟨hExact, hMem⟩ := h
  obtain ⟨route, hRoute, hPath⟩ := List.mem_map.mp hMem
  refine ⟨route, hRoute, hPath, ?_⟩
  rw [hPath]
  exact parametersOf_exact hExact

theorem isSome_of_matches {compiled : PatternRoute} (h : Matches routes path compiled) :
    ∃ route ∈ routes, route.path = compiled.pattern ∧ (parametersOf route.path path).isSome = true := by
  obtain ⟨hRegistered, hMatch⟩ := h
  obtain ⟨route, hRoute, hPath⟩ := List.mem_map.mp hRegistered.registered
  refine ⟨route, hRoute, hPath, ?_⟩
  rw [hPath, parametersOf_pattern hRegistered.pattern hRegistered.compiled]
  exact hMatch

/-- A route that matches is selected: no other path competes with its own. -/
theorem Unambiguous.selected (h : Unambiguous routes) (hRoute : route ∈ routes)
    (hMatch : parametersOf route.path path = some parameters) :
    Selected routes path route.path parameters := by
  cases hPattern : isPatternPath route.path with
  | false =>
    have hSame : route.path = path ∧ parameters = ∅ := by
      rw [parametersOf, hPattern, if_neg Bool.false_ne_true] at hMatch
      split at hMatch
      · rename_i hPath
        exact ⟨hPath, (Option.some.inj hMatch).symm⟩
      · cases hMatch
    obtain ⟨rfl, rfl⟩ := hSame
    exact .exact ⟨hPattern, List.mem_map_of_mem hRoute⟩
  | true =>
    obtain ⟨compiled, hCompiled, hMatched⟩ : ∃ compiled, compilePattern route.path = .ok compiled ∧
        matchPattern compiled path = some parameters := by
      rw [parametersOf, hPattern, if_pos rfl] at hMatch
      cases hCompiled : compilePattern route.path with
      | error e => rw [hCompiled] at hMatch; cases hMatch
      | ok compiled => rw [hCompiled] at hMatch; exact ⟨compiled, rfl, hMatch⟩
    have hName := (compilePattern_ok hCompiled).2.1
    rw [← hName]
    rw [← hName] at hCompiled hPattern
    have hSome : (parametersOf route.path path).isSome = true := by rw [hMatch]; rfl
    refine .pattern ?_ hMatched ⟨⟨⟨hPattern, ?_, hCompiled⟩, ?_⟩, ?_⟩
    · intro hExact
      obtain ⟨other, hOther, hPath, hParameters⟩ := isSome_of_hasExact hExact
      have hSame := h.path route hRoute other hOther path hSome (by rw [hParameters]; rfl)
      rw [hName, hSame, hPath, hExact.1] at hPattern
      cases hPattern
    · rw [hName]
      exact List.mem_map_of_mem hRoute
    · rw [hMatched]
      rfl
    · intro other hOther
      obtain ⟨route', hRoute', hPath, hSome'⟩ := isSome_of_matches hOther
      have hSame := h.path route hRoute route' hRoute' path hSome hSome'
      have hOtherCompiled := hOther.1.compiled
      rw [← hPath, ← hSame, ← hName, hCompiled] at hOtherCompiled
      exact .inl (Except.ok.inj hOtherCompiled).symm

/-- The methods of the matches are those of the path that matches. -/
theorem Unambiguous.mem_names (h : Unambiguous routes) (hRoute : route ∈ routes)
    (hMatch : parametersOf route.path path = some parameters) (name : String) :
    name ∈ ((found routes path).map (fun match' => match'.1.method.name)).insertionSort (· ≤ ·) ↔
      ∃ other ∈ routes, other.path = route.path ∧ other.method.name = name := by
  rw [List.mem_insertionSort, List.mem_map]
  constructor
  · rintro ⟨⟨other, parameters'⟩, hFound, rfl⟩
    obtain ⟨hOther, hParameters⟩ := mem_found.mp hFound
    refine ⟨other, hOther, ?_, rfl⟩
    exact h.path other hOther route hRoute path (by rw [hParameters]; rfl) (by rw [hMatch]; rfl)
  · rintro ⟨other, hOther, hPath, rfl⟩
    exact ⟨(other, parameters), mem_found.mpr ⟨hOther, by rw [hPath]; exact hMatch⟩, rfl⟩

theorem Unambiguous.names_sorted (h : Unambiguous routes) :
    (((found routes path).map (fun match' => match'.1.method.name)).insertionSort (· ≤ ·)).Pairwise
      (· < ·) := by
  have hSorted : (((found routes path).map
      (fun match' => match'.1.method.name)).insertionSort (· ≤ ·)).Pairwise (· ≤ ·) :=
    List.pairwise_insertionSort _ _
  have hMethods : ((found routes path).map (fun match' => match'.1.method.name)).Nodup := by
    unfold List.Nodup
    rw [List.pairwise_map]
    unfold found
    rw [List.pairwise_filterMap]
    refine h.method.imp_of_mem (fun {route other} hRoute hOther hDiffer => ?_)
    intro match' hMatch match'' hMatch' hName
    obtain ⟨parameters', hParameters, rfl⟩ := Option.map_eq_some_iff.mp hMatch
    obtain ⟨parameters'', hParameters', rfl⟩ := Option.map_eq_some_iff.mp hMatch'
    refine hDiffer ?_ (Verb.name_injective hName)
    exact h.path route hRoute other hOther path (by rw [hParameters]; rfl) (by rw [hParameters']; rfl)
  have hNodup := (List.perm_insertionSort (· ≤ ·) _).nodup_iff.mpr hMethods
  exact hSorted.imp₂ (fun _ _ => lt_of_le_of_ne) hNodup

theorem Unambiguous.answers_lookup (h : Unambiguous routes) (path : List Char) (method : Verb) :
    Answers routes path method (lookup routes path method) := by
  unfold lookup
  cases hFind : (found routes path).find? (fun match' => match'.1.method == method) with
  | some match' =>
    obtain ⟨route, parameters⟩ := match'
    obtain ⟨hRoute, hMatch⟩ := mem_found.mp (List.mem_of_find?_eq_some hFind)
    have hMethod : route.method = method := by simpa using List.find?_some hFind
    refine .handled (h.selected hRoute hMatch) ?_
    rw [← hMethod]
    exact hRoute
  | none =>
    simp only
    cases hFound : found routes path with
    | nil =>
      have hNothing : ∀ route ∈ routes, (parametersOf route.path path).isSome = false := by
        intro route hRoute
        cases hMatch : parametersOf route.path path with
        | none => rfl
        | some parameters =>
          have hMem := mem_found.mpr ⟨hRoute, hMatch⟩
          rw [hFound] at hMem
          cases hMem
      refine .notFound ?_ ?_
      · intro hExact
        obtain ⟨route, hRoute, -, hParameters⟩ := isSome_of_hasExact hExact
        have hNone := hNothing route hRoute
        rw [hParameters] at hNone
        cases hNone
      · intro compiled hMatches
        obtain ⟨route, hRoute, -, hSome⟩ := isSome_of_matches hMatches
        rw [hNothing route hRoute] at hSome
        cases hSome
    | cons first rest =>
      obtain ⟨route, parameters⟩ := first
      have hFirst : (route, parameters) ∈ found routes path := hFound ▸ List.mem_cons_self
      obtain ⟨hRoute, hMatch⟩ := mem_found.mp hFirst
      rw [← hFound, if_neg (by rw [hFound]; exact Bool.false_ne_true)]
      refine .methodNotAllowed (h.selected hRoute hMatch) ?_ h.names_sorted (h.mem_names hRoute hMatch)
      intro handler hOther
      have hMem := mem_found.mpr (⟨hOther, hMatch⟩ : (⟨method, route.path, handler⟩ : Route) ∈ routes ∧
        parametersOf route.path path = some parameters)
      have hNot := List.find?_eq_none.mp hFind _ hMem
      exact hNot (beq_self_eq_true method)

/-- Dispatching in a table without ambiguity is looking up. -/
theorem dispatch_lookup (json : JsonLibrary) {calls : List Registration}
    (hCalls : calls.map Registration.route = routes.map some)
    (hFresh : ∀ before route after, routes = before ++ route :: after → Fresh before route)
    (h : Unambiguous routes) (request : HttpMessage)
    (hPath : (pathFromTarget request.target).head? = some '/') :
    dispatch json (run calls) request =
      (lookup routes (pathFromTarget request.target) request.verb).respond json request := by
  have hRun := represents_run calls
  have hAccepted : accepted calls = routes := by
    refine acceptedFrom_fresh represents_empty hCalls (fun before route after hRoutes => ?_)
    rw [List.nil_append]
    exact hFresh before route after hRoutes
  obtain ⟨answer, hAnswer, hRespond⟩ := dispatch_answers hRun json request hPath
  rw [hAccepted] at hRun hAnswer
  rw [hRespond, hAnswer.unique hRun (h.answers_lookup _ _)]

end lookup

end Router

end SecureCore

import SecureCore.Http.RouteTable
import SecureCore.Http.Sample
import Mathlib.Data.String.Basic

/-! # Dispatch

Which answer the history of a router gives to a path and a method. -/

namespace SecureCore

set_option autoImplicit false

open Precedence

namespace Router

/-! ## The selected route -/

structure Registered (routes : List Route) (compiled : PatternRoute) : Prop where
  pattern : isPatternPath compiled.pattern = true
  registered : compiled.pattern ∈ routes.map Route.path
  compiled : compilePattern compiled.pattern = .ok compiled

def Matches (routes : List Route) (path : List Char) (compiled : PatternRoute) : Prop :=
  Registered routes compiled ∧ (matchPattern compiled path).isSome = true

def HasExact (routes : List Route) (path : List Char) : Prop :=
  isPatternPath path = false ∧ path ∈ routes.map Route.path

/-- The exact route of the path, or else the matching pattern with the most static
segments, the one registered first among equals. -/
inductive Selected (routes : List Route) (path : List Char) : List Char → RouteParameters → Prop
  | exact (hExact : HasExact routes path) : Selected routes path path ∅
  | pattern {compiled : PatternRoute} {parameters : RouteParameters}
      (hNoExact : ¬HasExact routes path) (hMatch : matchPattern compiled path = some parameters)
      (hFirst : IsFirst PatternRoute.staticSegmentCount (fun compiled => since routes compiled.pattern)
        (Matches routes path) compiled) :
      Selected routes path compiled.pattern parameters

inductive Answer where
  | handled (handler : Handler) (parameters : RouteParameters)
  | methodNotAllowed (allow : List String)
  | notFound

def Answer.respond (json : JsonLibrary) (request : HttpMessage) : Answer → Except Thrown HttpResponse
  | handled handler parameters => do
    let response ← handler request parameters
    finalizeResponse response request
  | methodNotAllowed allow => do
    let response ← makeErrorResponse json request 405 "method_not_allowed"
    .ok (response.set "Allow" (", ".toList.intercalate (allow.map String.toList)))
  | notFound => makeErrorResponse json request 404 "not_found"

/-- What the registrations call for. -/
inductive Answers (routes : List Route) (path : List Char) (method : Verb) : Answer → Prop
  | handled {selected : List Char} {parameters : RouteParameters} {handler : Handler}
      (hSelected : Selected routes path selected parameters)
      (hRoute : ⟨method, selected, handler⟩ ∈ routes) :
      Answers routes path method (.handled handler parameters)
  | methodNotAllowed {selected : List Char} {parameters : RouteParameters} {allow : List String}
      (hSelected : Selected routes path selected parameters)
      (hNone : ∀ handler, (⟨method, selected, handler⟩ : Route) ∉ routes)
      (hSorted : allow.Pairwise (· < ·))
      (hAllow : ∀ name, name ∈ allow ↔
        ∃ route ∈ routes, route.path = selected ∧ route.method.name = name) :
      Answers routes path method (.methodNotAllowed allow)
  | notFound (hNoExact : ¬HasExact routes path) (hNoMatch : ∀ compiled, ¬Matches routes path compiled) :
      Answers routes path method .notFound

section answers

variable {router : Router} {routes : List Route} {path selected selected' : List Char}
  {parameters parameters' : RouteParameters} {method : Verb} {methods : MethodMap}

theorem Selected.unique (h : Selected routes path selected parameters)
    (h' : Selected routes path selected' parameters') :
    selected = selected' ∧ parameters = parameters' := by
  cases h with
  | exact hExact =>
    cases h' with
    | exact _ => exact ⟨rfl, rfl⟩
    | pattern hNoExact _ _ => exact absurd hExact hNoExact
  | pattern hNoExact hMatch hFirst =>
    cases h' with
    | exact hExact => exact absurd hExact hNoExact
    | pattern _ hMatch' hFirst' =>
      cases hFirst.unique hFirst'
      rw [hMatch] at hMatch'
      exact ⟨rfl, Option.some.inj hMatch'⟩

theorem Selected.mem (h : Selected routes path selected parameters) :
    selected ∈ routes.map Route.path := by
  cases h with
  | exact hExact => exact hExact.2
  | pattern _ _ hFirst => exact hFirst.1.1.registered

theorem Selected.not_notFound (h : Selected routes path selected parameters)
    (hNoExact : ¬HasExact routes path) (hNoMatch : ∀ compiled, ¬Matches routes path compiled) :
    False := by
  cases h with
  | exact hExact => exact hNoExact hExact
  | pattern _ _ hFirst => exact hNoMatch _ hFirst.1

theorem Represents.holds (h : Represents router routes) (hMem : selected ∈ routes.map Route.path) :
    ∃ methods, Holds routes selected methods := by
  obtain ⟨route, hRoute, rfl⟩ := List.mem_map.mp hMem
  cases hPattern : isPatternPath route.path with
  | false =>
    have hFound := AList.lookup_isSome.mpr (h.exactRegistered route hRoute hPattern)
    obtain ⟨methods, hMethods⟩ := Option.isSome_iff_exists.mp hFound
    exact ⟨methods, (h.exact _ _ hMethods).2.2⟩
  | true =>
    obtain ⟨row, hRow, hPath⟩ := h.rowRegistered route hRoute hPattern
    exact ⟨row.methods, hPath ▸ (h.rows row hRow).methods⟩

/-- Strictly sorted lists with the same members. -/
theorem eq_of_sorted {first second : List String} (hFirst : first.Pairwise (· < ·))
    (hSecond : second.Pairwise (· < ·)) (hSame : ∀ name, name ∈ first ↔ name ∈ second) :
    first = second := by
  have hPerm : first.Perm second :=
    (List.perm_ext_iff_of_nodup (hFirst.imp ne_of_lt) (hSecond.imp ne_of_lt)).mpr hSame
  exact hPerm.eq_of_pairwise (fun a b _ _ hLess hMore => absurd hMore hLess.asymm) hFirst hSecond

theorem Answers.unique (h : Represents router routes) {answer answer' : Answer}
    (hAnswer : Answers routes path method answer) (hAnswer' : Answers routes path method answer') :
    answer = answer' := by
  cases hAnswer with
  | handled hSelected hRoute =>
    cases hAnswer' with
    | handled hSelected' hRoute' =>
      obtain ⟨rfl, rfl⟩ := hSelected.unique hSelected'
      obtain ⟨methods, hMethods⟩ := h.holds hSelected.mem
      have hFound := (hMethods _ _).mpr hRoute
      rw [(hMethods _ _).mpr hRoute'] at hFound
      rw [Option.some.inj hFound]
    | methodNotAllowed hSelected' hNone _ _ =>
      obtain ⟨rfl, rfl⟩ := hSelected.unique hSelected'
      exact absurd hRoute (hNone _)
    | notFound hNoExact hNoMatch => exact (hSelected.not_notFound hNoExact hNoMatch).elim
  | methodNotAllowed hSelected hNone hSorted hAllow =>
    cases hAnswer' with
    | handled hSelected' hRoute =>
      obtain ⟨rfl, rfl⟩ := hSelected.unique hSelected'
      exact absurd hRoute (hNone _)
    | methodNotAllowed hSelected' _ hSorted' hAllow' =>
      obtain ⟨rfl, rfl⟩ := hSelected.unique hSelected'
      rw [eq_of_sorted hSorted hSorted' (fun name => (hAllow name).trans (hAllow' name).symm)]
    | notFound hNoExact hNoMatch => exact (hSelected.not_notFound hNoExact hNoMatch).elim
  | notFound hNoExact hNoMatch =>
    cases hAnswer' with
    | handled hSelected _ => exact (hSelected.not_notFound hNoExact hNoMatch).elim
    | methodNotAllowed hSelected _ _ _ => exact (hSelected.not_notFound hNoExact hNoMatch).elim
    | notFound _ _ => rfl

/-! ## The answer of the table -/

/-- The names that make_allow_header writes. -/
def allowedNames (methods : MethodMap) : List String :=
  (methods.keys.map Verb.name).insertionSort (fun a b => a ≤ b)

theorem allowedNames_sorted (methods : MethodMap) : (allowedNames methods).Pairwise (· < ·) := by
  have hSorted : (allowedNames methods).Pairwise (· ≤ ·) := List.pairwise_insertionSort _ _
  have hNodup : (allowedNames methods).Nodup :=
    (List.perm_insertionSort _ _).nodup_iff.mpr (methods.keys_nodup.map Verb.name_injective)
  exact hSorted.imp₂ (fun _ _ => lt_of_le_of_ne) hNodup

theorem mem_allowedNames (hMethods : Holds routes selected methods) (name : String) :
    name ∈ allowedNames methods ↔
      ∃ route ∈ routes, route.path = selected ∧ route.method.name = name := by
  unfold allowedNames
  rw [List.mem_insertionSort, List.mem_map]
  constructor
  · rintro ⟨method, hMethod, rfl⟩
    obtain ⟨handler, hRoute⟩ := (hMethods.mem_iff method).mp (AList.mem_keys.mpr hMethod)
    exact ⟨_, hRoute, rfl, rfl⟩
  · rintro ⟨⟨method, path, handler⟩, hRoute, rfl, rfl⟩
    exact ⟨method, AList.mem_keys.mp ((hMethods.mem_iff method).mpr ⟨handler, hRoute⟩), rfl⟩

theorem answerWith_answers (json : JsonLibrary) (request : HttpMessage)
    (hSelected : Selected routes path selected parameters)
    (hMethods : Holds routes selected methods) :
    ∃ answer, Answers routes path request.verb answer ∧
      answerWith json methods parameters request = answer.respond json request := by
  unfold answerWith
  cases hFound : methods.lookup request.verb with
  | some handler =>
    exact ⟨_, .handled hSelected ((hMethods _ _).mp hFound), rfl⟩
  | none =>
    refine ⟨_, .methodNotAllowed hSelected ?_ (allowedNames_sorted methods)
      (mem_allowedNames hMethods), rfl⟩
    intro handler hRoute
    rw [(hMethods _ _).mpr hRoute] at hFound
    cases hFound

/-- The loop stops at the first row that matches. -/
theorem dispatchPatterns_cases (json : JsonLibrary) (path : List Char) (request : HttpMessage)
    (rows : List PatternRoute) :
    ((∀ row ∈ rows, matchPattern row path = none) ∧
      dispatchPatterns json path request rows = makeErrorResponse json request 404 "not_found") ∨
    ∃ before row after parameters, rows = before ++ row :: after ∧
      (∀ earlier ∈ before, matchPattern earlier path = none) ∧
      matchPattern row path = some parameters ∧
      dispatchPatterns json path request rows = answerWith json row.methods parameters request := by
  induction rows with
  | nil => exact .inl ⟨nofun, rfl⟩
  | cons row rows ih =>
    rw [dispatchPatterns]
    cases hRow : matchPattern row path with
    | some parameters =>
      exact .inr ⟨[], row, rows, parameters, rfl, nofun, hRow, rfl⟩
    | none =>
      rcases ih with ⟨hNone, hAnswer⟩ | ⟨before, found, after, parameters, rfl, hBefore, hFound, hAnswer⟩
      · exact .inl ⟨List.forall_mem_cons.mpr ⟨hRow, hNone⟩, hAnswer⟩
      · exact .inr ⟨row :: before, found, after, parameters, rfl,
          List.forall_mem_cons.mpr ⟨hRow, hBefore⟩, hFound, hAnswer⟩

theorem Row.toRegistered {row : PatternRoute} (h : Row routes row) :
    Registered routes { row with methods := ∅ } := ⟨h.pattern, h.registered, h.compiled⟩

theorem Represents.row_of_registered (h : Represents router routes) {compiled : PatternRoute}
    (hCompiled : Registered routes compiled) :
    ∃ row ∈ router.patternRoutes, { row with methods := ∅ } = compiled := by
  obtain ⟨route, hRoute, hPath⟩ := List.mem_map.mp hCompiled.registered
  obtain ⟨row, hRow, hPattern⟩ := h.rowRegistered route hRoute (hPath ▸ hCompiled.pattern)
  have hSame := hCompiled.compiled
  rw [← hPath, ← hPattern, (h.rows row hRow).compiled] at hSame
  exact ⟨row, hRow, Except.ok.inj hSame⟩

theorem dispatchPatterns_answers (h : Represents router routes) (json : JsonLibrary)
    (request : HttpMessage) (hNoExact : ¬HasExact routes path) :
    ∃ answer, Answers routes path request.verb answer ∧
      dispatchPatterns json path request router.patternRoutes = answer.respond json request := by
  rcases dispatchPatterns_cases json path request router.patternRoutes with
    ⟨hNone, hAnswer⟩ | ⟨before, row, after, parameters, hRows, hBefore, hMatch, hAnswer⟩
  · refine ⟨.notFound, .notFound hNoExact ?_, hAnswer⟩
    rintro compiled ⟨hCompiled, hMatches⟩
    obtain ⟨row, hRow, rfl⟩ := h.row_of_registered hCompiled
    have hNoMatch : matchPattern { row with methods := ∅ } path = none := hNone row hRow
    rw [hNoMatch] at hMatches
    cases hMatches
  · have hRow : row ∈ router.patternRoutes := by
      rw [hRows]
      exact List.mem_append_right _ List.mem_cons_self
    have hOrdered := h.ordered
    rw [hRows] at hOrdered
    have hFirst := isFirst_append (p := fun row => (matchPattern row path).isSome = true) hOrdered
      (fun earlier hEarlier => by
        rw [hBefore earlier hEarlier]
        exact Bool.false_ne_true) (by rw [hMatch]; rfl)
    have hSelects : IsFirst PatternRoute.staticSegmentCount
        (fun compiled => since routes compiled.pattern) (Matches routes path)
        { row with methods := ∅ } := by
      constructor
      · exact ⟨(h.rows row hRow).toRegistered, hFirst.1.2⟩
      · rintro compiled ⟨hCompiled, hMatches⟩
        obtain ⟨other, hOther, rfl⟩ := h.row_of_registered hCompiled
        rw [hRows] at hOther
        rcases hFirst.2 other ⟨hOther, hMatches⟩ with rfl | hPrecedes
        · exact .inl rfl
        · exact .inr hPrecedes
    have hSelected : Selected routes path row.pattern parameters :=
      @Selected.pattern routes path { row with methods := ∅ } parameters hNoExact hMatch hSelects
    obtain ⟨answer, hAnswers, hRespond⟩ :=
      answerWith_answers json request hSelected (h.rows row hRow).methods
    exact ⟨answer, hAnswers, hAnswer.trans hRespond⟩

theorem dispatch_answers (h : Represents router routes) (json : JsonLibrary) (request : HttpMessage)
    (hPath : (pathFromTarget request.target).head? = some '/') :
    ∃ answer, Answers routes (pathFromTarget request.target) request.verb answer ∧
      dispatch json router request = answer.respond json request := by
  unfold dispatch
  simp only
  rw [hPath, if_neg (by decide)]
  cases hFound : router.exactRoutes.lookup (pathFromTarget request.target) with
  | some methods =>
    obtain ⟨hExact, hMem, hMethods⟩ := h.exact _ _ hFound
    exact answerWith_answers json request (.exact ⟨hExact, hMem⟩) hMethods
  | none =>
    apply dispatchPatterns_answers h json request
    rintro ⟨hExact, hMem⟩
    obtain ⟨route, hRoute, hSame⟩ := List.mem_map.mp hMem
    rw [← hSame] at hFound hExact
    exact AList.lookup_eq_none.mp hFound (h.exactRegistered route hRoute hExact)

end answers

/-! ## Runs -/

/-- The same but for the names of the parameters. -/
def SameShape (first second : List RouteSegment) : Prop :=
  List.Forall₂ (fun a b => a.parameter = b.parameter ∧ (a.parameter = false → a.value = b.value))
    first second

theorem SameShape.shape {first second : List RouteSegment} (h : SameShape first second) :
    first.flatMap RouteSegment.shape = second.flatMap RouteSegment.shape := by
  induction h with
  | nil => rfl
  | @cons a b _ _ hSegment _ ih =>
    have hShape : a.shape = b.shape := by
      unfold RouteSegment.shape
      rw [← hSegment.1]
      split
      · rfl
      · rename_i hStatic
        rw [hSegment.2 (by simpa using hStatic)]
    rw [List.flatMap_cons, List.flatMap_cons, hShape, ih]

theorem Represents.shape_injective {router : Router} {routes : List Route}
    (h : Represents router routes) {first second : PatternRoute} (hFirst : Registered routes first)
    (hSecond : Registered routes second) (hShape : SameShape first.segments second.segments) :
    first = second := by
  obtain ⟨row, hRow, hRowFirst⟩ := h.row_of_registered hFirst
  obtain ⟨row', hRow', hRowSecond⟩ := h.row_of_registered hSecond
  have hShapes : first.shape = second.shape := by
    rw [(compilePattern_ok hFirst.compiled).2.2.2.2, (compilePattern_ok hSecond.compiled).2.2.2.2,
      hShape.shape]
  rw [← hRowFirst, ← hRowSecond] at hShapes
  have hPattern : first.pattern = second.pattern := by
    rw [← hRowFirst, ← hRowSecond]
    exact h.shapes row hRow row' hRow' hShapes
  have hCompiled := hFirst.compiled
  rw [hPattern, hSecond.compiled] at hCompiled
  exact (Except.ok.inj hCompiled).symm

theorem dispatch_congr {router router' : Router} (json : JsonLibrary)
    (hExact : ∀ path, router'.exactRoutes.lookup path = router.exactRoutes.lookup path)
    (hPatterns : router'.patternRoutes = router.patternRoutes) (request : HttpMessage) :
    dispatch json router' request = dispatch json router request := by
  unfold dispatch
  simp only [hExact, hPatterns]

theorem run_concat (calls : List Registration) (call : Registration) :
    run (calls ++ [call]) = (call.apply (run calls)).2 := by
  unfold run
  rw [List.foldl_append]
  rfl

theorem dispatch_refused (json : JsonLibrary) {calls : List Registration} {call : Registration}
    {error : Exception} (hCall : (call.apply (run calls)).1 = .error error) (request : HttpMessage) :
    dispatch json (run (calls ++ [call])) request = dispatch json (run calls) request := by
  rw [run_concat]
  have hEffect := apply_effect (run calls) call
  generalize call.apply (run calls) = result at hCall hEffect
  cases hEffect with
  | refused hExact hPatterns => exact dispatch_congr json hExact hPatterns request
  | exact _ _ _ => cases hCall
  | newPattern _ _ _ _ => cases hCall
  | oldPattern _ _ _ _ _ => cases hCall

/-- Handlers that build their responses, or throw, make the router one of the session's. -/
theorem dispatch_dispatched (json : JsonLibrary) (calls : List Registration) (request : HttpMessage)
    (hBuilds : ∀ route ∈ accepted calls, ∀ parameters,
      (∃ response : RouteResponse, route.handler request parameters = response.build json request) ∨
        ∃ exception, route.handler request parameters = .error exception) :
    ∃ dispatched, dispatch json (run calls) request = SecureCore.dispatch json request dispatched := by
  by_cases hPath : (pathFromTarget request.target).head? = some '/'
  · obtain ⟨answer, hAnswer, hRespond⟩ := dispatch_answers (represents_run calls) json request hPath
    rw [hRespond]
    cases hAnswer with
    | @handled _ parameters handler hSelected hRoute =>
      rcases hBuilds _ hRoute parameters with ⟨response, hBuilt⟩ | ⟨exception, hThrown⟩
      · refine ⟨.handled response, ?_⟩
        simp only at hBuilt
        rw [Answer.respond, hBuilt]
        rfl
      · refine ⟨.thrown exception, ?_⟩
        simp only at hThrown
        rw [Answer.respond, hThrown]
        rfl
    | @methodNotAllowed _ _ allow _ _ _ _ =>
      exact ⟨.methodNotAllowed (", ".toList.intercalate (allow.map String.toList)), rfl⟩
    | notFound _ _ => exact ⟨.notFound, rfl⟩
  · refine ⟨.badRequest, ?_⟩
    unfold dispatch
    simp only
    rw [if_pos (bne_iff_ne.mpr hPath)]
    rfl

/-- The calls that returned decide every answer, and they alone. -/
theorem dispatch_run (json : JsonLibrary) (calls : List Registration) (request : HttpMessage)
    (hPath : (pathFromTarget request.target).head? = some '/') :
    (∃ answer, (∀ other, Answers (accepted calls) (pathFromTarget request.target) request.verb other ↔
        other = answer) ∧
      dispatch json (run calls) request = answer.respond json request) ∧
    (∀ call error, (call.apply (run calls)).1 = .error error → ∀ request,
      dispatch json (run (calls ++ [call])) request = dispatch json (run calls) request) ∧
    ∀ first second, Registered (accepted calls) first → Registered (accepted calls) second →
      SameShape first.segments second.segments → first = second := by
  have hRun := represents_run calls
  obtain ⟨answer, hAnswer, hRespond⟩ := dispatch_answers hRun json request hPath
  refine ⟨⟨answer, ?_, hRespond⟩, ?_, ?_⟩
  · intro other
    constructor
    · intro hOther
      exact hOther.unique hRun hAnswer
    · rintro rfl
      exact hAnswer
  · intro call error hCall
    exact dispatch_refused json hCall
  · intro first second hFirst hSecond
    exact hRun.shape_injective hFirst hSecond

theorem dispatch_run_sample :
    (pathFromTarget "/users/42?verbose".toList).head? = some '/' ∧
    ∃ answer : Answer, dispatch Sample.compactJson
      (run [.full .get "/users/{id}".toList (some fun _ _ => .ok HttpResponse.initial)])
      ⟨11, "GET", "/users/42?verbose".toList, [], ""⟩ =
        answer.respond Sample.compactJson ⟨11, "GET", "/users/42?verbose".toList, [], ""⟩ := by
  have hPath : (pathFromTarget "/users/42?verbose".toList).head? = some '/' := by decide +kernel
  obtain ⟨⟨answer, -, hAnswer⟩, -⟩ := dispatch_run Sample.compactJson
    [.full .get "/users/{id}".toList (some fun _ _ => .ok HttpResponse.initial)]
    ⟨11, "GET", "/users/42?verbose".toList, [], ""⟩ hPath
  exact ⟨hPath, answer, hAnswer⟩

end Router

end SecureCore

import SecureCore.Http.Router
import SecureCore.Net.AcceptedHeaders

/-! # The table of routes

What the calls of add_route make of a router, call by call. The calls that return are the
history of the table: it decides which route a path selects. -/

namespace SecureCore

set_option autoImplicit false

open Precedence TrustedProxy

namespace Verb

theorem ofName_name (verb : Verb) : ofName verb.name = verb := by
  cases verb <;> decide +kernel

theorem name_injective : Function.Injective name :=
  Function.LeftInverse.injective ofName_name

end Verb

/-! ## Compiled patterns -/

theorem compilePattern_ok {pattern : List Char} {compiled : PatternRoute}
    (h : compilePattern pattern = .ok compiled) :
    compileSegments pattern [] (splitPath pattern) = .ok compiled.segments ∧
      compiled.pattern = pattern ∧ compiled.methods = ∅ ∧
      compiled.staticSegmentCount = compiled.segments.countP (fun segment => !segment.parameter) ∧
      compiled.shape = (let shape := compiled.segments.flatMap RouteSegment.shape
        if shape.isEmpty then ['/'] else shape) := by
  unfold compilePattern at h
  obtain ⟨segments, hSegments, h⟩ := bind_eq_ok.mp h
  cases h
  exact ⟨hSegments, rfl, rfl, rfl, rfl⟩

namespace Router

/-! ## Histories -/

/-- A call of add_route that returned. -/
structure Route where
  method : Verb
  path : List Char
  handler : Handler

/-- A call of one of the two overloads of add_route. -/
inductive Registration where
  | full (method : Verb) (path : List Char) (handler : Option Handler)
  | simple (method : Verb) (path : List Char) (handler : Option SimpleHandler)

namespace Registration

def apply (router : Router) : Registration → Except Exception Unit × Router
  | full method path handler => router.addRoute method path handler
  | simple method path handler => router.addSimpleRoute method path handler

/-- What the call is to register. -/
def route : Registration → Option Route
  | full method path handler => handler.map (fun handler => ⟨method, path, handler⟩)
  | simple method path handler =>
    handler.map (fun handler => ⟨method, path, fun request _ => handler request⟩)

end Registration

def run (calls : List Registration) : Router :=
  calls.foldl (fun router call => (call.apply router).2) empty

/-- The routes of the calls that return. -/
def acceptedFrom (router : Router) : List Registration → List Route
  | [] => []
  | call :: calls =>
    (match (call.apply router).1 with
      | .ok _ => call.route.toList
      | .error _ => []) ++ acceptedFrom (call.apply router).2 calls

def accepted (calls : List Registration) : List Route := acceptedFrom empty calls

/-- The methods of one path. -/
def Holds (routes : List Route) (path : List Char) (methods : MethodMap) : Prop :=
  ∀ method handler, methods.lookup method = some handler ↔ ⟨method, path, handler⟩ ∈ routes

/-- The first registration of a path. -/
def since (routes : List Route) (path : List Char) : Nat :=
  routes.findIdx (fun route => route.path == path)

section histories

variable {routes : List Route} {route : Route} {path : List Char} {methods : MethodMap}

theorem since_lt (h : path ∈ routes.map Route.path) : since routes path < routes.length := by
  obtain ⟨route, hRoute, hPath⟩ := List.mem_map.mp h
  exact List.findIdx_lt_length_of_exists ⟨route, hRoute, beq_iff_eq.mpr hPath⟩

theorem since_concat (h : path ∈ routes.map Route.path) (route : Route) :
    since (routes ++ [route]) path = since routes path := by
  have hFound := since_lt h
  unfold since at hFound ⊢
  rw [List.findIdx_append, if_pos hFound]

theorem since_new (h : route.path ∉ routes.map Route.path) :
    since (routes ++ [route]) route.path = routes.length := by
  have hNone : ¬since routes route.path < routes.length := by
    intro hLess
    have hFound := List.findIdx_getElem (w := hLess)
    exact h (List.mem_map.mpr ⟨_, List.getElem_mem hLess, beq_iff_eq.mp hFound⟩)
  unfold since at hNone ⊢
  rw [List.findIdx_append, if_neg hNone]
  simp

theorem Holds.mem_iff (h : Holds routes path methods) (method : Verb) :
    method ∈ methods ↔ ∃ handler, (⟨method, path, handler⟩ : Route) ∈ routes := by
  rw [← AList.lookup_isSome, Option.isSome_iff_exists]
  exact exists_congr (h method)

theorem holds_empty (h : path ∉ routes.map Route.path) : Holds routes path ∅ := by
  intro method handler
  rw [AList.lookup_empty]
  constructor
  · exact nofun
  · intro hRoute
    exact absurd (List.mem_map.mpr ⟨_, hRoute, rfl⟩) h

theorem Holds.insert (h : Holds routes route.path methods) (hNew : route.method ∉ methods) :
    Holds (routes ++ [route]) route.path (methods.insert route.method route.handler) := by
  intro method handler
  rw [List.mem_append, List.mem_singleton, ← h method handler]
  by_cases hMethod : method = route.method
  · subst hMethod
    rw [AList.lookup_insert, AList.lookup_eq_none.mpr hNew]
    constructor
    · intro hHandler
      cases hHandler
      exact .inr rfl
    · rintro (hOld | hRoute)
      · cases hOld
      · rw [← hRoute]
  · rw [AList.lookup_insert_ne hMethod]
    constructor
    · exact .inl
    · rintro (hOld | hRoute)
      · exact hOld
      · exact absurd (congrArg Route.method hRoute) hMethod

theorem Holds.other (h : Holds routes path methods) (hPath : path ≠ route.path) :
    Holds (routes ++ [route]) path methods := by
  intro method handler
  rw [List.mem_append, List.mem_singleton, h method handler]
  constructor
  · exact .inl
  · rintro (hOld | hRoute)
    · exact hOld
    · exact absurd (congrArg Route.path hRoute) hPath

end histories

/-! ## One call -/

/-- What a call does to the table. -/
inductive Effect (router : Router) (call : Registration) : Except Exception Unit × Router → Prop
  | refused {error : Exception} {after : Router}
      (hExact : ∀ path, after.exactRoutes.lookup path = router.exactRoutes.lookup path)
      (hPatterns : after.patternRoutes = router.patternRoutes) :
      Effect router call (.error error, after)
  | exact {route : Route} (hRoute : call.route = some route)
      (hExact : isPatternPath route.path = false)
      (hNew : route.method ∉ (router.exactRoutes.lookup route.path).getD ∅) :
      Effect router call (.ok (), { router with
        exactRoutes := router.exactRoutes.insert route.path
          (((router.exactRoutes.lookup route.path).getD ∅).insert route.method route.handler) })
  | newPattern {route : Route} {compiled : PatternRoute} (hRoute : call.route = some route)
      (hPattern : isPatternPath route.path = true)
      (hCompiled : compilePattern route.path = .ok compiled)
      (hShape : ∀ row ∈ router.patternRoutes, row.shape ≠ compiled.shape) :
      Effect router call (.ok (), { router with
        patternRoutes := sortPatterns (router.patternRoutes ++
          [{ compiled with methods := compiled.methods.insert route.method route.handler }]) })
  | oldPattern {route : Route} {row : PatternRoute} {before after : List PatternRoute}
      (hRoute : call.route = some route) (hPattern : isPatternPath route.path = true)
      (hRows : router.patternRoutes = before ++ row :: after) (hSame : row.pattern = route.path)
      (hNew : route.method ∉ row.methods) :
      Effect router call (.ok (), { router with
        patternRoutes := sortPatterns (before ++
          { row with methods := row.methods.insert route.method route.handler } :: after) })

section effect

variable {router : Router} {call : Registration} {route : Route}

theorem addMethod_old {before after : List PatternRoute} {row : PatternRoute}
    (hRoute : call.route = some route) (hPattern : isPatternPath route.path = true)
    (hRows : router.patternRoutes = before ++ row :: after) (hSame : row.pattern = route.path) :
    Effect router call (router.addMethod before row after route.method route.handler) := by
  unfold addMethod MethodMap.emplace
  by_cases hMethod : route.method ∈ row.methods
  · rw [if_pos hMethod]
    exact .refused (fun _ => rfl) hRows.symm
  · rw [if_neg hMethod]
    exact .oldPattern hRoute hPattern hRows hSame hMethod

theorem addMethod_new {compiled : PatternRoute} (hRoute : call.route = some route)
    (hPattern : isPatternPath route.path = true)
    (hCompiled : compilePattern route.path = .ok compiled)
    (hShape : ∀ row ∈ router.patternRoutes, row.shape ≠ compiled.shape) :
    Effect router call
      (router.addMethod router.patternRoutes compiled [] route.method route.handler) := by
  have hMethod : route.method ∉ compiled.methods := by
    rw [(compilePattern_ok hCompiled).2.2.1]
    exact AList.notMem_empty _
  unfold addMethod MethodMap.emplace
  rw [if_neg hMethod]
  exact .newPattern hRoute hPattern hCompiled hShape

theorem addPattern_effect {compiled : PatternRoute} (hRoute : call.route = some route)
    (hPattern : isPatternPath route.path = true)
    (hCompiled : compilePattern route.path = .ok compiled) :
    Effect router call (router.addPattern route.method compiled route.handler) := by
  have hSplit := List.takeWhile_append_dropWhile
    (p := fun row => row.shape != compiled.shape) (l := router.patternRoutes)
  unfold addPattern
  simp only
  cases hRows : router.patternRoutes.dropWhile (fun row => row.shape != compiled.shape) with
  | nil =>
    apply addMethod_new hRoute hPattern hCompiled
    intro row hRow
    exact bne_iff_ne.mp (List.dropWhile_eq_nil_iff.mp hRows row hRow)
  | cons row after =>
    simp only
    split
    · exact .refused (fun _ => rfl) rfl
    · rename_i hSame
      rw [hRows] at hSplit
      apply addMethod_old hRoute hPattern hSplit.symm
      rw [bne_iff_ne, not_not] at hSame
      exact hSame.trans (compilePattern_ok hCompiled).2.1

theorem addRoute_effect (hRoute : call.route = some route) :
    Effect router call (router.addRoute route.method route.path (some route.handler)) := by
  unfold addRoute
  split
  · exact .refused (fun _ => rfl) rfl
  · simp only
    by_cases hPattern : isPatternPath route.path = true
    · rw [hPattern]
      cases hCompiled : compilePattern route.path with
      | error error => exact .refused (fun _ => rfl) rfl
      | ok compiled => exact addPattern_effect hRoute hPattern hCompiled
    · rw [Bool.not_eq_true] at hPattern
      rw [hPattern]
      unfold MethodMap.emplace
      by_cases hMethod : route.method ∈ (router.exactRoutes.lookup route.path).getD ∅
      · rw [if_pos hMethod]
        -- operator[] made no new entry: the map that it found has a method
        cases hFound : router.exactRoutes.lookup route.path with
        | none =>
          rw [hFound] at hMethod
          exact absurd hMethod (AList.notMem_empty _)
        | some methods =>
          refine .refused ?_ rfl
          intro path
          by_cases hPath : path = route.path
          · rw [hPath, hFound]
            exact AList.lookup_insert _
          · exact AList.lookup_insert_ne hPath
      · rw [if_neg hMethod]
        exact .exact hRoute hPattern hMethod

theorem addRoute_none (router : Router) (call : Registration) (method : Verb) (path : List Char) :
    Effect router call (router.addRoute method path none) := by
  unfold addRoute
  split
  · exact .refused (fun _ => rfl) rfl
  · exact .refused (fun _ => rfl) rfl

theorem apply_effect (router : Router) (call : Registration) :
    Effect router call (call.apply router) := by
  cases call with
  | full method path handler =>
    cases handler with
    | none => exact addRoute_none router _ method path
    | some handler =>
      have hRoute : (Registration.full method path (some handler)).route =
          some ⟨method, path, handler⟩ := rfl
      exact addRoute_effect hRoute
  | simple method path handler =>
    cases handler with
    | none => exact .refused (fun _ => rfl) rfl
    | some handler =>
      have hRoute : (Registration.simple method path (some handler)).route =
          some ⟨method, path, fun request _ => handler request⟩ := rfl
      exact addRoute_effect hRoute

end effect

/-! ## The table of a history -/

/-- A row of the table is what its pattern compiles to, with the methods registered for it. -/
structure Row (routes : List Route) (row : PatternRoute) : Prop where
  pattern : isPatternPath row.pattern = true
  compiled : compilePattern row.pattern = .ok { row with methods := ∅ }
  registered : row.pattern ∈ routes.map Route.path
  methods : Holds routes row.pattern row.methods

structure Represents (router : Router) (routes : List Route) : Prop where
  exact : ∀ path methods, router.exactRoutes.lookup path = some methods →
    isPatternPath path = false ∧ path ∈ routes.map Route.path ∧ Holds routes path methods
  exactRegistered : ∀ route ∈ routes, isPatternPath route.path = false →
    route.path ∈ router.exactRoutes
  rows : ∀ row ∈ router.patternRoutes, Row routes row
  rowRegistered : ∀ route ∈ routes, isPatternPath route.path = true →
    ∃ row ∈ router.patternRoutes, row.pattern = route.path
  ordered : router.patternRoutes.Pairwise
    (Precedes PatternRoute.staticSegmentCount (fun row => since routes row.pattern))
  shapes : ∀ first ∈ router.patternRoutes, ∀ second ∈ router.patternRoutes,
    first.shape = second.shape → first.pattern = second.pattern

theorem represents_empty : Represents empty [] where
  exact path methods h := by
    rw [show empty.exactRoutes = ∅ from rfl, AList.lookup_empty] at h
    cases h
  exactRegistered := nofun
  rows := nofun
  rowRegistered := nofun
  ordered := List.Pairwise.nil
  shapes := nofun

section step

variable {router : Router} {routes : List Route} {route : Route}

theorem Row.concat {row : PatternRoute} (h : Row routes row) (hOther : row.pattern ≠ route.path) :
    Row (routes ++ [route]) row where
  pattern := h.pattern
  compiled := h.compiled
  registered := by
    rw [List.map_append]
    exact List.mem_append_left _ h.registered
  methods := h.methods.other hOther

theorem mem_map_concat (routes : List Route) (route : Route) :
    route.path ∈ (routes ++ [route]).map Route.path := by
  rw [List.map_append]
  exact List.mem_append_right _ (List.mem_singleton_self _)

/-- Later registrations leave the order of the rows alone. -/
theorem Represents.ordered_concat (h : Represents router routes) (route : Route) :
    router.patternRoutes.Pairwise (Precedes PatternRoute.staticSegmentCount
      (fun row => since (routes ++ [route]) row.pattern)) := by
  apply h.ordered.imp_of_mem
  intro first second hFirst hSecond hBefore
  simp only [Precedes] at hBefore ⊢
  rw [since_concat (h.rows first hFirst).registered, since_concat (h.rows second hSecond).registered]
  exact hBefore

theorem mem_sortPatterns {rows : List PatternRoute} {row : PatternRoute} :
    row ∈ sortPatterns rows ↔ row ∈ rows := mem_sort

theorem Represents.addExact (h : Represents router routes)
    (hExact : isPatternPath route.path = false)
    (hNew : route.method ∉ (router.exactRoutes.lookup route.path).getD ∅) :
    Represents { router with
      exactRoutes := router.exactRoutes.insert route.path
        (((router.exactRoutes.lookup route.path).getD ∅).insert route.method route.handler) }
      (routes ++ [route]) where
  exact path methods hFound := by
    by_cases hPath : path = route.path
    · subst hPath
      refine ⟨hExact, mem_map_concat routes route, ?_⟩
      rw [AList.lookup_insert] at hFound
      cases hFound
      apply Holds.insert _ hNew
      cases hOld : router.exactRoutes.lookup route.path with
      | some methods => exact (h.exact _ _ hOld).2.2
      | none =>
        -- the path has not been registered before
        apply holds_empty
        intro hMem
        obtain ⟨old, hRoute, hSame⟩ := List.mem_map.mp hMem
        have hFound := h.exactRegistered old hRoute (hSame ▸ hExact)
        rw [hSame] at hFound
        exact absurd hFound (AList.lookup_eq_none.mp hOld)
    · rw [AList.lookup_insert_ne hPath] at hFound
      obtain ⟨hPattern, hMem, hHolds⟩ := h.exact path methods hFound
      rw [List.map_append]
      exact ⟨hPattern, List.mem_append_left _ hMem, hHolds.other hPath⟩
  exactRegistered other hOther hPattern := by
    rw [AList.mem_insert]
    rcases List.mem_append.mp hOther with hOld | hLast
    · exact .inr (h.exactRegistered other hOld hPattern)
    · exact .inl (congrArg Route.path (List.mem_singleton.mp hLast))
  rows row hRow := by
    apply (h.rows row hRow).concat
    intro hSame
    have hPattern := (h.rows row hRow).pattern
    rw [hSame, hExact] at hPattern
    cases hPattern
  rowRegistered other hOther hPattern := by
    rcases List.mem_append.mp hOther with hOld | hLast
    · exact h.rowRegistered other hOld hPattern
    · rw [List.mem_singleton.mp hLast, hExact] at hPattern
      cases hPattern
  ordered := h.ordered_concat route
  shapes := h.shapes

theorem Represents.exact_concat (h : Represents router routes)
    (hPattern : isPatternPath route.path = true) (path : List Char) (methods : MethodMap)
    (hFound : router.exactRoutes.lookup path = some methods) :
    isPatternPath path = false ∧ path ∈ (routes ++ [route]).map Route.path ∧
      Holds (routes ++ [route]) path methods := by
  obtain ⟨hExact, hMem, hHolds⟩ := h.exact path methods hFound
  rw [List.map_append]
  refine ⟨hExact, List.mem_append_left _ hMem, hHolds.other ?_⟩
  intro hSame
  rw [hSame, hPattern] at hExact
  cases hExact

theorem Represents.exactRegistered_concat (h : Represents router routes)
    (hPattern : isPatternPath route.path = true) (other : Route) (hOther : other ∈ routes ++ [route])
    (hExact : isPatternPath other.path = false) : other.path ∈ router.exactRoutes := by
  rcases List.mem_append.mp hOther with hOld | hLast
  · exact h.exactRegistered other hOld hExact
  · rw [List.mem_singleton.mp hLast, hPattern] at hExact
    cases hExact

theorem Represents.addNewPattern (h : Represents router routes) {compiled : PatternRoute}
    (hPattern : isPatternPath route.path = true)
    (hCompiled : compilePattern route.path = .ok compiled)
    (hShape : ∀ row ∈ router.patternRoutes, row.shape ≠ compiled.shape) :
    Represents { router with
      patternRoutes := sortPatterns (router.patternRoutes ++
        [{ compiled with methods := compiled.methods.insert route.method route.handler }]) }
      (routes ++ [route]) := by
  obtain ⟨-, hSame, hEmpty, -, -⟩ := compilePattern_ok hCompiled
  have hOther : ∀ row ∈ router.patternRoutes, row.pattern ≠ route.path := by
    intro row hRow hPath
    have hRowCompiled := (h.rows row hRow).compiled
    rw [hPath, hCompiled] at hRowCompiled
    exact hShape row hRow (congrArg PatternRoute.shape (Except.ok.inj hRowCompiled)).symm
  have hNew : route.path ∉ routes.map Route.path := by
    intro hMem
    obtain ⟨old, hRoute, hPath⟩ := List.mem_map.mp hMem
    obtain ⟨row, hRow, hRowPath⟩ := h.rowRegistered old hRoute (hPath ▸ hPattern)
    exact hOther row hRow (hRowPath.trans hPath)
  have hMem : ∀ row, row ∈ sortPatterns (router.patternRoutes ++
      [{ compiled with methods := compiled.methods.insert route.method route.handler }]) ↔
      row ∈ router.patternRoutes ∨
        row = { compiled with methods := compiled.methods.insert route.method route.handler } := by
    intro row
    rw [mem_sortPatterns, List.mem_append, List.mem_singleton]
  refine ⟨h.exact_concat hPattern, h.exactRegistered_concat hPattern, ?_, ?_, ?_, ?_⟩
  · intro row hRow
    rcases (hMem row).mp hRow with hOld | rfl
    · exact (h.rows row hOld).concat (hOther row hOld)
    · refine ⟨hSame ▸ hPattern, ?_, ?_, ?_⟩
      · simp only
        rw [hSame, hCompiled, ← hSame, ← hEmpty]
      · simp only
        rw [hSame]
        exact mem_map_concat routes route
      · simp only
        rw [hSame, hEmpty]
        exact (holds_empty hNew).insert (AList.notMem_empty _)
  · intro other hOtherRoute hOtherPattern
    rcases List.mem_append.mp hOtherRoute with hOld | hLast
    · obtain ⟨row, hRow, hPath⟩ := h.rowRegistered other hOld hOtherPattern
      exact ⟨row, (hMem row).mpr (.inl hRow), hPath⟩
    · rw [List.mem_singleton.mp hLast]
      exact ⟨_, (hMem _).mpr (.inr rfl), hSame⟩
  · apply pairwise_sort_concat (h.ordered_concat route)
    intro row hRow
    have hRegistered := (h.rows row hRow).registered
    simp only
    rw [hSame, since_concat hRegistered, since_new hNew]
    exact since_lt hRegistered
  · intro first hFirst second hSecond hShapes
    rcases (hMem first).mp hFirst with hOld | rfl
    · rcases (hMem second).mp hSecond with hOld' | rfl
      · exact h.shapes first hOld second hOld' hShapes
      · exact absurd hShapes (hShape first hOld)
    · rcases (hMem second).mp hSecond with hOld' | rfl
      · exact absurd hShapes.symm (hShape second hOld')
      · rfl

/-- Rows of one pattern would have one rank and one seniority. -/
theorem Represents.nodup (h : Represents router routes) :
    (router.patternRoutes.map PatternRoute.pattern).Nodup := by
  unfold List.Nodup
  rw [List.pairwise_map]
  apply h.ordered.imp_of_mem
  intro first second hFirst hSecond hBefore hSame
  have hCompiled := (h.rows first hFirst).compiled
  rw [hSame, (h.rows second hSecond).compiled] at hCompiled
  have hRank := congrArg PatternRoute.staticSegmentCount (Except.ok.inj hCompiled)
  simp only at hRank
  simp only [Precedes, hSame, hRank] at hBefore
  omega

theorem mem_middle {α : Type} {before after : List α} {a b : α} :
    a ∈ before ++ b :: after ↔ a = b ∨ a ∈ before ++ after := by
  rw [List.mem_append, List.mem_cons, List.mem_append]
  exact or_left_comm

theorem Represents.addOldPattern (h : Represents router routes) {row : PatternRoute}
    {before after : List PatternRoute} (hPattern : isPatternPath route.path = true)
    (hRows : router.patternRoutes = before ++ row :: after) (hSame : row.pattern = route.path)
    (hNew : route.method ∉ row.methods) :
    Represents { router with
      patternRoutes := sortPatterns (before ++
        { row with methods := row.methods.insert route.method route.handler } :: after) }
      (routes ++ [route]) := by
  have hOld : ∀ other, other ∈ router.patternRoutes ↔ other = row ∨ other ∈ before ++ after := by
    intro other
    rw [hRows, mem_middle]
  have hMem : ∀ other, other ∈ sortPatterns (before ++
      { row with methods := row.methods.insert route.method route.handler } :: after) ↔
      other = { row with methods := row.methods.insert route.method route.handler } ∨
        other ∈ before ++ after := by
    intro other
    rw [mem_sortPatterns, mem_middle]
  have hRow := h.rows row ((hOld row).mpr (.inl rfl))
  have hApart : ∀ other ∈ before ++ after, other.pattern ≠ route.path := by
    have hNodup := h.nodup
    rw [hRows, List.map_append, List.map_cons, List.nodup_middle, List.nodup_cons,
      ← List.map_append, hSame] at hNodup
    intro other hOther hPath
    exact hNodup.1 (List.mem_map.mpr ⟨other, hOther, hPath⟩)
  refine ⟨h.exact_concat hPattern, h.exactRegistered_concat hPattern, ?_, ?_, ?_, ?_⟩
  · intro other hOther
    rcases (hMem other).mp hOther with rfl | hOther
    · refine ⟨hRow.pattern, hRow.compiled, ?_, ?_⟩
      · rw [List.map_append]
        exact List.mem_append_left _ hRow.registered
      · have hHolds := hRow.methods
        simp only
        rw [hSame] at hHolds ⊢
        exact hHolds.insert hNew
    · exact (h.rows other ((hOld other).mpr (.inr hOther))).concat (hApart other hOther)
  · intro other hOther hOtherPattern
    rcases List.mem_append.mp hOther with hOther | hLast
    · obtain ⟨kept, hKept, hPath⟩ := h.rowRegistered other hOther hOtherPattern
      rcases (hOld kept).mp hKept with rfl | hKept
      · exact ⟨_, (hMem _).mpr (.inl rfl), hPath⟩
      · exact ⟨kept, (hMem kept).mpr (.inr hKept), hPath⟩
    · rw [List.mem_singleton.mp hLast]
      exact ⟨_, (hMem _).mpr (.inl rfl), hSame⟩
  · -- the row that changes keeps its rank and its seniority
    apply pairwise_sort
    have hOrdered := h.ordered_concat route
    rw [hRows, List.pairwise_append, List.pairwise_cons] at hOrdered
    have hChanged : (before ++ { row with
        methods := row.methods.insert route.method route.handler } :: after).Pairwise
        (Precedes PatternRoute.staticSegmentCount
          (fun row => since (routes ++ [route]) row.pattern)) := by
      rw [List.pairwise_append, List.pairwise_cons]
      refine ⟨hOrdered.1, hOrdered.2.1, ?_⟩
      intro first hFirst
      have hAfter := hOrdered.2.2 first hFirst
      rw [List.forall_mem_cons] at hAfter ⊢
      exact hAfter
    apply hChanged.imp
    rintro first second (hLess | ⟨-, hSince⟩) hRank
    · exact absurd hRank hLess.ne'
    · exact hSince
  · have hShapes : ∀ other, other ∈ sortPatterns (before ++
        { row with methods := row.methods.insert route.method route.handler } :: after) →
        ∃ old ∈ router.patternRoutes, old.shape = other.shape ∧ old.pattern = other.pattern := by
      intro other hOther
      rcases (hMem other).mp hOther with rfl | hOther
      · exact ⟨row, (hOld row).mpr (.inl rfl), rfl, rfl⟩
      · exact ⟨other, (hOld other).mpr (.inr hOther), rfl, rfl⟩
    intro first hFirst second hSecond hSameShape
    obtain ⟨old, hOld, hShape, hPath⟩ := hShapes first hFirst
    obtain ⟨old', hOld', hShape', hPath'⟩ := hShapes second hSecond
    rw [← hPath, ← hPath']
    exact h.shapes old hOld old' hOld' (hShape.trans (hSameShape.trans hShape'.symm))

/-- A call that returns adds its route to the history. -/
theorem Represents.apply (h : Represents router routes) {call : Registration} {after : Router}
    (hCall : call.apply router = (.ok (), after)) :
    Represents after (routes ++ call.route.toList) := by
  have hEffect := apply_effect router call
  rw [hCall] at hEffect
  cases hEffect with
  | exact hRoute hExact hNew =>
    rw [hRoute]
    exact h.addExact hExact hNew
  | newPattern hRoute hPattern hCompiled hShape =>
    rw [hRoute]
    exact h.addNewPattern hPattern hCompiled hShape
  | oldPattern hRoute hPattern hRows hSame hNew =>
    rw [hRoute]
    exact h.addOldPattern hPattern hRows hSame hNew

/-- A call that throws leaves the table as it is. -/
theorem Represents.refused (h : Represents router routes) {call : Registration} {error : Exception}
    {after : Router} (hCall : call.apply router = (.error error, after)) :
    Represents after routes := by
  have hEffect := apply_effect router call
  rw [hCall] at hEffect
  cases hEffect with
  | refused hExact hPatterns =>
    refine ⟨?_, ?_, hPatterns ▸ h.rows, hPatterns ▸ h.rowRegistered, hPatterns ▸ h.ordered,
      hPatterns ▸ h.shapes⟩
    · intro path methods hFound
      exact h.exact path methods ((hExact path).symm.trans hFound)
    · intro route hRoute hPattern
      rw [← AList.lookup_isSome, hExact, AList.lookup_isSome]
      exact h.exactRegistered route hRoute hPattern

end step

/-! ## Runs -/

theorem represents_foldl {router : Router} {routes : List Route} (h : Represents router routes)
    (calls : List Registration) :
    Represents (calls.foldl (fun router call => (call.apply router).2) router)
      (routes ++ acceptedFrom router calls) := by
  induction calls generalizing router routes with
  | nil =>
    rw [acceptedFrom, List.append_nil]
    exact h
  | cons call calls ih =>
    rw [acceptedFrom, List.foldl_cons, ← List.append_assoc]
    apply ih
    cases hCall : call.apply router with
    | mk result after =>
      cases result with
      | ok value => exact h.apply hCall
      | error error =>
        simp only [List.append_nil]
        exact h.refused hCall

theorem represents_run (calls : List Registration) : Represents (run calls) (accepted calls) :=
  represents_foldl represents_empty calls

end Router

end SecureCore

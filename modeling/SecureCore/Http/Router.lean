import SecureCore.Http.Session
import SecureCore.Precedence.Table
import Mathlib.Data.List.AList

/-! # Router

Paths, patterns and parameters are lists of bytes, since they are read byte by byte. -/

namespace SecureCore

set_option autoImplicit false

/-! ## Methods -/

/-- boost::beast::http::verb. -/
inductive Verb where
  | unknown | delete | get | head | post | put | connect | options | trace
  | copy | lock | mkcol | move | propfind | proppatch | search | unlock | bind | rebind | unbind | acl
  | report | mkactivity | checkout | merge
  | msearch | notify | subscribe | unsubscribe
  | patch | purge | mkcalendar | link | unlink
  deriving DecidableEq, Repr

namespace Verb

def all : List Verb :=
  [.unknown, .delete, .get, .head, .post, .put, .connect, .options, .trace, .copy, .lock, .mkcol, .move,
    .propfind, .proppatch, .search, .unlock, .bind, .rebind, .unbind, .acl, .report, .mkactivity,
    .checkout, .merge, .msearch, .notify, .subscribe, .unsubscribe, .patch, .purge, .mkcalendar, .link,
    .unlink]

/-- http::to_string. -/
def name : Verb → String
  | unknown => "<unknown>"
  | delete => "DELETE"
  | get => "GET"
  | head => "HEAD"
  | post => "POST"
  | put => "PUT"
  | connect => "CONNECT"
  | options => "OPTIONS"
  | trace => "TRACE"
  | copy => "COPY"
  | lock => "LOCK"
  | mkcol => "MKCOL"
  | move => "MOVE"
  | propfind => "PROPFIND"
  | proppatch => "PROPPATCH"
  | search => "SEARCH"
  | unlock => "UNLOCK"
  | bind => "BIND"
  | rebind => "REBIND"
  | unbind => "UNBIND"
  | acl => "ACL"
  | report => "REPORT"
  | mkactivity => "MKACTIVITY"
  | checkout => "CHECKOUT"
  | merge => "MERGE"
  | msearch => "M-SEARCH"
  | notify => "NOTIFY"
  | subscribe => "SUBSCRIBE"
  | unsubscribe => "UNSUBSCRIBE"
  | patch => "PATCH"
  | purge => "PURGE"
  | mkcalendar => "MKCALENDAR"
  | link => "LINK"
  | unlink => "UNLINK"

/-- http::string_to_verb. -/
def ofName (name : String) : Verb := (all.find? (fun verb => verb.name == name)).getD .unknown

end Verb

/-- message::method. -/
def HttpMessage.verb (request : HttpMessage) : Verb := Verb.ofName request.method

/-! ## Searching a text -/

/-- string_view::find of a character from a position on. -/
def findFrom (text : List Char) (c : Char) (start : Nat) : Option Nat :=
  ((text.drop start).findIdx? (fun other => other == c)).map (fun index => start + index)

theorem findFrom_bounds {text : List Char} {c : Char} {start position : Nat}
    (h : findFrom text c start = some position) : start ≤ position ∧ position < text.length := by
  obtain ⟨index, hIndex, rfl⟩ := Option.map_eq_some_iff.mp h
  have hLess := (List.findIdx?_eq_some_iff_getElem.mp hIndex).1
  rw [List.length_drop] at hLess
  omega

/-- string_view::substr. -/
def substr (text : List Char) (start count : Nat) : List Char := (text.drop start).take count

/-! ## Decoding -/

def isHexDigit (value : Char) : Bool :=
  ('0' ≤ value && value ≤ '9') || ('a' ≤ value && value ≤ 'f') || ('A' ≤ value && value ≤ 'F')

def hexValue (value : Char) : Nat :=
  if '0' ≤ value ∧ value ≤ '9' then value.toNat - '0'.toNat
  else if 'a' ≤ value ∧ value ≤ 'f' then value.toNat - 'a'.toNat + 10
  else value.toNat - 'A'.toNat + 10

def decodeComponent (value : List Char) (plusAsSpace : Bool) : Option (List Char) :=
  match value with
  | [] => some []
  | character :: rest =>
    if character == '%' then
      match rest with
      | high :: low :: rest =>
        if !isHexDigit high || !isHexDigit low then none
        else (decodeComponent rest plusAsSpace).map
          (fun result => Char.ofNat (hexValue high <<< 4 ||| hexValue low) :: result)
      | _ => none
    else (decodeComponent rest plusAsSpace).map
      (fun result => (if plusAsSpace && character == '+' then ' ' else character) :: result)

/-! ## Query parameters -/

/-- The loop of query_parameter from `start` on. -/
def queryFrom (query name : List Char) (start : Nat) : Option (List Char) :=
  if _hStart : start ≤ query.length then
    let pair := substr query start ((findFrom query '&' start).getD query.length - start)
    let rawKey := pair.takeWhile (fun c => c != '=')
    let rawValue := (pair.dropWhile (fun c => c != '=')).drop 1
    if decodeComponent rawKey true = some name then decodeComponent rawValue true
    else match _hFound : findFrom query '&' start with
      | none => none
      | some separator => queryFrom query name (separator + 1)
  else none
termination_by query.length + 1 - start
decreasing_by
  have hBounds := findFrom_bounds _hFound
  omega

def queryParameter (target name : List Char) : Option (List Char) :=
  match findFrom target '?' 0 with
  | none => none
  | some queryPosition =>
    if queryPosition + 1 ≥ target.length then none
    else queryFrom (target.drop (queryPosition + 1)) name 0

/-! ## Paths -/

def pathFromTarget (target : List Char) : List Char :=
  match findFrom target '?' 0 with
  | none => target
  | some queryPosition => target.take queryPosition

def isPatternPath (path : List Char) : Bool := path.contains '{' || path.contains '}'

/-- The loop of split_path from `start` on. -/
def splitPathFrom (path : List Char) (start : Nat) : List (List Char) :=
  if _hStart : start ≤ path.length then
    match _hFound : findFrom path '/' start with
    | none => [path.drop start]
    | some separator =>
      substr path start (separator - start) ::
        if separator + 1 = path.length then [[]] else splitPathFrom path (separator + 1)
  else []
termination_by path.length + 1 - start
decreasing_by
  have hBounds := findFrom_bounds _hFound
  omega

def splitPath (path : List Char) : List (List Char) := if path = ['/'] then [] else splitPathFrom path 1

/-! ## Patterns -/

/-- The std::unordered_map of decoded values. -/
abbrev RouteParameters := AList (fun _ : List Char => List Char)

def RouteParameters.emplace (parameters : RouteParameters) (name value : List Char) :
    RouteParameters :=
  if name ∈ parameters then parameters else parameters.insert name value

abbrev Router.Handler := HttpMessage → RouteParameters → Except Thrown HttpResponse

abbrev Router.SimpleHandler := HttpMessage → Except Thrown HttpResponse

/-- The std::unordered_map of handlers. -/
abbrev MethodMap := AList (fun _ : Verb => Router.Handler)

/-- The map afterwards, and whether the handler was inserted. -/
def MethodMap.emplace (methods : MethodMap) (method : Verb) (handler : Router.Handler) :
    MethodMap × Bool :=
  if method ∈ methods then (methods, false) else (methods.insert method handler, true)

structure RouteSegment where
  parameter : Bool
  value : List Char
  deriving DecidableEq, Repr

structure PatternRoute where
  pattern : List Char
  shape : List Char
  segments : List RouteSegment
  staticSegmentCount : Nat
  methods : MethodMap

def isValidParameterName : List Char → Bool
  | [] => false
  | first :: rest => (first.isAlpha || first == '_') && rest.all (fun c => c.isAlphanum || c == '_')

def invalidPattern (message : String) (pattern : List Char) : Exception :=
  .invalidArgument (message ++ String.ofList pattern)

/-- One segment of compile_pattern, with the names of the segments before it. -/
def compileSegment (pattern : List Char) (names : List (List Char)) (segment : List Char) :
    Except Exception RouteSegment :=
  let beginsParameter := segment.head? == some '{'
  let endsParameter := segment.getLast? == some '}'
  if beginsParameter || endsParameter then
    if !beginsParameter || !endsParameter || segment.length < 3 || (findFrom segment '{' 1).isSome ||
        findFrom segment '}' 0 != some (segment.length - 1) then
      .error (invalidPattern "Invalid route parameter segment in: " pattern)
    else
      let name := substr segment 1 (segment.length - 2)
      if !isValidParameterName name then
        .error (invalidPattern "Invalid route parameter name in: " pattern)
      else if names.contains name then
        .error (invalidPattern "Duplicate route parameter name in: " pattern)
      else .ok ⟨true, name⟩
  else if segment.contains '{' || segment.contains '}' then
    .error (invalidPattern "Invalid route pattern: " pattern)
  else .ok ⟨false, segment⟩

/-- The loop of compile_pattern. -/
def compileSegments (pattern : List Char) (names : List (List Char)) :
    List (List Char) → Except Exception (List RouteSegment)
  | [] => .ok []
  | segment :: rest => do
    let compiled ← compileSegment pattern names segment
    let names := if compiled.parameter then compiled.value :: names else names
    let segments ← compileSegments pattern names rest
    .ok (compiled :: segments)

def RouteSegment.shape (segment : RouteSegment) : List Char :=
  if segment.parameter then "/{}".toList else '/' :: segment.value

def compilePattern (pattern : List Char) : Except Exception PatternRoute := do
  let segments ← compileSegments pattern [] (splitPath pattern)
  let shape := segments.flatMap RouteSegment.shape
  .ok { pattern, shape := if shape.isEmpty then ['/'] else shape, segments,
        staticSegmentCount := segments.countP (fun segment => !segment.parameter), methods := ∅ }

/-- The loop of match_pattern. -/
def matchSegments (parameters : RouteParameters) :
    List RouteSegment → List (List Char) → Option RouteParameters
  | expected :: segments, actual :: path =>
    if !expected.parameter then
      if expected.value != actual then none else matchSegments parameters segments path
    else if actual.isEmpty then none
    else match decodeComponent actual false with
      | none => none
      | some decoded => matchSegments (parameters.emplace expected.value decoded) segments path
  | _, _ => some parameters

def matchPattern (route : PatternRoute) (path : List Char) : Option RouteParameters :=
  let pathSegments := splitPath path
  if pathSegments.length != route.segments.length then none
  else matchSegments ∅ route.segments pathSegments

/-! ## Allowed methods -/

def makeAllowHeader (methods : MethodMap) : List Char :=
  let methodNames := (methods.keys.map Verb.name).insertionSort (fun a b => a ≤ b)
  ", ".toList.intercalate (methodNames.map String.toList)

/-! ## The table of routes -/

structure Router where
  exactRoutes : AList (fun _ : List Char => MethodMap)
  patternRoutes : List PatternRoute

namespace Router

def empty : Router := ⟨∅, []⟩

/-- std::stable_sort by the number of static segments. -/
def sortPatterns (routes : List PatternRoute) : List PatternRoute :=
  Precedence.sort PatternRoute.staticSegmentCount routes

/-- The rest of add_route once the pattern has a route; `before` and `after` are its
neighbours in the vector. -/
def addMethod (router : Router) (before : List PatternRoute) (route : PatternRoute)
    (after : List PatternRoute) (method : Verb) (handler : Handler) : Except Exception Unit × Router :=
  let (methods, inserted) := route.methods.emplace method handler
  let routes := before ++ { route with methods } :: after
  if !inserted then (.error (.logicError ("Duplicate route pattern: " ++ String.ofList route.pattern)),
    { router with patternRoutes := routes })
  else (.ok (), { router with patternRoutes := sortPatterns routes })

def addPattern (router : Router) (method : Verb) (compiled : PatternRoute) (handler : Handler) :
    Except Exception Unit × Router :=
  let other (route : PatternRoute) := route.shape != compiled.shape
  match router.patternRoutes.dropWhile other with
  | [] => router.addMethod router.patternRoutes compiled [] method handler
  | route :: after =>
    if route.pattern != compiled.pattern then
      (.error (.logicError ("Conflicting route parameter names: " ++ String.ofList route.pattern ++
        " and " ++ String.ofList compiled.pattern)), router)
    else router.addMethod (router.patternRoutes.takeWhile other) route after method handler

/-- A call throws or returns, and the router is as it leaves it; an empty std::function
is no handler. -/
def addRoute (router : Router) (method : Verb) (path : List Char) (handler : Option Handler) :
    Except Exception Unit × Router :=
  if path.head? != some '/' || path.contains '?' then (.error (.invalidArgument
    ("Route path must be an absolute path without a query: " ++ String.ofList path)), router)
  else match handler with
    | none => (.error (.invalidArgument ("Route handler must not be empty: " ++ String.ofList path)), router)
    | some handler =>
      if !isPatternPath path then
        let (methods, inserted) := ((router.exactRoutes.lookup path).getD ∅).emplace method handler
        (if inserted then .ok () else .error (.logicError ("Duplicate route: " ++ String.ofList path)),
          { router with exactRoutes := router.exactRoutes.insert path methods })
      else match compilePattern path with
        | .error e => (.error e, router)
        | .ok compiled => router.addPattern method compiled handler

def addSimpleRoute (router : Router) (method : Verb) (path : List Char)
    (handler : Option SimpleHandler) : Except Exception Unit × Router :=
  match handler with
  | none => (.error (.invalidArgument ("Route handler must not be empty: " ++ String.ofList path)), router)
  | some handler => router.addRoute method path (some (fun request _ => handler request))

/-- A found route answers, or names the methods that it has. -/
def answerWith (json : JsonLibrary) (methods : MethodMap) (parameters : RouteParameters)
    (request : HttpMessage) : Except Thrown HttpResponse :=
  match methods.lookup request.verb with
  | none => do
    let response ← makeErrorResponse json request 405 "method_not_allowed"
    .ok (response.set "Allow" (makeAllowHeader methods))
  | some handler => do
    let response ← handler request parameters
    finalizeResponse response request

/-- The loop of dispatch over the patterns. -/
def dispatchPatterns (json : JsonLibrary) (path : List Char) (request : HttpMessage) :
    List PatternRoute → Except Thrown HttpResponse
  | [] => makeErrorResponse json request 404 "not_found"
  | route :: routes =>
    match matchPattern route path with
    | none => dispatchPatterns json path request routes
    | some parameters => answerWith json route.methods parameters request

def dispatch (json : JsonLibrary) (router : Router) (request : HttpMessage) :
    Except Thrown HttpResponse :=
  let path := pathFromTarget request.target
  if path.head? != some '/' then makeErrorResponse json request 400 "bad_request"
  else match router.exactRoutes.lookup path with
    | some methods => answerWith json methods ∅ request
    | none => dispatchPatterns json path request router.patternRoutes

end Router

end SecureCore

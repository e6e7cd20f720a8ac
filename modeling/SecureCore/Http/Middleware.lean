import SecureCore.Http.RequestId

/-! # Middlewares

A middleware gets the outcome of the rest of the chain and returns its own. What it logs
and counts does not reach the response and is left out. -/

namespace SecureCore

set_option autoImplicit false

structure RequestContext where
  request : HttpMessage
  clientIp : List Char
  peerIp : List Char
  secureTransport : Bool
  usedForwardedHeaders : Bool

abbrev Next := Except Thrown HttpResponse

abbrev Middleware := RequestContext → Next → Next

/-- MiddlewarePipeline::execute. -/
def execute (pipeline : List Middleware) (context : RequestContext) (terminalHandler : Next) : Next :=
  pipeline.foldr (fun middleware next => middleware context next) terminalHandler

def decimal (n : Int) : List Char := (toString n).toList

/-! ## Responses of the middlewares -/

namespace HttpResponse

def setAll (response : HttpResponse) (headers : List (String × List Char)) : HttpResponse :=
  headers.foldl (fun response header => response.set header.1 header.2) response

/-- The calls that complete a response built by hand. -/
def finish (response : HttpResponse) (version : Nat) (headers : List (String × List Char))
    (keepAlive : Bool) : Next :=
  let response := (response.setVersion version).setAll (("Server", "SecureCore".toList) :: headers)
  (response.setKeepAlive keepAlive).preparePayload.mapError .standard

end HttpResponse

variable (json : JsonLibrary)

def prepareMiddlewareResponse (response : HttpResponse) (request : HttpMessage) : Next :=
  response.finish request.version [] request.keepAlive

def makeInternalErrorResponse (request : HttpMessage) : Next := do
  let response ← makeJsonError json 500 "internal_server_error"
  response.finish request.version [] false

/-! ## Security headers -/

structure HstsPolicy where
  enabled : Bool
  maxAgeSeconds : Nat
  includeSubdomains : Bool
  preload : Bool

def hstsValue (policy : HstsPolicy) : String :=
  "max-age=" ++ toString policy.maxAgeSeconds ++
    (if policy.includeSubdomains then "; includeSubDomains" else "") ++
    (if policy.preload then "; preload" else "")

def securityHeaders (context : RequestContext) (hstsPolicy : HstsPolicy) : List (String × List Char) :=
  [("X-Content-Type-Options", "nosniff".toList),
    ("X-Frame-Options", "DENY".toList),
    ("Referrer-Policy", "no-referrer".toList),
    ("Permissions-Policy", "camera=(), microphone=(), geolocation=()".toList),
    ("Content-Security-Policy",
      "default-src 'none'; frame-ancestors 'none'; base-uri 'none'".toList),
    ("Cache-Control", "no-store".toList)] ++
  if hstsPolicy.enabled && context.secureTransport then
    [("Strict-Transport-Security", (hstsValue hstsPolicy).toList)]
  else []

/-! ## CORS -/

structure CorsPolicy where
  allowedOrigins : List String
  wildcard : Bool
  allowCredentials : Bool
  maxAgeSeconds : Nat

/-- The origins are sorted, so the binary search finds every one of them. -/
def CorsPolicy.allows (policy : CorsPolicy) (origin : List Char) : Bool :=
  policy.wildcard || policy.allowedOrigins.contains (String.ofList origin)

/-- Two fields of the name count as one that is empty. -/
def requestHeader (request : HttpMessage) (name : String) : Option (List Char) :=
  match Fields.valuesOf request.fields name with
  | [] => none
  | [value] => some value
  | _ => some []

def allowedMethods : String := "GET, POST, PUT, PATCH, DELETE, OPTIONS"

def allowedMethodValues : List String := ["GET", "POST", "PUT", "PATCH", "DELETE", "OPTIONS"]

def allowedHeaders : String := "Authorization, Content-Type, X-Request-ID"

def allowedHeaderValues : List String := ["authorization", "content-type", "x-request-id"]

def splitCsv (value : List Char) : List (List Char) := (value.splitOn ',').map trimChars

def allowedPreflightMethod (value : List Char) : Bool :=
  allowedMethodValues.contains (String.ofList (trimChars value))

def allowedPreflightHeaders (value : List Char) : Bool :=
  (splitCsv value).all (fun item => !item.isEmpty &&
    allowedHeaderValues.contains (String.ofList (lowercaseChars item)))

def corsHeaders (policy : CorsPolicy) (origin : List Char) (preflight : Bool) :
    List (String × List Char) :=
  (if policy.wildcard then [("Access-Control-Allow-Origin", "*".toList)]
    else [("Access-Control-Allow-Origin", origin),
      ("Vary", if preflight then
          "Origin, Access-Control-Request-Method, Access-Control-Request-Headers".toList
        else "Origin".toList)]) ++
  (if policy.allowCredentials then [("Access-Control-Allow-Credentials", "true".toList)] else []) ++
  [("Access-Control-Allow-Methods", allowedMethods.toList),
    ("Access-Control-Allow-Headers", allowedHeaders.toList),
    ("Access-Control-Expose-Headers",
      "X-Request-ID, X-RateLimit-Limit, X-RateLimit-Remaining, Retry-After".toList),
    ("Access-Control-Max-Age", decimal policy.maxAgeSeconds)]

/-- What the CORS middleware makes of a request: it answers itself, or lets it through. -/
inductive CorsGate where
  | originDenied
  | preflightDenied (origin : List Char)
  | options (origin : Option (List Char)) (preflight : Bool)
  | passed (origin : Option (List Char))
  deriving DecidableEq, Repr

def corsGate (policy : CorsPolicy) (request : HttpMessage) : CorsGate :=
  let origin := (requestHeader request "Origin").map trimChars
  if origin.any (fun origin => origin.isEmpty || !policy.allows origin) then .originDenied
  else
    let isOptions := request.method == "OPTIONS"
    match origin, isOptions, requestHeader request "Access-Control-Request-Method" with
    | some origin, true, some requestedMethod =>
      let requestedHeaders := requestHeader request "Access-Control-Request-Headers"
      if requestedMethod.isEmpty || !allowedPreflightMethod requestedMethod ||
          requestedHeaders.any (fun headers => headers.isEmpty || !allowedPreflightHeaders headers) then
        .preflightDenied origin
      else .options (some origin) true
    | origin, true, _ => .options origin false
    | origin, false, _ => .passed origin

/-! ## The middlewares -/

def withCorsHeaders (policy : CorsPolicy) (origin : Option (List Char)) (preflight : Bool)
    (response : HttpResponse) : HttpResponse :=
  match origin with
  | none => response
  | some origin => response.setAll (corsHeaders policy origin preflight)

def requestIdMiddleware (source : RequestIdSource) : Middleware := fun context next => do
  let requestId := resolveRequestId context.request source
  let response ← next
  applyRequestId json response requestId

def securityHeadersMiddleware (hstsPolicy : HstsPolicy) : Middleware := fun context next => do
  let response ← next
  .ok (response.setAll (securityHeaders context hstsPolicy))

def corsMiddleware (policy : CorsPolicy) : Middleware := fun context next =>
  match corsGate policy context.request with
  | .originDenied => do
    let response ← makeJsonError json 403 "cors_origin_denied"
    prepareMiddlewareResponse response context.request
  | .preflightDenied origin => do
    let response ← makeJsonError json 403 "cors_preflight_denied"
    let response ← prepareMiddlewareResponse response context.request
    .ok (withCorsHeaders policy (some origin) true response)
  | .options origin preflight => do
    let response ← prepareMiddlewareResponse ⟨context.request.version, 204, [], ""⟩ context.request
    .ok (withCorsHeaders policy origin preflight response)
  | .passed origin => do
    let response ← next
    .ok (withCorsHeaders policy origin false response)

def errorMiddleware : Middleware := fun context next =>
  match next with
  | .ok response => .ok response
  | .error (.api status error) => makeApiErrorResponse json status error
  | .error (.standard _) => makeInternalErrorResponse json context.request
  | .error .unknown => makeInternalErrorResponse json context.request

structure RateLimitDecision where
  allowed : Bool
  limit : Nat
  remaining : Nat
  retryAfter : Int

/-- The decision is that of RateLimiter::check for the client. -/
def rateLimitMiddleware (decision : RateLimitDecision) : Middleware := fun context next =>
  if !decision.allowed then do
    let response ← makeJsonError json 429 "rate_limit_exceeded"
    response.finish context.request.version
      [("Retry-After", decimal decision.retryAfter), ("X-RateLimit-Limit", decimal decision.limit),
        ("X-RateLimit-Remaining", "0".toList)] false
  else do
    let response ← next
    .ok (if decision.limit != 0 then
      response.setAll [("X-RateLimit-Limit", decimal decision.limit),
        ("X-RateLimit-Remaining", decimal decision.remaining)]
    else response)

/-- register_default_middlewares. -/
def defaultMiddlewares (source : RequestIdSource) (hstsPolicy : HstsPolicy) (policy : CorsPolicy)
    (decision : RateLimitDecision) : List Middleware :=
  [requestIdMiddleware json source, securityHeadersMiddleware hstsPolicy, corsMiddleware json policy,
    errorMiddleware json, rateLimitMiddleware json decision]

end SecureCore

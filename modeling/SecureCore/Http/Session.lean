import SecureCore.Http.Middleware
import SecureCore.Runtime.WorkerPool

/-! # One request in a session

From a request that has been read to the response handed to send_response. -/

namespace SecureCore

set_option autoImplicit false

open TrustedProxy

variable (json : JsonLibrary)

/-! ## The router -/

/-- The ways in which route handlers build a response. -/
inductive RouteResponse where
  /-- make_json_response or make_json_error, with the fields that handlers add. -/
  | json (status : Nat) (body : Json) (wwwAuthenticate : Bool) (retryAfter : Option Nat)
      (location : Option String)
  | noContent
  /-- The text of the metrics, behind its first word. -/
  | metrics (exposition : String)

def RouteResponse.build (request : HttpMessage) : RouteResponse → Next
  | .json status body wwwAuthenticate retryAfter location => do
    let response ← makeJsonResponse json status body
    let response := if wwwAuthenticate then response.set "WWW-Authenticate" "Bearer".toList else response
    let response := match retryAfter with
      | some seconds => response.set "Retry-After" (decimal seconds)
      | none => response
    .ok (match location with
      | some location => response.set "Location" location.toList
      | none => response)
  | .noContent =>
    ((⟨request.version, 204, [], ""⟩ : HttpResponse).setKeepAlive
      request.keepAlive).preparePayload.mapError .standard
  | .metrics exposition => .ok { (⟨request.version, 200, [], ""⟩ : HttpResponse).set "Content-Type"
      "text/plain; version=0.0.4; charset=utf-8".toList with body := "# HELP" ++ exposition }

/-- What the router finds for a request. -/
inductive Dispatched where
  | badRequest
  | notFound
  | methodNotAllowed (allow : List Char)
  | handled (response : RouteResponse)
  | thrown (exception : Thrown)

def finalizeResponse (response : HttpResponse) (request : HttpMessage) : Next :=
  let response := response.setVersion request.version
  let response := if (response.fields.find "Server").isNone then
    response.set "Server" "SecureCore".toList else response
  let response := if response.status != 204 && (response.fields.find "Content-Type").isNone then
    response.set "Content-Type" "application/json".toList else response
  (response.setKeepAlive request.keepAlive).preparePayload.mapError .standard

def makeErrorResponse (request : HttpMessage) (status : Nat) (errorCode : String) : Next := do
  let response ← makeJsonError json status errorCode
  finalizeResponse response request

/-- Router::dispatch. -/
def dispatch (request : HttpMessage) : Dispatched → Next
  | .badRequest => makeErrorResponse json request 400 "bad_request"
  | .notFound => makeErrorResponse json request 404 "not_found"
  | .methodNotAllowed allow => do
    let response ← makeErrorResponse json request 405 "method_not_allowed"
    .ok (response.set "Allow" allow)
  | .handled response => do
    let response ← response.build json request
    finalizeResponse response request
  | .thrown exception => .error exception

/-! ## The session -/

structure SessionConfig where
  text : AddressText
  trustedProxyResolver : TrustedProxyResolver
  hstsPolicy : HstsPolicy
  corsPolicy : CorsPolicy

/-- What a request meets on its way through the session. -/
structure Surrounding where
  sessionId : RequestIdSource
  middlewareId : RequestIdSource
  submitted : SubmitResult
  rateLimit : RateLimitDecision
  dispatched : Dispatched
  drainingAtRead : Bool
  drainingAtCompletion : Bool

variable (config : SessionConfig) (peerIp : List Char) (request : HttpMessage) (met : Surrounding)

def allowedDuringDrain : Bool :=
  let path := request.target.takeWhile (fun c => c != '?')
  path == "/ready".toList || path == "/metrics".toList

/-- The terminal handler: a proxy header error becomes an ApiException. -/
def terminalHandler (proxyError : Option ApiError) : Next :=
  match proxyError with
  | some error => .error (.api 400 error)
  | none => dispatch json request met.dispatched

def runPipeline : Next :=
  let resolved := config.trustedProxyResolver.resolve config.text peerIp request.fields false
  let proxyError : Option ApiError := match resolved with
    | .error error => some ⟨error.code, error.message, []⟩
    | .ok _ => none
  let client : ResolvedClient := match resolved with
    | .error _ => ⟨peerIp, false, false⟩
    | .ok client => client
  execute (defaultMiddlewares json met.middlewareId config.hstsPolicy config.corsPolicy met.rateLimit)
    ⟨request, client.clientIp, peerIp, client.secureTransport, client.usedForwardedHeaders⟩
    (terminalHandler json request met proxyError)

/-- The answer of the worker to whatever the pipeline lets escape. -/
def workerFailure (requestId : String) : Next := do
  let response ← makeJsonError json 500 "internal_server_error"
  let response ← response.finish request.version [] false
  applyRequestId json response requestId

def workerTask (requestId : String) : Next :=
  match runPipeline json config peerIp request met with
  | .ok response => .ok response
  | .error _ => workerFailure json request requestId

def completeRequest (draining : Bool) (response : HttpResponse) : HttpResponse :=
  if draining then response.setKeepAlive false else response

def rejectSubmission (requestId : String) : Next := do
  let response ← makeJsonError json 503
    (if met.submitted = .queueFull then "server_busy" else "server_shutting_down")
  let response ← response.finish request.version [("Retry-After", "1".toList),
    ("Cache-Control", "no-store".toList), ("X-Content-Type-Options", "nosniff".toList)] false
  applyRequestId json response requestId

def handleRequest : Next :=
  let requestId := resolveRequestId request met.sessionId
  let identified := { request with
    fields := Fields.set request.fields "X-Request-ID" requestId.toList }
  match met.submitted with
  | .accepted => do
    let response ← workerTask json config peerIp identified met requestId
    .ok (completeRequest met.drainingAtCompletion response)
  | _ => rejectSubmission json request met requestId

def rejectNewRequestDuringDrain : Next := do
  let response ← makeJsonError json 503 "server_shutting_down"
  let response ← response.finish request.version
    [("Retry-After", "1".toList), ("Cache-Control", "no-store".toList)] false
  applyRequestId json response (resolveRequestId request met.sessionId)

/-- The response that a request read without an error leads to, as send_response gets it. -/
def respond : Next :=
  if met.drainingAtRead && !allowedDuringDrain request then
    rejectNewRequestDuringDrain json request met
  else handleRequest json config peerIp request met

end SecureCore

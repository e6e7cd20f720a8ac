import SecureCore.Http.HttpSession

/-! # TlsHttpSession

The sessions of an HTTPS server, which keep a copy of their own of every handler. -/

set_option autoImplicit false

namespace SecureCore.TlsHttpSession

open TrustedProxy

inductive Phase where
  | created
  | handshaking
  | reading
  | processing
  | writing
  | shuttingDown
  | stopped
  deriving DecidableEq, Repr

def created : Session Phase := { phase := .created }

variable (json : JsonLibrary)

/-! ## What a worker does with a request -/

section worker

variable (config : SessionConfig) (peerIp : List Char) (request : HttpMessage) (met : Surrounding)

def runPipeline : Next :=
  let resolved := config.trustedProxyResolver.resolve config.text peerIp request.fields true
  let proxyError : Option ApiError := match resolved with
    | .error error => some ⟨error.code, error.message, []⟩
    | .ok _ => none
  let client : ResolvedClient := match resolved with
    | .error _ => ⟨peerIp, true, false⟩
    | .ok client => client
  execute (defaultMiddlewares json met.middlewareId config.hstsPolicy config.corsPolicy met.rateLimit)
    ⟨request, client.clientIp, peerIp, client.secureTransport, client.usedForwardedHeaders⟩
    (terminalHandler json request met proxyError)

def workerFailure (requestId : String) : Next := do
  let response ← makeJsonError json 500 "internal_server_error"
  let response ← response.finish request.version [] false
  applyRequestId json response requestId

def workerTask (requestId : String) : Next :=
  match runPipeline json config peerIp request met with
  | .ok response => .ok response
  | .error _ => workerFailure json request requestId

def rejectSubmission (requestId : String) : Next := do
  let response ← makeJsonError json 503
    (if met.submitted = .queueFull then "server_busy" else "server_shutting_down")
  let response ← response.finish request.version [("Retry-After", "1".toList),
    ("Cache-Control", "no-store".toList), ("X-Content-Type-Options", "nosniff".toList)] false
  applyRequestId json response requestId

end worker

/-! ## The handlers -/

variable (limits : HttpLimits) (peerIp : List Char) (s : Session Phase)

def finishRequest : Session Phase × List Action :=
  if !s.requestActive then (s, [])
  else ({ s with requestActive := false }, [.metric .requestFinished])

def doStop : Session Phase × List Action :=
  if s.stopped then (s, [])
  else
    let (s, finished) := finishRequest { s with stopped := true, phase := .stopped }
    (s, finished ++ [.metric .connectionClosed, .socketClosed])

def handleDisconnect : Session Phase × List Action :=
  if s.stopped then (s, [])
  else
    let (s, stopping) := doStop s
    (s, stopping ++ [.removed])

def doHandshake : Session Phase × List Action :=
  if s.stopped then (s, [])
  else
    let s : Session Phase := { s with phase := .handshaking }
    (s.begin .handshake, [.handshakeStarted limits.tlsHandshakeTimeout])

def doStart : Session Phase × List Action :=
  if s.started || s.stopped then (s, [])
  else doHandshake limits { s with started := true }

def doDrain : Session Phase × List Action :=
  if s.draining || s.stopped then (s, [])
  else
    let s := { s with draining := true }
    if s.phase = .created || s.phase = .handshaking then handleDisconnect s else (s, [])

def doRead : Session Phase × List Action :=
  if s.stopped then (s, [])
  else
    let s : Session Phase := { s with phase := .reading }
    let timeout := if s.completedRequests = 0 then limits.readTimeout else limits.idleTimeout
    (s.begin .read, [.readStarted limits.maxHeaderBytes limits.maxBodyBytes timeout])

def handleHandshake (error : Option StreamError) : Session Phase × List Action :=
  if s.stopped then (s, [])
  else match error with
    | some _ => handleDisconnect s
    | none => doRead limits s

def doTlsShutdown : Session Phase × List Action :=
  if s.stopped then (s, [])
  else
    let s : Session Phase := { s with phase := .shuttingDown }
    (s.begin .shutdown, [.shutdownStarted limits.writeTimeout])

/-- An error of the shutdown is only logged. -/
def handleTlsShutdown : Session Phase × List Action :=
  if s.stopped then (s, []) else handleDisconnect s

def sendResponse (response : HttpResponse) : Session Phase × List Action :=
  if s.stopped then (s, [])
  else
    let response := if s.draining then response.setKeepAlive false else response
    let shouldClose := response.needEof
    let s : Session Phase := { s with phase := .writing }
    (s.begin (.write shouldClose), [.writeStarted response limits.writeTimeout])

/-- A response that no worker has made is counted before it is sent. -/
def sendOwn (response : Next) : Session Phase × List Action :=
  match response with
  | .error exception => (s, [.thrown exception])
  | .ok response =>
    let (s, sent) := sendResponse limits s response
    (s, .metric (.httpResponse response.status 0) :: sent)

def sendProtocolError (status : Nat) (errorCode : String) (source : RequestIdSource) :
    Session Phase × List Action :=
  sendOwn limits s do
    let response ← makeJsonError json status errorCode
    let response ← response.finish 11 [] false
    applyRequestId json response (generateRequestId source)

def handleRequest (request : HttpMessage) (met : Surrounding) : Session Phase × List Action :=
  let requestId := resolveRequestId request met.sessionId
  let identified := { request with
    fields := Fields.set request.fields "X-Request-ID" requestId.toList }
  let task : Task := ⟨identified, peerIp, requestId, true⟩
  match met.submitted with
  | .accepted => (s.begin .task, [.submitted task .accepted])
  | result =>
    let (s, rejected) := sendOwn limits s (rejectSubmission json request met requestId)
    (s, .submitted task result :: rejected)

def rejectNewRequestDuringDrain (request : HttpMessage) (met : Surrounding) :
    Session Phase × List Action :=
  sendOwn limits s do
    let response ← makeJsonError json 503 "server_shutting_down"
    let response ← response.finish request.version
      [("Retry-After", "1".toList), ("Cache-Control", "no-store".toList)] false
    applyRequestId json response (resolveRequestId request met.sessionId)

def allowedDuringDrain (request : HttpMessage) : Bool :=
  let path := request.target.takeWhile (fun c => c != '?')
  path == "/ready".toList || path == "/metrics".toList

def handleRead (result : Except StreamError HttpMessage) (met : Surrounding) :
    Session Phase × List Action :=
  if s.stopped then (s, [])
  else match result with
    | .ok request =>
      let s := { s with
        completedRequests := (s.completedRequests + 1) % 2 ^ 64
        phase := .processing
        requestActive := true }
      let (s, handled) :=
        if s.draining && !allowedDuringDrain request then
          rejectNewRequestDuringDrain json limits s request met
        else handleRequest json limits peerIp s request met
      (s, .metric .requestStarted :: handled)
    | .error .bodyLimit => sendProtocolError json limits s 413 "payload_too_large" met.sessionId
    | .error .headerLimit => sendProtocolError json limits s 431 "headers_too_large" met.sessionId
    | .error _ => handleDisconnect s

def completeRequest (response : HttpResponse) : Session Phase × List Action :=
  if s.stopped then (s, [])
  else sendResponse limits s (if s.draining then response.setKeepAlive false else response)

/-- The completion of the write in send_response. -/
def handleWrite (shouldClose : Bool) (error : Option StreamError) : Session Phase × List Action :=
  if s.stopped then (s, [])
  else
    let (s, finished) := finishRequest s
    let (s, rest) := match error with
      | some _ => handleDisconnect s
      | none => if shouldClose then doTlsShutdown limits s else doRead limits s
    (s, finished ++ rest)

def step : SessionEvent → Option (Session Phase × List Action)
  | .start => some (doStart limits s)
  | .drain => some (doDrain s)
  | .stop => some (handleDisconnect s)
  | .handshaken error => s.complete .handshake (fun s => handleHandshake limits s error)
  | .read result met => s.complete .read (fun s => handleRead json limits peerIp s result met)
  | .completed response => s.complete .task (fun s => completeRequest limits s response)
  | .written shouldClose error =>
    s.complete (.write shouldClose) (fun s => handleWrite limits s shouldClose error)
  | .shutDown _ => s.complete .shutdown handleTlsShutdown

end SecureCore.TlsHttpSession

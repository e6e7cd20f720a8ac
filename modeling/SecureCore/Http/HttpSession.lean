import SecureCore.Http.SessionEvents

/-! # HttpSession -/

set_option autoImplicit false

namespace SecureCore

variable (json : JsonLibrary)

/-- The response of send_protocol_error. -/
def protocolError (status : Nat) (errorCode : String) (source : RequestIdSource) : Next := do
  let response ← makeJsonError json status errorCode
  let response ← response.finish 11 [] false
  applyRequestId json response (generateRequestId source)

namespace HttpSession

inductive Phase where
  | created
  | reading
  | processing
  | writing
  | stopped
  deriving DecidableEq, Repr

def created : Session Phase := { phase := .created }

variable (limits : HttpLimits) (peerIp : List Char) (s : Session Phase)

def finishRequest : Session Phase × List Action :=
  if !s.requestActive then (s, [])
  else ({ s with requestActive := false }, [.metric .requestFinished])

def doStop : Session Phase × List Action :=
  if s.stopped then (s, [])
  else
    let (s, finished) := finishRequest { s with stopped := true, phase := .stopped }
    (s, finished ++ [.metric .connectionClosed, .socketClosed])

def handleDisconnect : Session Phase × List Action :=
  if s.stopped then (s, [])
  else
    let (s, stopping) := doStop s
    (s, stopping ++ [.removed])

def doRead : Session Phase × List Action :=
  if s.stopped then (s, [])
  else
    let s : Session Phase := { s with phase := .reading }
    let timeout := if s.completedRequests = 0 then limits.readTimeout else limits.idleTimeout
    (s.begin .read, [.readStarted limits.maxHeaderBytes limits.maxBodyBytes timeout])

def doStart : Session Phase × List Action :=
  if s.started || s.stopped then (s, [])
  else doRead limits { s with started := true }

def doDrain : Session Phase × List Action :=
  if s.draining || s.stopped then (s, [])
  else
    let s := { s with draining := true }
    if s.phase = .created then handleDisconnect s else (s, [])

def sendResponse (response : HttpResponse) : Session Phase × List Action :=
  if s.stopped then (s, [])
  else
    let response := if s.draining then response.setKeepAlive false else response
    let shouldClose := response.needEof
    let s : Session Phase := { s with phase := .writing }
    (s.begin (.write shouldClose), [.writeStarted response limits.writeTimeout])

/-- A response that no worker has made is counted before it is sent. -/
def sendOwn (response : Next) : Session Phase × List Action :=
  match response with
  | .error exception => (s, [.thrown exception])
  | .ok response =>
    let (s, sent) := sendResponse limits s response
    (s, .metric (.httpResponse response.status 0) :: sent)

def sendProtocolError (status : Nat) (errorCode : String) (source : RequestIdSource) :
    Session Phase × List Action :=
  sendOwn limits s (protocolError json status errorCode source)

def handleRequest (request : HttpMessage) (met : Surrounding) : Session Phase × List Action :=
  let requestId := resolveRequestId request met.sessionId
  let identified := { request with
    fields := Fields.set request.fields "X-Request-ID" requestId.toList }
  let task : Task := ⟨identified, peerIp, requestId, false⟩
  match met.submitted with
  | .accepted => (s.begin .task, [.submitted task .accepted])
  | result =>
    let (s, rejected) := sendOwn limits s (rejectSubmission json request met requestId)
    (s, .submitted task result :: rejected)

def rejectNewRequestDuringDrain (request : HttpMessage) (met : Surrounding) :
    Session Phase × List Action :=
  sendOwn limits s (SecureCore.rejectNewRequestDuringDrain json request met)

def handleRead (result : Except StreamError HttpMessage) (met : Surrounding) :
    Session Phase × List Action :=
  if s.stopped then (s, [])
  else match result with
    | .ok request =>
      let s := { s with
        completedRequests := (s.completedRequests + 1) % 2 ^ 64
        phase := .processing
        requestActive := true }
      let (s, handled) :=
        if s.draining && !allowedDuringDrain request then
          rejectNewRequestDuringDrain json limits s request met
        else handleRequest json limits peerIp s request met
      (s, .metric .requestStarted :: handled)
    | .error .bodyLimit => sendProtocolError json limits s 413 "payload_too_large" met.sessionId
    | .error .headerLimit => sendProtocolError json limits s 431 "headers_too_large" met.sessionId
    | .error _ => handleDisconnect s

def completeRequest (response : HttpResponse) : Session Phase × List Action :=
  if s.stopped then (s, [])
  else sendResponse limits s (SecureCore.completeRequest s.draining response)

/-- The completion of the write in send_response. -/
def handleWrite (shouldClose : Bool) (error : Option StreamError) : Session Phase × List Action :=
  if s.stopped then (s, [])
  else
    let (s, finished) := finishRequest s
    let (s, rest) := match error with
      | some _ => handleDisconnect s
      | none => if shouldClose then handleDisconnect s else doRead limits s
    (s, finished ++ rest)

def step : SessionEvent → Option (Session Phase × List Action)
  | .start => some (doStart limits s)
  | .drain => some (doDrain s)
  | .stop => some (handleDisconnect s)
  | .read result met => s.complete .read (fun s => handleRead json limits peerIp s result met)
  | .completed response => s.complete .task (fun s => completeRequest limits s response)
  | .written shouldClose error =>
    s.complete (.write shouldClose) (fun s => handleWrite limits s shouldClose error)
  | .handshaken _ => none
  | .shutDown _ => none

end HttpSession

end SecureCore

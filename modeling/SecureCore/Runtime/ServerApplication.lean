import SecureCore.Http.ConnectionGauges

/-! # HttpServer and ServerApplication

The strand of the server, the strands of its sessions and the shutdown thread. Other
threads may act between any two steps of one of them. -/

set_option autoImplicit false

namespace SecureCore

/-! ## HttpServer -/

/-- What is queued on the strand of the server. A successful accept brings the address of
the client. -/
inductive Handler where
  | start
  | accepted (client : Option (List Char))
  | beginDraining
  | stop
  deriving DecidableEq

/-- What is dispatched to the strand of a session. -/
inductive Notice where
  | start
  | drain
  | stop
  deriving DecidableEq, Repr

def Notice.event : Notice → SessionEvent
  | .start => .start
  | .drain => .drain
  | .stop => .stop

def SessionEvent.isCompletion : SessionEvent → Bool
  | .start | .drain | .stop => false
  | _ => true

structure HttpServer where
  tls : Bool
  connections : Connections
  acceptorOpen : Bool := true
  /-- An async_accept is under way. -/
  accepting : Bool := false
  draining : Bool := false
  stopped : Bool := false
  strand : List Handler := []
  /-- The accept handler has constructed this session and is about to call
  ConnectionManager::start. -/
  registering : Option Nat := none
  posted : List (Nat × Notice) := []

inductive ServerEvent where
  | accepted (client : Option (List Char))
  /-- The handler at the front of the strand runs. -/
  | handled (source : RequestIdSource)
  /-- The accept handler registers the session that it has constructed. -/
  | registered
  | notified (connection : Nat)
  | session (connection : Nat) (event : SessionEvent)

inductive ServerAction where
  | connection (action : ConnectionAction)
  /-- reject_connection, with the response that it makes unless TLS is on. -/
  | rejected (response : Option Next)
  | socketClosed

namespace HttpServer

variable (json : JsonLibrary) (limits : HttpLimits) (server : HttpServer)

def rejectConnection (source : RequestIdSource) : Next := do
  let response ← makeJsonError json 503 "connection_limit_reached"
  let response ← response.finish 11 [("Retry-After", "1".toList),
    ("Cache-Control", "no-store".toList), ("X-Content-Type-Options", "nosniff".toList)] false
  applyRequestId json response (generateRequestId source)

/-- The registered connections, in the order of their construction. -/
def registered : List Nat :=
  (List.range server.connections.sessions.length).filter
    (fun connection => connection ∈ server.connections.manager.connections)

def notifyAll (notice : Notice) : HttpServer :=
  { server with posted := server.posted ++ server.registered.map (fun connection => (connection, notice)) }

def doAccept : HttpServer :=
  if server.stopped || server.draining || !server.acceptorOpen then server
  else { server with accepting := true }

def doBeginDraining : HttpServer :=
  if server.draining || server.stopped then server
  else ({ server with draining := true, acceptorOpen := false } : HttpServer).notifyAll .drain

def doStop : HttpServer :=
  if server.stopped then server
  else ({ server with draining := true, stopped := true, acceptorOpen := false } : HttpServer).notifyAll .stop

/-- The handler at the front of the strand returns. -/
def finished : HttpServer := { server with strand := server.strand.tail, registering := none }

/-- Up to the call of ConnectionManager::start, if the accept handler makes it. -/
def handleAccept (client : Option (List Char)) (source : RequestIdSource) :
    HttpServer × List ServerAction :=
  match client with
  | none => (server.finished.doAccept, [])
  | some peerIp =>
    if server.stopped || server.draining then (server.finished.doAccept, [.socketClosed])
    else if server.connections.manager.full then
      (server.finished.doAccept,
        [.rejected (if server.tls then none else some (rejectConnection json source))])
    else
      let (connections, actions) := server.connections.construct server.tls peerIp
      ({ server with
        connections := connections
        registering := some server.connections.sessions.length }, actions.map .connection)

def handle (handler : Handler) (source : RequestIdSource) : HttpServer × List ServerAction :=
  match handler with
  | .start => (if server.stopped then server.finished else server.finished.doAccept, [])
  | .accepted client => server.handleAccept json client source
  | .beginDraining => (server.finished.doBeginDraining, [])
  | .stop => (server.finished.doStop, [])

/-- The rest of the accept handler. A session that is not registered is stopped. -/
def register (connection : Nat) : HttpServer × List ServerAction :=
  let inserted := (server.connections.manager.start connection).1
  let (connections, actions) := server.connections.register connection
  let server := { server with
    connections := connections
    posted := server.posted ++ [(connection, if inserted then Notice.start else .stop)] }
  (server.finished.doAccept, actions.map .connection)

def handleSession (connection : Nat) (event : SessionEvent) : Option (HttpServer × List ServerAction) :=
  (server.connections.handle json limits connection event).map (fun result =>
    ({ server with connections := result.1 }, result.2.map .connection))

/-- What is dispatched to one session is delivered in order. -/
def nextNotice (connection : Nat) : Option Notice :=
  (server.posted.find? (fun notice => notice.1 = connection)).map Prod.snd

def step : ServerEvent → Option (HttpServer × List ServerAction)
  | .accepted client =>
    if server.accepting then
      some ({ server with accepting := false, strand := server.strand ++ [.accepted client] }, [])
    else none
  | .handled source =>
    match server.registering, server.strand with
    | none, handler :: _ => some (server.handle json handler source)
    | _, _ => none
  | .registered => server.registering.map server.register
  | .notified connection =>
    match server.nextNotice connection with
    | none => none
    | some notice => ({ server with posted := server.posted.erase (connection, notice) } :
        HttpServer).handleSession json limits connection notice.event
  | .session connection event =>
    if event.isCompletion then server.handleSession json limits connection event else none

end HttpServer

/-! ## ServerApplication -/

/-- How far the shutdown thread has come. -/
inductive Shutdown where
  | notStarted
  | waiting
  /-- wait_until_idle has returned true. -/
  | drained
  /-- wait_until_idle has returned false and do_stop is dispatched. -/
  | forcing
  | forced
  | workersStopped (drained : Bool)
  | contextStopped (drained : Bool)
  deriving DecidableEq, Repr

structure ServerApplication where
  server : HttpServer
  stopping : Bool := false
  shutdown : Shutdown := .notStarted

inductive ApplicationEvent where
  | server (event : ServerEvent)
  | stop
  /-- wait_until_empty finds the set empty. -/
  | idle
  /-- wait_until_empty finds a connection when the grace period is over. -/
  | expired
  /-- force_stop_and_wait returns, whatever it has found. -/
  | forceAwaited
  | workersStopped
  | contextStopped

namespace ServerApplication

/-- A server whose acceptor listens and whose first accept is dispatched. -/
def running (tls : Bool) (manager : ConnectionManager) : ServerApplication :=
  { server := { tls := tls, connections := .empty manager, strand := [.start] } }

variable (json : JsonLibrary) (limits : HttpLimits) (application : ServerApplication)

def stop : ServerApplication :=
  if application.stopping then application
  else
    { server := { application.server with strand := application.server.strand ++ [.beginDraining] }
      stopping := true
      shutdown := .waiting }

def step : ApplicationEvent → Option (ServerApplication × List ServerAction)
  | .server event => (application.server.step json limits event).map (fun result =>
      ({ application with server := result.1 }, result.2))
  | .stop => some (application.stop, [])
  | .idle =>
    if application.shutdown = .waiting ∧ application.server.connections.manager.connections = ∅ then
      some ({ application with shutdown := .drained }, [])
    else none
  | .expired =>
    if application.shutdown = .waiting ∧ application.server.connections.manager.connections ≠ ∅ then
      some ({ application with
        shutdown := .forcing
        server := { application.server with strand := application.server.strand ++ [.stop] } }, [])
    else none
  | .forceAwaited =>
    if application.shutdown = .forcing then some ({ application with shutdown := .forced }, []) else none
  | .workersStopped =>
    match application.shutdown with
    | .drained => some ({ application with shutdown := .workersStopped true }, [])
    | .forced => some ({ application with shutdown := .workersStopped false }, [])
    | _ => none
  | .contextStopped =>
    match application.shutdown with
    | .workersStopped drained => some ({ application with shutdown := .contextStopped drained }, [])
    | _ => none

end ServerApplication

end SecureCore

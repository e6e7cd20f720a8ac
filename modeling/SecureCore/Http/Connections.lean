import Mathlib.Data.Finset.Card
import SecureCore.Http.SessionTwins

/-! # The connections of a server

All sessions of a server, the ConnectionManager in which they are registered and the
MetricsRegistry to which they report. -/

set_option autoImplicit false

namespace SecureCore

/-! ## MetricsRegistry -/

structure MetricsRegistry where
  httpRequestsInFlight : Nat := 0
  httpConnectionsActive : Nat := 0
  httpConnectionsOpenedTotal : Nat := 0
  httpRequestsTotal : Nat := 0
  httpResponses2xx : Nat := 0
  httpResponses3xx : Nat := 0
  httpResponses4xx : Nat := 0
  httpResponses5xx : Nat := 0
  httpRequestDurationMicrosecondsTotal : Nat := 0
  deriving DecidableEq, Repr

namespace MetricsRegistry

variable (metrics : MetricsRegistry)

def requestStarted : MetricsRegistry :=
  { metrics with httpRequestsInFlight := metrics.httpRequestsInFlight + 1 }

/-- The gauge stays at zero instead of wrapping around. -/
def requestFinished : MetricsRegistry :=
  if metrics.httpRequestsInFlight != 0 then
    { metrics with httpRequestsInFlight := metrics.httpRequestsInFlight - 1 }
  else metrics

def recordHttpResponse (statusCode elapsed : Nat) : MetricsRegistry :=
  let metrics := { metrics with httpRequestsTotal := metrics.httpRequestsTotal + 1 }
  let metrics :=
    if 200 ≤ statusCode && statusCode < 300 then
      { metrics with httpResponses2xx := metrics.httpResponses2xx + 1 }
    else if 300 ≤ statusCode && statusCode < 400 then
      { metrics with httpResponses3xx := metrics.httpResponses3xx + 1 }
    else if 400 ≤ statusCode && statusCode < 500 then
      { metrics with httpResponses4xx := metrics.httpResponses4xx + 1 }
    else if 500 ≤ statusCode && statusCode < 600 then
      { metrics with httpResponses5xx := metrics.httpResponses5xx + 1 }
    else metrics
  { metrics with
    httpRequestDurationMicrosecondsTotal := metrics.httpRequestDurationMicrosecondsTotal + elapsed }

def connectionOpened : MetricsRegistry :=
  { metrics with
    httpConnectionsActive := metrics.httpConnectionsActive + 1
    httpConnectionsOpenedTotal := metrics.httpConnectionsOpenedTotal + 1 }

/-- The gauge stays at zero instead of wrapping around. -/
def connectionClosed : MetricsRegistry :=
  if metrics.httpConnectionsActive != 0 then
    { metrics with httpConnectionsActive := metrics.httpConnectionsActive - 1 }
  else metrics

def update : MetricUpdate → MetricsRegistry
  | .connectionOpened => metrics.connectionOpened
  | .connectionClosed => metrics.connectionClosed
  | .requestStarted => metrics.requestStarted
  | .requestFinished => metrics.requestFinished
  | .httpResponse statusCode elapsed => metrics.recordHttpResponse statusCode elapsed

def updateAll (updates : List MetricUpdate) : MetricsRegistry := updates.foldl update metrics

end MetricsRegistry

def metricUpdate : Action → Option MetricUpdate
  | .metric update => some update
  | _ => none

/-! ## ConnectionManager -/

/-- Connections are named by the order in which they were constructed. -/
structure ConnectionManager where
  maxConnections : Nat
  connections : Finset Nat
  deriving DecidableEq

namespace ConnectionManager

def create (maxConnections : Nat) : Except Exception ConnectionManager :=
  if maxConnections = 0 then
    .error (.invalidArgument "max_connections must be greater than zero")
  else .ok ⟨maxConnections, ∅⟩

variable (manager : ConnectionManager)

/-- Whether the connection was inserted, and so started. -/
def start (connection : Nat) : Bool × ConnectionManager :=
  if manager.maxConnections ≤ manager.connections.card then (false, manager)
  else (connection ∉ manager.connections,
    { manager with connections := insert connection manager.connections })

def remove (connection : Nat) : ConnectionManager :=
  { manager with connections := manager.connections.erase connection }

def full : Bool := manager.maxConnections ≤ manager.connections.card

theorem create_capacity {maxConnections : Nat} {manager : ConnectionManager}
    (h : create maxConnections = .ok manager) : 0 < manager.maxConnections := by
  simp only [create] at h
  split_ifs at h with hZero
  cases h
  exact Nat.pos_of_ne_zero hZero

theorem create_empty {maxConnections : Nat} {manager : ConnectionManager}
    (h : create maxConnections = .ok manager) : manager.connections = ∅ := by
  simp only [create] at h
  split_ifs at h
  cases h
  rfl

end ConnectionManager

/-! ## Sessions of both classes -/

/-- A session with the address that its constructor has found. -/
inductive ServerSession where
  | http (peerIp : List Char) (session : Session HttpSession.Phase)
  | https (peerIp : List Char) (session : Session TlsHttpSession.Phase)
  deriving DecidableEq

namespace ServerSession

def construct (tls : Bool) (peerIp : List Char) : ServerSession :=
  if tls then .https peerIp TlsHttpSession.created else .http peerIp HttpSession.created

def state : ServerSession → SessionState
  | .http _ session => session.toSessionState
  | .https _ session => session.toSessionState

variable (json : JsonLibrary) (limits : HttpLimits)

def step : ServerSession → SessionEvent → Option (ServerSession × List Action)
  | .http peerIp session, e => (HttpSession.step json limits peerIp session e).map
      (fun result => (.http peerIp result.1, result.2))
  | .https peerIp session, e => (TlsHttpSession.step json limits peerIp session e).map
      (fun result => (.https peerIp result.1, result.2))

end ServerSession

/-! ## The connections -/

structure Connections where
  manager : ConnectionManager
  metrics : MetricsRegistry
  sessions : List ServerSession
  deriving DecidableEq

inductive ConnectionEvent where
  /-- A session is constructed. -/
  | constructed (tls : Bool) (peerIp : List Char)
  /-- ConnectionManager::start. -/
  | registered (connection : Nat)
  | session (connection : Nat) (event : SessionEvent)

inductive ConnectionAction where
  | started (connection : Nat)
  | refused (connection : Nat)
  | acted (connection : Nat) (action : Action)
  deriving DecidableEq

namespace Connections

def empty (manager : ConnectionManager) : Connections := ⟨manager, {}, []⟩

/-- What the action of a session does to the manager and to the metrics. -/
def perform (connection : Nat) (connections : Connections) : Action → Connections
  | .metric update => { connections with metrics := connections.metrics.update update }
  | .removed => { connections with manager := connections.manager.remove connection }
  | _ => connections

variable (json : JsonLibrary) (limits : HttpLimits) (connections : Connections)

def construct (tls : Bool) (peerIp : List Char) : Connections × List ConnectionAction :=
  let connection := connections.sessions.length
  let opened : Action := .metric .connectionOpened
  (perform connection
    { connections with sessions := connections.sessions ++ [.construct tls peerIp] } opened,
    [.acted connection opened])

def register (connection : Nat) : Connections × List ConnectionAction :=
  let (inserted, manager) := connections.manager.start connection
  ({ connections with manager := manager },
    [if inserted then .started connection else .refused connection])

def handle (connection : Nat) (event : SessionEvent) : Option (Connections × List ConnectionAction) :=
  match connections.sessions[connection]? with
  | none => none
  | some session =>
    match session.step json limits event with
    | none => none
    | some (session, actions) =>
      some (actions.foldl (perform connection)
          { connections with sessions := connections.sessions.set connection session },
        actions.map (.acted connection))

def step : ConnectionEvent → Option (Connections × List ConnectionAction)
  | .constructed tls peerIp => some (connections.construct tls peerIp)
  | .registered connection =>
    if connection < connections.sessions.length then some (connections.register connection) else none
  | .session connection event => connections.handle json limits connection event

/-! ## What the steps do -/

theorem perform_all (connection : Nat) (actions : List Action) (s : Connections) :
    (actions.foldl (perform connection) s).sessions = s.sessions ∧
      (actions.foldl (perform connection) s).metrics =
        s.metrics.updateAll (actions.filterMap metricUpdate) ∧
      (actions.foldl (perform connection) s).manager.maxConnections = s.manager.maxConnections ∧
      (actions.foldl (perform connection) s).manager.connections ⊆ s.manager.connections := by
  induction actions generalizing s with
  | nil => exact ⟨rfl, rfl, rfl, subset_rfl⟩
  | cons action actions ih =>
    obtain ⟨hSessions, hMetrics, hMax, hConnections⟩ := ih (perform connection s action)
    rw [List.foldl_cons, hSessions, hMetrics, hMax]
    cases action with
    | removed => exact ⟨rfl, rfl, rfl, hConnections.trans (Finset.erase_subset _ _)⟩
    | _ => exact ⟨rfl, rfl, rfl, hConnections⟩

/-- A session that handles an event updates the metrics and at most leaves the manager. -/
structure Handled (json : JsonLibrary) (limits : HttpLimits) (connection : Nat) (event : SessionEvent)
    (s s' : Connections)
    (session session' : ServerSession) (actions : List Action) : Prop where
  found : s.sessions[connection]? = some session
  step : session.step json limits event = some (session', actions)
  sessions : s'.sessions = s.sessions.set connection session'
  metrics : s'.metrics = s.metrics.updateAll (actions.filterMap metricUpdate)
  capacity : s'.manager.maxConnections = s.manager.maxConnections
  connections : s'.manager.connections ⊆ s.manager.connections

theorem handle_cases {json : JsonLibrary} {limits : HttpLimits} {connection : Nat}
    {event : SessionEvent} {s s' : Connections} {acted : List ConnectionAction}
    (h : s.handle json limits connection event = some (s', acted)) :
    ∃ session session' actions, acted = actions.map (.acted connection) ∧
      Handled json limits connection event s s' session session' actions := by
  simp only [handle] at h
  cases hSession : s.sessions[connection]? with
  | none =>
    rw [hSession] at h
    cases h
  | some session =>
    rw [hSession] at h
    dsimp only at h
    cases hStep : session.step json limits event with
    | none =>
      rw [hStep] at h
      cases h
    | some result =>
      rw [hStep] at h
      simp only [Option.some.injEq, Prod.mk.injEq] at h
      obtain ⟨rfl, rfl⟩ := h
      obtain ⟨hSessions, hMetrics, hMax, hConnections⟩ := perform_all connection result.2
        { s with sessions := s.sessions.set connection result.1 }
      exact ⟨session, result.1, result.2, rfl, hSession, hStep, hSessions, hMetrics, hMax, hConnections⟩

theorem mem_register {s : Connections} {connection other : Nat}
    (h : other ∈ (s.register connection).1.manager.connections) :
    other = connection ∨ other ∈ s.manager.connections := by
  simp only [register, ConnectionManager.start] at h
  split_ifs at h
  · exact .inr h
  · exact Finset.mem_insert.mp h

theorem register_bounded (s : Connections) (connection : Nat)
    (h : s.manager.connections.card ≤ s.manager.maxConnections) :
    (s.register connection).1.manager.maxConnections = s.manager.maxConnections ∧
      (s.register connection).1.manager.connections.card ≤ s.manager.maxConnections := by
  simp only [register, ConnectionManager.start]
  split_ifs with hFull
  · exact ⟨rfl, h⟩
  · constructor
    · rfl
    · have hCard := Finset.card_insert_le connection s.manager.connections
      change (insert connection s.manager.connections).card ≤ _
      omega

end Connections

end SecureCore

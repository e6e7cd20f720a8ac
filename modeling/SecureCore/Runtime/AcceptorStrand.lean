import SecureCore.Runtime.ServerApplication

/-! # The strand of the server

What one step of a server can do, and in which order draining and stopping come up. -/

set_option autoImplicit false

namespace SecureCore

open Transition

variable {json : JsonLibrary} {limits : HttpLimits}

/-- Whether the handler belongs to the shutdown of the server. -/
def Handler.control : Handler → Bool
  | .beginDraining | .stop => true
  | _ => false

/-- Whether the handler may register a connection. -/
def Handler.admits : Handler → Bool
  | .accepted (some _) => true
  | _ => false

namespace HttpServer

/-- The session event that an event of the server is, for one connection. -/
def sessionEvent (server : HttpServer) (connection : Nat) : ServerEvent → Option SessionEvent
  | .notified other =>
    if other = connection then (server.nextNotice connection).map Notice.event else none
  | .session other event => if other = connection then some event else none
  | _ => none

section frame

variable (server : HttpServer)

theorem doAccept_eq : server.doAccept = { server with accepting := server.doAccept.accepting } := by
  simp only [doAccept]
  split <;> rfl

@[simp] theorem doAccept_connections : server.doAccept.connections = server.connections := by
  rw [doAccept_eq]

@[simp] theorem doAccept_draining : server.doAccept.draining = server.draining := by rw [doAccept_eq]

@[simp] theorem doAccept_stopped : server.doAccept.stopped = server.stopped := by rw [doAccept_eq]

@[simp] theorem doAccept_strand : server.doAccept.strand = server.strand := by rw [doAccept_eq]

@[simp] theorem doAccept_registering : server.doAccept.registering = server.registering := by
  rw [doAccept_eq]

@[simp] theorem doAccept_posted : server.doAccept.posted = server.posted := by rw [doAccept_eq]

@[simp] theorem doAccept_tls : server.doAccept.tls = server.tls := by rw [doAccept_eq]

@[simp] theorem doBeginDraining_connections : server.doBeginDraining.connections = server.connections := by
  simp only [doBeginDraining]
  split <;> rfl

@[simp] theorem doStop_connections : server.doStop.connections = server.connections := by
  simp only [doStop]
  split <;> rfl

end frame

/-- What a step of a server does. -/
inductive Effect (json : JsonLibrary) (limits : HttpLimits) (server : HttpServer) :
    ServerEvent → List ServerAction → HttpServer → Prop
  | accepted {client : Option (List Char)} : Effect json limits server (.accepted client) []
      { server with accepting := false, strand := server.strand ++ [.accepted client] }
  | returned {source : RequestIdSource} {handler : Handler} {rest : List Handler}
      {actions : List ServerAction} (hIdle : server.registering = none)
      (hStrand : server.strand = handler :: rest) (hControl : handler.control = false)
      (hRefused : handler.admits = true → server.draining = true ∨ server.stopped = true ∨
        server.connections.manager.full = true)
      (hActions : ∀ action, .connection action ∉ actions) :
      Effect json limits server (.handled source) actions server.finished.doAccept
  | constructed {source : RequestIdSource} {peerIp : List Char} {rest : List Handler}
      (hIdle : server.registering = none) (hStrand : server.strand = .accepted (some peerIp) :: rest)
      (hOpen : server.draining = false ∧ server.stopped = false) :
      Effect json limits server (.handled source)
        ((server.connections.construct server.tls peerIp).2.map .connection)
        { server with
          connections := (server.connections.construct server.tls peerIp).1
          registering := some server.connections.sessions.length }
  | drained {source : RequestIdSource} {rest : List Handler} (hIdle : server.registering = none)
      (hStrand : server.strand = .beginDraining :: rest) :
      Effect json limits server (.handled source) [] server.finished.doBeginDraining
  | stopped {source : RequestIdSource} {rest : List Handler} (hIdle : server.registering = none)
      (hStrand : server.strand = .stop :: rest) :
      Effect json limits server (.handled source) [] server.finished.doStop
  | registered {connection : Nat} (hRegistering : server.registering = some connection) :
      Effect json limits server .registered (server.register connection).2 (server.register connection).1
  | session {event : ServerEvent} {connection : Nat} {sessionEvent : SessionEvent}
      {posted : List (Nat × Notice)} {connections : Connections} {acted : List ConnectionAction}
      (hEvent : ∀ other, server.sessionEvent other event =
        if connection = other then some sessionEvent else none)
      (hHandle : server.connections.handle json limits connection sessionEvent = some (connections, acted)) :
      Effect json limits server event (acted.map .connection)
        { server with connections := connections, posted := posted }

theorem handle_passive (server : HttpServer) {handler : Handler} (hAdmits : handler.admits = false)
    (hControl : handler.control = false) (source : RequestIdSource) :
    (server.handle json handler source).1 = server.finished.doAccept := by
  cases handler with
  | start => cases hStopped : server.stopped <;> simp [handle, doAccept, finished, hStopped]
  | accepted client =>
    cases client with
    | none => rfl
    | some peerIp => cases hAdmits
  | beginDraining => cases hControl
  | stop => cases hControl

theorem handle_effect (server : HttpServer) {handler : Handler} {rest : List Handler}
    (hIdle : server.registering = none) (hStrand : server.strand = handler :: rest)
    (source : RequestIdSource) : Effect json limits server (.handled source)
      (server.handle json handler source).2 (server.handle json handler source).1 := by
  cases handler with
  | start =>
    rw [handle_passive server rfl rfl]
    exact .returned hIdle hStrand rfl (by simp [Handler.admits]) (by simp [handle])
  | accepted client =>
    cases client with
    | none => exact .returned hIdle hStrand rfl (by simp [Handler.admits]) (by simp [handle, handleAccept])
    | some peerIp =>
      simp only [handle, handleAccept]
      split
      · rename_i hClosed
        rw [Bool.or_eq_true] at hClosed
        apply Effect.returned hIdle hStrand rfl
        · exact fun _ => hClosed.elim (fun h => .inr (.inl h)) .inl
        · simp
      · rename_i hOpen
        rw [Bool.or_eq_true, not_or, Bool.not_eq_true, Bool.not_eq_true] at hOpen
        split
        · rename_i hFull
          exact .returned hIdle hStrand rfl (fun _ => .inr (.inr hFull)) (by simp)
        · exact .constructed hIdle hStrand hOpen.symm
  | beginDraining => exact .drained hIdle hStrand
  | stop => exact .stopped hIdle hStrand

theorem step_effect {server server' : HttpServer} {event : ServerEvent} {actions : List ServerAction}
    (h : server.step json limits event = some (server', actions)) :
    Effect json limits server event actions server' := by
  cases event with
  | accepted client =>
    simp only [step] at h
    split at h
    · cases h
      exact .accepted
    · cases h
  | handled source =>
    simp only [step] at h
    split at h
    · rename_i handler rest hIdle hStrand
      obtain ⟨rfl, rfl⟩ := Prod.mk.inj (Option.some.inj h)
      exact handle_effect server hIdle hStrand source
    · cases h
  | registered =>
    obtain ⟨connection, hRegistering, hEq⟩ := Option.map_eq_some_iff.mp h
    cases hEq
    exact .registered hRegistering
  | notified connection =>
    simp only [step] at h
    cases hNotice : server.nextNotice connection with
    | none =>
      rw [hNotice] at h
      cases h
    | some notice =>
      rw [hNotice] at h
      obtain ⟨⟨connections, acted⟩, hHandle, hEq⟩ := Option.map_eq_some_iff.mp h
      cases hEq
      have hEvent : ∀ other, server.sessionEvent other (.notified connection) =
          if connection = other then some notice.event else none := by
        intro other
        simp only [sessionEvent]
        split_ifs with hSame
        · subst hSame
          rw [hNotice]
          rfl
        · rfl
      exact .session hEvent hHandle
  | session connection event =>
    simp only [step] at h
    split at h
    · obtain ⟨⟨connections, acted⟩, hHandle, hEq⟩ := Option.map_eq_some_iff.mp h
      cases hEq
      exact .session (fun _ => rfl) hHandle
    · cases h

theorem doBeginDraining_of_open {server : HttpServer} (hDraining : server.draining = false)
    (hStopped : server.stopped = false) : server.doBeginDraining =
      { server with
        draining := true
        acceptorOpen := false
        posted := server.posted ++ server.registered.map (fun connection => (connection, .drain)) } := by
  simp only [doBeginDraining, hDraining, hStopped, Bool.or_self, Bool.false_eq_true, if_false]
  rfl

theorem doStop_of_open {server : HttpServer} (hStopped : server.stopped = false) : server.doStop =
    { server with
      draining := true
      stopped := true
      acceptorOpen := false
      posted := server.posted ++ server.registered.map (fun connection => (connection, .stop)) } := by
  simp only [doStop, hStopped, Bool.false_eq_true, if_false]
  rfl

end HttpServer

/-! ## The order of draining and stopping -/

/-- do_stop has been dispatched. -/
def Shutdown.forces : Shutdown → Bool
  | .forcing | .forced | .workersStopped false | .contextStopped false => true
  | _ => false

/-- Which shutdown handlers are still queued. -/
inductive Controls : (stopping forces draining stopped : Bool) → List Handler → Prop
  | running : Controls false false false false []
  | asked : Controls true false false false [.beginDraining]
  | askedForced : Controls true true false false [.beginDraining, .stop]
  | draining : Controls true false true false []
  | drainingForced : Controls true true true false [.stop]
  | stopped : Controls true true true true []

namespace Controls

variable {stopping forces draining stopped : Bool} {rest : List Handler}

theorem drain (h : Controls stopping forces draining stopped (.beginDraining :: rest)) :
    draining = false ∧ stopped = false ∧ Controls stopping forces true false rest := by
  cases h with
  | asked => exact ⟨rfl, rfl, .draining⟩
  | askedForced => exact ⟨rfl, rfl, .drainingForced⟩

theorem stop (h : Controls stopping forces draining stopped (.stop :: rest)) :
    stopped = false ∧ Controls stopping forces true true rest := by
  cases h with
  | drainingForced => exact ⟨rfl, .stopped⟩

theorem ask (h : Controls false forces draining stopped rest) :
    Controls true forces draining stopped (rest ++ [.beginDraining]) := by
  cases h with
  | running => exact .asked

theorem force (h : Controls true false draining stopped rest) :
    Controls true true draining stopped (rest ++ [.stop]) := by
  cases h with
  | asked => exact .askedForced
  | draining => exact .drainingForced

theorem stop_notMem (h : Controls stopping false draining stopped rest) : .stop ∉ rest := by
  cases h <;> simp

theorem not_stopped (h : Controls stopping forces false stopped rest) : stopped = false := by
  cases h <;> rfl

end Controls

namespace HttpServer

/-- What the application has asked for, the handlers have done in that order, and the
accept handler registers only while neither has been done. -/
structure Orderly (stopping forces : Bool) (server : HttpServer) : Prop where
  controls : Controls stopping forces server.draining server.stopped
    (server.strand.filter Handler.control)
  registering : ∀ connection, server.registering = some connection →
    server.draining = false ∧ server.stopped = false ∧
      connection < server.connections.sessions.length ∧
      ∃ peerIp rest, server.strand = .accepted (some peerIp) :: rest
  known : ∀ connection ∈ server.connections.manager.connections,
    connection < server.connections.sessions.length

section orderly

variable {stopping forces : Bool} {server server' : HttpServer}

theorem Orderly.finished_passive (h : Orderly stopping forces server) {handler : Handler}
    {rest : List Handler} (hStrand : server.strand = handler :: rest) (hControl : handler.control = false) :
    Orderly stopping forces server.finished.doAccept := by
  constructor
  · have hControls := h.controls
    rw [hStrand, List.filter_cons_of_neg (by simp [hControl])] at hControls
    simpa [finished, hStrand] using hControls
  · intro connection hRegistering
    simp [finished] at hRegistering
  · simpa [finished] using h.known

theorem Orderly.step (h : Orderly stopping forces server) {event : ServerEvent}
    {actions : List ServerAction} (hEffect : Effect json limits server event actions server') :
    Orderly stopping forces server' := by
  cases hEffect with
  | accepted =>
    constructor
    · rw [List.filter_append]
      simpa [Handler.control] using h.controls
    · intro connection hRegistering
      obtain ⟨hDraining, hStopped, hKnown, peerIp, rest, hStrand⟩ := h.registering connection hRegistering
      exact ⟨hDraining, hStopped, hKnown, peerIp, _, by rw [hStrand, List.cons_append]⟩
    · exact h.known
  | returned hIdle hStrand hControl hRefused hActions => exact h.finished_passive hStrand hControl
  | constructed hIdle hStrand hOpen =>
    constructor
    · exact h.controls
    · rintro connection hRegistering
      cases hRegistering
      refine ⟨hOpen.1, hOpen.2, ?_, _, _, hStrand⟩
      simp [Connections.construct, Connections.perform]
    · intro connection hConnection
      have hKnown := h.known connection hConnection
      simp only [Connections.construct, Connections.perform, List.length_append]
      omega
  | drained hIdle hStrand =>
    have hControls := h.controls
    rw [hStrand, List.filter_cons_of_pos rfl] at hControls
    obtain ⟨hDraining, hStopped, hRest⟩ := hControls.drain
    rw [doBeginDraining_of_open (by exact hDraining) (by exact hStopped)]
    constructor
    · simpa [finished, hStrand, hStopped] using hRest
    · intro connection hRegistering
      simp [finished] at hRegistering
    · exact h.known
  | stopped hIdle hStrand =>
    have hControls := h.controls
    rw [hStrand, List.filter_cons_of_pos rfl] at hControls
    obtain ⟨hStopped, hRest⟩ := hControls.stop
    rw [doStop_of_open (by exact hStopped)]
    constructor
    · simpa [finished, hStrand] using hRest
    · intro connection hRegistering
      simp [finished] at hRegistering
    · exact h.known
  | @registered connection hRegistering =>
    obtain ⟨hDraining, hStopped, hKnown, peerIp, rest, hStrand⟩ := h.registering connection hRegistering
    constructor
    · have hControls := h.controls
      rw [hStrand, List.filter_cons_of_neg (by simp [Handler.control])] at hControls
      simpa [register, finished, hStrand] using hControls
    · intro other hOther
      simp [register, finished] at hOther
    · intro other hOther
      simp only [register, finished, doAccept_connections] at hOther ⊢
      obtain rfl | hOld := Connections.mem_register hOther
      · exact hKnown
      · exact h.known other hOld
  | session hEvent hHandle =>
    obtain ⟨session, session', acts, -, hHandled⟩ := Connections.handle_cases hHandle
    constructor
    · exact h.controls
    · intro connection hRegistering
      rw [hHandled.sessions, List.length_set]
      exact h.registering connection hRegistering
    · intro connection hConnection
      rw [hHandled.sessions, List.length_set]
      exact h.known connection (hHandled.connections hConnection)

theorem Orderly.post {stopping' forces' : Bool} (h : Orderly stopping forces server) {handler : Handler}
    (hControls : Controls stopping' forces' server.draining server.stopped
      ((server.strand ++ [handler]).filter Handler.control)) :
    Orderly stopping' forces' { server with strand := server.strand ++ [handler] } := by
  constructor
  · exact hControls
  · intro connection hRegistering
    obtain ⟨hDraining, hStopped, hKnown, peerIp, rest, hStrand⟩ := h.registering connection hRegistering
    exact ⟨hDraining, hStopped, hKnown, peerIp, _, by rw [hStrand, List.cons_append]⟩
  · exact h.known

end orderly

end HttpServer

namespace ServerApplication

/-- The steps of the shutdown thread that touch nothing else. -/
inductive Moves : Shutdown → ApplicationEvent → Shutdown → Prop
  | idle : Moves .waiting .idle .drained
  | forceAwaited : Moves .forcing .forceAwaited .forced
  | drainedWorkers : Moves .drained .workersStopped (.workersStopped true)
  | forcedWorkers : Moves .forced .workersStopped (.workersStopped false)
  | contextStopped {drained : Bool} :
      Moves (.workersStopped drained) .contextStopped (.contextStopped drained)

theorem Moves.forces {shutdown shutdown' : Shutdown} {event : ApplicationEvent}
    (h : Moves shutdown event shutdown') : shutdown.forces = shutdown'.forces := by
  cases h with
  | @contextStopped drained => cases drained <;> rfl
  | _ => rfl

theorem Moves.begun {shutdown shutdown' : Shutdown} {event : ApplicationEvent}
    (h : Moves shutdown event shutdown') : shutdown = .notStarted ↔ shutdown' = .notStarted := by
  cases h <;> simp

theorem Moves.ne_server {shutdown shutdown' : Shutdown} {event : ApplicationEvent}
    (h : Moves shutdown event shutdown') (own : ServerEvent) : event ≠ .server own := by
  rintro rfl
  cases h

/-- What a step of the application does. -/
inductive Effect (json : JsonLibrary) (limits : HttpLimits) (application : ServerApplication) :
    ApplicationEvent → List ServerAction → ServerApplication → Prop
  | server {event : ServerEvent} {actions : List ServerAction} {server : HttpServer}
      (hEffect : application.server.Effect json limits event actions server) :
      Effect json limits application (.server event) actions { application with server := server }
  | again (hStopping : application.stopping = true) :
      Effect json limits application .stop [] application
  | asked (hStopping : application.stopping = false) : Effect json limits application .stop []
      { server := { application.server with strand := application.server.strand ++ [.beginDraining] }
        stopping := true
        shutdown := .waiting }
  | expired (hWaiting : application.shutdown = .waiting)
      (hBusy : application.server.connections.manager.connections ≠ ∅) :
      Effect json limits application .expired []
        { application with
          shutdown := .forcing
          server := { application.server with strand := application.server.strand ++ [.stop] } }
  | moved {event : ApplicationEvent} {shutdown : Shutdown}
      (hMoves : Moves application.shutdown event shutdown)
      (hIdle : event = .idle → application.server.connections.manager.connections = ∅) :
      Effect json limits application event [] { application with shutdown := shutdown }

theorem step_effect {application application' : ServerApplication} {event : ApplicationEvent}
    {actions : List ServerAction}
    (h : application.step json limits event = some (application', actions)) :
    Effect json limits application event actions application' := by
  cases event with
  | server event =>
    obtain ⟨⟨server, actions'⟩, hOwn, hEq⟩ := Option.map_eq_some_iff.mp h
    cases hEq
    exact .server (HttpServer.step_effect hOwn)
  | stop =>
    cases h
    simp only [stop]
    split
    · rename_i hStopping
      exact .again hStopping
    · rename_i hStopping
      exact .asked (by simpa using hStopping)
  | idle =>
    simp only [step] at h
    split at h
    · rename_i hWaiting
      cases h
      exact .moved (hWaiting.1 ▸ .idle) (fun _ => hWaiting.2)
    · cases h
  | expired =>
    simp only [step] at h
    split at h
    · rename_i hWaiting
      cases h
      exact .expired hWaiting.1 hWaiting.2
    · cases h
  | forceAwaited =>
    simp only [step] at h
    split at h
    · rename_i hForcing
      cases h
      exact .moved (hForcing ▸ .forceAwaited) nofun
    · cases h
  | workersStopped =>
    simp only [step] at h
    split at h
    · rename_i hShutdown
      cases h
      exact .moved (hShutdown ▸ .drainedWorkers) nofun
    · rename_i hShutdown
      cases h
      exact .moved (hShutdown ▸ .forcedWorkers) nofun
    · cases h
  | contextStopped =>
    simp only [step] at h
    split at h
    · rename_i drained hShutdown
      cases h
      exact .moved (hShutdown ▸ .contextStopped) nofun
    · cases h

structure Orderly (application : ServerApplication) : Prop where
  server : application.server.Orderly application.stopping application.shutdown.forces
  begun : application.stopping = false ↔ application.shutdown = .notStarted

theorem orderly_running (tls : Bool) {manager : ConnectionManager} (hManager : manager.connections = ∅) :
    (running tls manager).Orderly := by
  constructor
  · constructor
    · exact .running
    · intro connection hRegistering
      cases hRegistering
    · intro connection hConnection
      simp [running, Connections.empty, hManager] at hConnection
  · simp [running]

theorem Orderly.step {application application' : ServerApplication} (h : application.Orderly)
    {event : ApplicationEvent} {actions : List ServerAction}
    (hEffect : Effect json limits application event actions application') :
    application'.Orderly := by
  cases hEffect with
  | server hEffect => exact ⟨h.server.step hEffect, h.begun⟩
  | again => exact h
  | asked hStopping =>
    have hControls := h.server.controls
    rw [hStopping, h.begun.mp hStopping] at hControls
    constructor
    · apply h.server.post
      rw [List.filter_append]
      exact hControls.ask
    · simp
  | expired hWaiting hBusy =>
    have hServer := h.server
    have hBegun := h.begun
    rw [hWaiting] at hServer hBegun
    have hStopping : application.stopping = true := by simpa using hBegun
    have hControls := hServer.controls
    rw [hStopping] at hControls
    constructor
    · apply hServer.post
      rw [List.filter_append, hStopping]
      exact hControls.force
    · simpa using hBegun
  | moved hMoves hIdle =>
    have hServer := h.server
    rw [hMoves.forces] at hServer
    exact ⟨hServer, h.begun.trans hMoves.begun⟩

end ServerApplication

end SecureCore

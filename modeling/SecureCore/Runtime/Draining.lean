import SecureCore.Http.SessionDraining
import SecureCore.Runtime.AcceptorStrand

/-! # Draining a server

What the sessions of a server do is a run of each of them, so that the promises of a
session hold in every run of the server. -/

set_option autoImplicit false

namespace SecureCore

open Transition

variable {json : JsonLibrary} {limits : HttpLimits}

abbrev ServerHistory := List (Entry ServerApplication ApplicationEvent ServerAction)

/-! ## The history of one session -/

def ServerAction.ofConnection (connection : Nat) : ServerAction → Option Action
  | .connection (.acted other action) => if other = connection then some action else none
  | _ => none

def sessionEntry (connection : Nat) (e : Entry ServerApplication ApplicationEvent ServerAction) :
    Option (Entry ServerSession SessionEvent Action) :=
  match e.input with
  | .server event =>
    match e.before.server.sessionEvent connection event,
        e.before.server.connections.sessions[connection]?,
        e.after.server.connections.sessions[connection]? with
    | some sessionEvent, some before, some after =>
      some ⟨before, sessionEvent, e.outputs.filterMap (ServerAction.ofConnection connection), after⟩
    | _, _, _ => none
  | _ => none

def sessionHistory (connection : Nat) (history : ServerHistory) : SessionHistory :=
  history.filterMap (sessionEntry connection)

/-- What a step of the server is for one connection. -/
inductive Projection (json : JsonLibrary) (limits : HttpLimits) (connection : Nat)
    (e : Entry ServerApplication ApplicationEvent ServerAction) : Prop
  | unchanged (hEntry : sessionEntry connection e = none)
      (hSame : e.after.server.connections.sessions[connection]? =
        e.before.server.connections.sessions[connection]?)
  | constructed {tls : Bool} {peerIp : List Char} (hEntry : sessionEntry connection e = none)
      (hBefore : e.before.server.connections.sessions.length = connection)
      (hAfter : e.after.server.connections.sessions[connection]? = some (.construct tls peerIp))
  | stepped {session session' : ServerSession} {event : SessionEvent} {actions : List Action}
      (hEntry : sessionEntry connection e = some ⟨session, event, actions, session'⟩)
      (hBefore : e.before.server.connections.sessions[connection]? = some session)
      (hAfter : e.after.server.connections.sessions[connection]? = some session')
      (hStep : session.step json limits event = some (session', actions))

theorem filterMap_ofConnection (connection : Nat) (actions : List Action) :
    ((actions.map (ConnectionAction.acted connection)).map ServerAction.connection).filterMap
      (ServerAction.ofConnection connection) = actions := by
  rw [List.filterMap_map, List.filterMap_map]
  simp only [Function.comp_def, ServerAction.ofConnection, if_true]
  exact List.filterMap_some

theorem sessionEntry_of_none {connection : Nat} {e : Entry ServerApplication ApplicationEvent ServerAction}
    {event : ServerEvent} (hInput : e.input = .server event)
    (hEvent : e.before.server.sessionEvent connection event = none) : sessionEntry connection e = none := by
  simp only [sessionEntry, hInput, hEvent]

theorem projection {before after : ServerApplication} {event : ApplicationEvent}
    {actions : List ServerAction} (hEffect : before.Effect json limits event actions after)
    (connection : Nat) : Projection json limits connection ⟨before, event, actions, after⟩ := by
  cases hEffect with
  | again hStopping => exact .unchanged rfl rfl
  | asked hStopping => exact .unchanged rfl rfl
  | expired hWaiting hBusy => exact .unchanged rfl rfl
  | moved hMoves hIdle =>
    apply Projection.unchanged
    · cases event with
      | server own => exact absurd rfl (hMoves.ne_server own)
      | _ => rfl
    · rfl
  | server hEffect =>
    cases hEffect with
    | accepted => exact .unchanged (sessionEntry_of_none rfl rfl) rfl
    | returned hIdle hStrand hControl hRefused hActions =>
      apply Projection.unchanged (sessionEntry_of_none rfl rfl)
      rw [HttpServer.doAccept_connections]
      rfl
    | drained hIdle hStrand =>
      apply Projection.unchanged (sessionEntry_of_none rfl rfl)
      rw [HttpServer.doBeginDraining_connections]
      rfl
    | stopped hIdle hStrand =>
      apply Projection.unchanged (sessionEntry_of_none rfl rfl)
      rw [HttpServer.doStop_connections]
      rfl
    | registered hRegistering =>
      apply Projection.unchanged (sessionEntry_of_none rfl rfl)
      simp only [HttpServer.register, HttpServer.doAccept_connections]
      rfl
    | @constructed source peerIp rest hIdle hStrand hOpen =>
      have hSessions : ∀ server : HttpServer,
          (server.connections.construct server.tls peerIp).1.sessions =
            server.connections.sessions ++ [.construct server.tls peerIp] := fun _ => rfl
      obtain rfl | hOther := eq_or_ne before.server.connections.sessions.length connection
      · have hAfter : (before.server.connections.construct before.server.tls peerIp).1.sessions[
            before.server.connections.sessions.length]? =
              some (.construct before.server.tls peerIp) := by
          rw [hSessions]
          exact List.getElem?_concat_length
        exact .constructed (sessionEntry_of_none rfl rfl) rfl hAfter
      · apply Projection.unchanged (sessionEntry_of_none rfl rfl)
        dsimp only
        rw [hSessions]
        obtain hOld | hLater := Nat.lt_or_gt_of_ne hOther.symm
        · exact List.getElem?_append_left hOld
        · rw [List.getElem?_eq_none hLater.le, List.getElem?_eq_none]
          rw [List.length_append]
          exact hLater
    | @session event other sessionEvent posted connections acted hEvent hHandle =>
      obtain ⟨session, session', acts, rfl, hHandled⟩ := Connections.handle_cases hHandle
      have hFound := hHandled.found
      obtain ⟨hBound, -⟩ := List.getElem?_eq_some_iff.mp hFound
      obtain rfl | hOther := eq_or_ne other connection
      · have hAfter : connections.sessions[other]? = some session' := by
          rw [hHandled.sessions]
          exact List.getElem?_set_self hBound
        apply Projection.stepped _ hFound hAfter hHandled.step
        simp only [sessionEntry, hEvent, if_true, hFound, hAfter, filterMap_ofConnection]
      · apply Projection.unchanged
        · apply sessionEntry_of_none rfl
          rw [hEvent, if_neg hOther]
        · dsimp only
          rw [hHandled.sessions, List.getElem?_set_ne hOther]

section runs

variable {tls : Bool} {manager : ConnectionManager} {history : ServerHistory} {s : ServerApplication}

/-- The history of a session is a run of that session. -/
theorem run_session
    (hRun : Run (partialStep (ServerApplication.step json limits)) (.running tls manager) history s)
    (connection : Nat) : (s.server.connections.sessions.length ≤ connection →
        sessionHistory connection history = []) ∧
      ∀ session, s.server.connections.sessions[connection]? = some session → ∃ tls peerIp,
        Run (partialStep (ServerSession.step json limits)) (.construct tls peerIp)
          (sessionHistory connection history) session := by
  induction hRun with
  | nil =>
    constructor
    · exact fun _ => rfl
    · intro session hSession
      simp [ServerApplication.running, Connections.empty] at hSession
  | @cons e older hOlder hStep ih =>
    obtain ⟨hNone, hSome⟩ := ih
    have hCons : sessionHistory connection (e :: older) =
        (sessionEntry connection e).toList ++ sessionHistory connection older := by
      simp only [sessionHistory, List.filterMap_cons]
      cases sessionEntry connection e <;> rfl
    have hProjection := projection (ServerApplication.step_effect hStep) connection
    rw [hCons]
    cases hProjection with
    | unchanged hEntry hSame =>
      rw [hEntry]
      constructor
      · intro hLength
        have hAfter := List.getElem?_eq_none hLength
        exact hNone (List.getElem?_eq_none_iff.mp (hSame.symm.trans hAfter))
      · intro session hSession
        exact hSome session (hSame.symm.trans hSession)
    | @constructed tls peerIp hEntry hBefore hAfter =>
      obtain ⟨hBound, -⟩ := List.getElem?_eq_some_iff.mp hAfter
      rw [hEntry, hNone hBefore.le]
      constructor
      · exact fun hLength => absurd hBound (Nat.not_lt.mpr hLength)
      · intro session hSession
        cases hAfter.symm.trans hSession
        exact ⟨tls, peerIp, .nil⟩
    | stepped hEntry hBefore hAfter hOwn =>
      obtain ⟨hBound, -⟩ := List.getElem?_eq_some_iff.mp hAfter
      obtain ⟨tls, peerIp, hOwnRun⟩ := hSome _ hBefore
      rw [hEntry]
      constructor
      · exact fun hLength => absurd hBound (Nat.not_lt.mpr hLength)
      · intro session hSession
        cases hAfter.symm.trans hSession
        exact ⟨tls, peerIp, .cons hOwnRun hOwn⟩

theorem run_orderly (hManager : manager.connections = ∅)
    (hRun : Run (partialStep (ServerApplication.step json limits)) (.running tls manager) history s) :
    s.Orderly := by
  apply hRun.invariant (ServerApplication.orderly_running tls hManager)
  intro s e actions s' hOrderly hStep
  exact hOrderly.step (ServerApplication.step_effect hStep)

end runs

/-! ## No connection comes later -/

namespace HttpServer

variable {server server' : HttpServer} {event : ServerEvent} {actions : List ServerAction}

theorem Effect.draining (h : server.Effect json limits event actions server')
    (hDraining : server.draining = true) : server'.draining = true := by
  cases h with
  | returned => rw [doAccept_draining]; exact hDraining
  | drained =>
    simp only [doBeginDraining]
    split
    · exact hDraining
    · rfl
  | stopped =>
    simp only [doStop]
    split
    · exact hDraining
    · rfl
  | registered =>
    simp only [register, doAccept_draining]
    exact hDraining
  | _ => exact hDraining

theorem Effect.connections {stopping forces : Bool} (h : server.Effect json limits event actions server')
    (hOrderly : server.Orderly stopping forces) (hDraining : server.draining = true) :
    server'.connections.manager.connections ⊆ server.connections.manager.connections := by
  cases h with
  | accepted => exact subset_rfl
  | returned => rw [doAccept_connections]; exact subset_rfl
  | constructed => exact subset_rfl
  | drained => rw [doBeginDraining_connections]; exact subset_rfl
  | stopped => rw [doStop_connections]; exact subset_rfl
  | registered hRegistering =>
    have hOpen := (hOrderly.registering _ hRegistering).1
    rw [hDraining] at hOpen
    cases hOpen
  | session hEvent hHandle =>
    obtain ⟨_, _, _, -, hHandled⟩ := Connections.handle_cases hHandle
    exact hHandled.connections

end HttpServer

namespace ServerApplication

variable {s s' : ServerApplication} {event : ApplicationEvent} {actions : List ServerAction}

theorem Effect.draining (h : s.Effect json limits event actions s') (hDraining : s.server.draining = true) :
    s'.server.draining = true := by
  cases h with
  | server hEffect => exact hEffect.draining hDraining
  | _ => exact hDraining

theorem Effect.connections (h : s.Effect json limits event actions s') (hOrderly : s.Orderly)
    (hDraining : s.server.draining = true) :
    s'.server.connections.manager.connections ⊆ s.server.connections.manager.connections := by
  cases h with
  | server hEffect => exact hEffect.connections hOrderly.server hDraining
  | _ => exact subset_rfl

end ServerApplication

/-! ## Every run -/

/-- The step runs do_begin_draining. -/
def StartsDraining (e : Entry ServerApplication ApplicationEvent ServerAction) : Prop :=
  (∃ source, e.input = .server (.handled source)) ∧
    ∃ rest, e.before.server.strand = .beginDraining :: rest

structure Drained (json : JsonLibrary) (history : ServerHistory) : Prop where
  told : ∀ e ∈ history, StartsDraining e →
    ∀ connection ∈ e.before.server.connections.manager.connections,
      (connection, .drain) ∈ e.after.server.posted
  closed : ∀ newer e older, history = newer ++ e :: older → StartsDraining e → ∀ e' ∈ newer,
    e'.after.server.connections.manager.connections ⊆ e'.before.server.connections.manager.connections
  /-- From its do_drain on every session obeys. -/
  obeyed : ∀ connection later e older, sessionHistory connection history = later ++ e :: older →
    e.input = .drain → DrainObeyed json later

theorem turn_drain {stage stage' : Stage} {d d' : Bool} {actions : List Action}
    (h : Turn json stage d .drain actions stage' d') : d' = true ∨ stage' = .closed := by
  cases h with
  | drained hStage => exact .inl rfl
  | _ => exact .inr rfl

theorem ServerSession.run_at (hJson : json.Documented) {stage : Stage} {session session' : ServerSession}
    (hAt : session.At stage) {history : SessionHistory}
    (hRun : Run (partialStep (ServerSession.step json limits)) session history session') :
    ∃ stage', session'.At stage' := by
  apply hRun.invariant ⟨stage, hAt⟩
  rintro s e actions s' ⟨stage, hAt⟩ hStep
  obtain ⟨stage', hAt', -⟩ := step_turn hJson hAt hStep
  exact ⟨stage', hAt'⟩

namespace ServerApplication

section runs

variable {tls : Bool} {manager : ConnectionManager} {history : ServerHistory} {s : ServerApplication}

/-- What do_begin_draining does when it runs. -/
theorem startsDraining_effect {e : Entry ServerApplication ApplicationEvent ServerAction}
    (hOrderly : e.before.Orderly) (hStep : e.before.step json limits e.input = some (e.after, e.outputs))
    (hStarts : StartsDraining e) : e.after.server.draining = true ∧
      ∀ connection ∈ e.before.server.connections.manager.connections,
        (connection, .drain) ∈ e.after.server.posted := by
  obtain ⟨before, input, outputs, after⟩ := e
  obtain ⟨⟨source, hInput⟩, rest, hStrand⟩ := hStarts
  dsimp only at hInput hStrand hStep hOrderly ⊢
  subst hInput
  have hControls := hOrderly.server.controls
  rw [hStrand, List.filter_cons_of_pos rfl] at hControls
  obtain ⟨hDraining, hStopped, -⟩ := hControls.drain
  have hIdle : before.server.registering = none := by
    cases hRegistering : before.server.registering with
    | none => rfl
    | some connection =>
      obtain ⟨-, -, -, peerIp, rest', hAccept⟩ := hOrderly.server.registering _ hRegistering
      cases hStrand.symm.trans hAccept
  simp only [step, HttpServer.step, hIdle, hStrand, HttpServer.handle, Option.map_some,
    Option.some.injEq, Prod.mk.injEq] at hStep
  obtain ⟨rfl, -⟩ := hStep
  rw [HttpServer.doBeginDraining_of_open (by exact hDraining) (by exact hStopped)]
  constructor
  · rfl
  · intro connection hConnection
    apply List.mem_append_right
    apply List.mem_map.mpr
    refine ⟨connection, ?_, rfl⟩
    apply List.mem_filter.mpr
    exact ⟨List.mem_range.mpr (hOrderly.server.known connection hConnection), decide_eq_true hConnection⟩

theorem run_keeps_draining {s' : ServerApplication} (hDraining : s.server.draining = true)
    (hRun : Run (partialStep (step json limits)) s history s') : s'.server.draining = true := by
  induction hRun with
  | nil => exact hDraining
  | cons hOlder hStep ih => exact (step_effect hStep).draining ih

theorem run_draining (hJson : json.Documented) {maxConnections : Nat}
    (hManager : ConnectionManager.create maxConnections = .ok manager)
    (hRun : Run (partialStep (step json limits)) (running tls manager) history s) :
    Drained json history := by
  have hEmpty := ConnectionManager.create_empty hManager
  have hOrderly : ∀ newer e older, history = newer ++ e :: older → e.before.Orderly ∧
      e.before.step json limits e.input = some (e.after, e.outputs) ∧
        Run (partialStep (step json limits)) e.after newer s := by
    rintro newer e older rfl
    obtain ⟨hOlder, hStep, hNewer⟩ := hRun.at_entry
    exact ⟨run_orderly hEmpty hOlder, hStep, hNewer⟩
  constructor
  · intro e he hStarts
    obtain ⟨newer, older, hHistory⟩ := List.append_of_mem he
    obtain ⟨hBefore, hStep, -⟩ := hOrderly newer e older hHistory
    exact (startsDraining_effect hBefore hStep hStarts).2
  · intro newer e older hHistory hStarts e' he'
    obtain ⟨hBefore, hStep, hNewer⟩ := hOrderly newer e older hHistory
    obtain ⟨hDraining, -⟩ := startsDraining_effect hBefore hStep hStarts
    obtain ⟨latest, between, rfl⟩ := List.append_of_mem he'
    obtain ⟨hBetween, hStep', -⟩ := hNewer.at_entry
    obtain ⟨hBefore', -, -⟩ := hOrderly latest e' (between ++ e :: older) (by rw [hHistory]; simp)
    have hDraining' := run_keeps_draining hDraining hBetween
    exact (step_effect hStep').connections hBefore' hDraining'
  · intro connection later e older hHistory hDrain
    cases hSession : s.server.connections.sessions[connection]? with
    | none =>
      have hNone := (run_session hRun connection).1 (List.getElem?_eq_none_iff.mp hSession)
      rw [hNone] at hHistory
      simp at hHistory
    | some session =>
      obtain ⟨tls, peerIp, hOwn⟩ := (run_session hRun connection).2 session hSession
      rw [hHistory] at hOwn
      obtain ⟨hOlder, hStep, hLater⟩ := hOwn.at_entry
      obtain ⟨stage, hAt⟩ := ServerSession.run_at hJson (ServerSession.at_construct tls peerIp) hOlder
      obtain ⟨stage', hAt', hTurn⟩ := ServerSession.step_turn hJson hAt hStep
      rw [hDrain] at hTurn
      exact ServerSession.run_drained hJson ⟨hAt', turn_drain hTurn⟩ hLater

end runs

end ServerApplication

namespace Sample

/-- A client is being answered when the server is told to stop. It asks once more, is
refused, and the server ends. -/
def lastWords : List ApplicationEvent :=
  let source : RequestIdSource := calmServer.sessionId
  [.server (.handled source), .server (.accepted (some proxyPeer)), .server (.handled source),
    .server .registered, .server (.notified 0), .server (.session 0 (.read (.ok brokenLogin) calmServer)),
    .server (.session 0 (.completed emptyAnswer)), .stop, .server (.handled source),
    .server (.notified 0), .server (.session 0 (.written false none)),
    .server (.session 0 (.read (.ok brokenLogin) calmServer)), .server (.session 0 (.written true none)),
    .idle, .workersStopped, .contextStopped]

end Sample

theorem ServerApplication.run_draining_sample : ∃ history s,
    trace (ServerApplication.step Sample.compactJson Sample.httpLimits) (.running false ⟨1, ∅⟩)
        Sample.lastWords [] = some (history, s) ∧ s.shutdown = .contextStopped true ∧
      Drained Sample.compactJson history := by
  have hSome : (trace (ServerApplication.step Sample.compactJson Sample.httpLimits)
      (.running false ⟨1, ∅⟩) Sample.lastWords []).map (fun result => result.2.shutdown) =
        some (.contextStopped true) := by
    decide +kernel
  obtain ⟨⟨history, s⟩, hTrace, hShutdown⟩ := Option.map_eq_some_iff.mp hSome
  have hManager : ConnectionManager.create 1 = .ok ⟨1, ∅⟩ := rfl
  exact ⟨history, s, hTrace, hShutdown,
    ServerApplication.run_draining Sample.compactJson_documented hManager (run_of_trace .nil hTrace)⟩

end SecureCore

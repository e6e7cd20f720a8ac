import SecureCore.Http.Connections

/-! # The gauges of the metrics registry

Every increment of a gauge belongs to one session, and the session pays it back exactly once. -/

set_option autoImplicit false

namespace SecureCore

open Transition

variable {json : JsonLibrary}

namespace MetricsRegistry

variable (metrics : MetricsRegistry)

/-- The update is a decrement and finds its gauge at zero. -/
def saturates : MetricUpdate → Bool
  | .connectionClosed => metrics.httpConnectionsActive == 0
  | .requestFinished => metrics.httpRequestsInFlight == 0
  | _ => false

/-- No decrement among the updates finds its gauge at zero. -/
def Exact (updates : List MetricUpdate) : Prop :=
  ∀ earlier next later, updates = earlier ++ next :: later → (metrics.updateAll earlier).saturates next = false

variable {metrics}

theorem updateAll_append (first second : List MetricUpdate) :
    metrics.updateAll (first ++ second) = (metrics.updateAll first).updateAll second :=
  List.foldl_append

theorem exact_nil : metrics.Exact [] := by
  intro earlier next later h
  simp at h

theorem exact_cons {next : MetricUpdate} {rest : List MetricUpdate} :
    metrics.Exact (next :: rest) ↔ metrics.saturates next = false ∧ (metrics.update next).Exact rest := by
  constructor
  · intro h
    constructor
    · exact h [] next rest rfl
    · intro earlier later' rest' hRest
      exact h (next :: earlier) later' rest' (by rw [hRest]; rfl)
  · rintro ⟨hNext, hRest⟩ earlier next' later h
    cases earlier with
    | nil =>
      cases h
      exact hNext
    | cons first earlier =>
      cases h
      exact hRest earlier next' later rfl

theorem exact_of_increments {updates : List MetricUpdate}
    (h : ∀ next ∈ updates, next ≠ .connectionClosed ∧ next ≠ .requestFinished) : metrics.Exact updates := by
  rintro earlier next later rfl
  have hNext := h next (by simp)
  cases next <;> simp [saturates] at hNext ⊢

theorem exact_append {first second : List MetricUpdate} (hFirst : metrics.Exact first)
    (hSecond : (metrics.updateAll first).Exact second) : metrics.Exact (first ++ second) := by
  induction first generalizing metrics with
  | nil => exact hSecond
  | cons next rest ih =>
    obtain ⟨hNext, hRest⟩ := exact_cons.mp hFirst
    exact exact_cons.mpr ⟨hNext, ih hRest hSecond⟩

@[simp] theorem recordHttpResponse_active (statusCode elapsed : Nat) :
    (metrics.recordHttpResponse statusCode elapsed).httpConnectionsActive =
      metrics.httpConnectionsActive := by
  simp only [recordHttpResponse]
  split_ifs <;> rfl

@[simp] theorem recordHttpResponse_requests (statusCode elapsed : Nat) :
    (metrics.recordHttpResponse statusCode elapsed).httpRequestsInFlight =
      metrics.httpRequestsInFlight := by
  simp only [recordHttpResponse]
  split_ifs <;> rfl

end MetricsRegistry

/-! ## The share of one session -/

def Stage.live (stage : Stage) : Nat := if stage = .closed then 0 else 1

/-- The updates trade one share of the two gauges for another. -/
structure Trades (metrics : MetricsRegistry) (updates : List MetricUpdate) (stage stage' : Stage) : Prop where
  exact : metrics.Exact updates
  active : (metrics.updateAll updates).httpConnectionsActive + stage.live =
    metrics.httpConnectionsActive + stage'.live
  requests : (metrics.updateAll updates).httpRequestsInFlight + stage.asked =
    metrics.httpRequestsInFlight + stage'.asked

section turns

variable {metrics : MetricsRegistry} {stage stage' : Stage}

theorem trades_finished (hRequests : stage.asked ≤ metrics.httpRequestsInFlight) :
    metrics.Exact ((finished stage.active).filterMap metricUpdate) ∧
      metrics.updateAll ((finished stage.active).filterMap metricUpdate) =
        { metrics with httpRequestsInFlight := metrics.httpRequestsInFlight - stage.asked } := by
  cases hActive : stage.active with
  | false =>
    constructor
    · exact MetricsRegistry.exact_nil
    · simp [Stage.asked, hActive, finished, MetricsRegistry.updateAll]
  | true =>
    have hPositive : metrics.httpRequestsInFlight ≠ 0 := by
      simp only [Stage.asked, hActive, if_true] at hRequests
      omega
    constructor
    · apply MetricsRegistry.exact_cons.mpr
      exact ⟨by simp [MetricsRegistry.saturates, hPositive], MetricsRegistry.exact_nil⟩
    · simp [Stage.asked, hActive, finished, metricUpdate, MetricsRegistry.updateAll,
        MetricsRegistry.update, MetricsRegistry.requestFinished, hPositive]

theorem turn_trades {d d' : Bool} {e : SessionEvent} {actions : List Action}
    (h : Turn json stage d e actions stage' d') (hActive : stage.live ≤ metrics.httpConnectionsActive)
    (hRequests : stage.asked ≤ metrics.httpRequestsInFlight) :
    Trades metrics (actions.filterMap metricUpdate) stage stage' := by
  cases h with
  | left hOpen hEvent =>
    obtain ⟨hExact, hAll⟩ := trades_finished hRequests
    have hLive : stage.live = 1 := if_neg hOpen
    have hPositive : metrics.httpConnectionsActive ≠ 0 := by omega
    have hUpdates : (disconnected stage.active).filterMap metricUpdate =
        (finished stage.active).filterMap metricUpdate ++ [.connectionClosed] := List.filterMap_append
    rw [hUpdates]
    constructor
    · apply MetricsRegistry.exact_append hExact
      rw [hAll]
      exact MetricsRegistry.exact_cons.mpr
        ⟨by simp [MetricsRegistry.saturates, hPositive], MetricsRegistry.exact_nil⟩
    · rw [MetricsRegistry.updateAll_append, hAll, hLive]
      simp only [MetricsRegistry.updateAll, List.foldl_cons, List.foldl_nil, MetricsRegistry.update,
        MetricsRegistry.connectionClosed, bne_iff_ne, ne_eq, hPositive, not_false_eq_true, if_true,
        Stage.live]
      omega
    · rw [MetricsRegistry.updateAll_append, hAll]
      simp only [MetricsRegistry.updateAll, List.foldl_cons, List.foldl_nil, MetricsRegistry.update,
        MetricsRegistry.connectionClosed, bne_iff_ne, ne_eq, hPositive, not_false_eq_true, if_true]
      change _ = metrics.httpRequestsInFlight + 0
      omega
  | parted hStage =>
    obtain ⟨hExact, hAll⟩ := trades_finished hRequests
    have hUpdates : ∀ timeout,
        (finished stage.active ++ [Action.shutdownStarted timeout]).filterMap metricUpdate =
        (finished stage.active).filterMap metricUpdate := by
      intro timeout
      rw [List.filterMap_append]
      exact List.append_nil _
    have hLive : stage.live = 1 := by cases stage <;> first | rfl | cases hStage
    rw [hUpdates]
    constructor
    · exact hExact
    · rw [hAll, hLive]
      rfl
    · rw [hAll]
      change _ = metrics.httpRequestsInFlight + 0
      exact Nat.sub_add_cancel hRequests
  | continued =>
    obtain ⟨hExact, hAll⟩ := trades_finished hRequests
    constructor
    · exact hExact
    · exact congrArg (fun m => m.httpConnectionsActive + 1) hAll
    · rw [show ([Action.metric .requestFinished, .readStarted _ _ _].filterMap metricUpdate) =
        (finished (Stage.answering false).active).filterMap metricUpdate from rfl, hAll]
      exact Nat.sub_add_cancel hRequests
  | asked hAllowed => exact ⟨MetricsRegistry.exact_of_increments (by simp [metricUpdate]), rfl, rfl⟩
  | overloaded hAllowed hResult hLast =>
    constructor
    · exact MetricsRegistry.exact_of_increments (by simp [metricUpdate])
    · exact congrArg (· + 1) (MetricsRegistry.recordHttpResponse_active _ 0)
    · exact MetricsRegistry.recordHttpResponse_requests _ 0
  | rejected hForbidden hError =>
    constructor
    · exact MetricsRegistry.exact_of_increments (by simp [metricUpdate])
    · exact congrArg (· + 1) (MetricsRegistry.recordHttpResponse_active _ 0)
    · exact MetricsRegistry.recordHttpResponse_requests _ 0
  | protested hError =>
    constructor
    · exact MetricsRegistry.exact_of_increments (by simp [metricUpdate])
    · exact congrArg (· + 1) (MetricsRegistry.recordHttpResponse_active _ 0)
    · exact MetricsRegistry.recordHttpResponse_requests _ 0
  | _ => exact ⟨MetricsRegistry.exact_nil, rfl, rfl⟩

end turns

/-! ## Whether a request is pending -/

/-- What an event of a session does to the request that was pending; of the session
itself only the stop before and after the event counts. -/
def leavesPending (stoppedBefore stoppedAfter pending : Bool) : SessionEvent → Bool
  | .read (.ok _) _ => !stoppedBefore
  | .written _ none => false
  | _ => pending && !stoppedAfter

theorem turn_pending {stage stage' : Stage} {d d' : Bool} {e : SessionEvent} {actions : List Action}
    (h : Turn json stage d e actions stage' d') :
    stage'.active = leavesPending (stage = .closed) (stage' = .closed) stage.active e := by
  cases h with
  | left hOpen hEvent =>
    cases e with
    | read result met =>
      cases result with
      | ok request => exact absurd rfl (hEvent request met)
      | error error => simp [leavesPending, Stage.active]
    | written shouldClose error => cases error <;> simp [leavesPending, Stage.active]
    | _ => simp [leavesPending, Stage.active]
  | late =>
    cases e with
    | read result met => cases result <;> simp [leavesPending, Stage.active]
    | written shouldClose error => cases error <;> simp [leavesPending, Stage.active]
    | _ => simp [leavesPending, Stage.active]
  | restarted hStage => cases stage <;> rfl
  | drained hStage => cases stage <;> rfl
  | _ => rfl

/-! ## Every session of a server -/

namespace ServerSession

inductive At : Stage → ServerSession → Prop
  | http {stage : Stage} {peerIp : List Char} {session : Session HttpSession.Phase}
      (h : HttpSession.At stage session) : At stage (.http peerIp session)
  | https {stage : Stage} {peerIp : List Char} {session : Session TlsHttpSession.Phase}
      (h : TlsHttpSession.At stage session) : At stage (.https peerIp session)

theorem At.state {stage : Stage} {session : ServerSession} (h : session.At stage) :
    session.state.At stage := by
  cases h with
  | http h => exact h.state
  | https h => exact h.state

theorem at_construct (tls : Bool) (peerIp : List Char) : (construct tls peerIp).At .fresh := by
  cases tls with
  | false => exact .http .fresh
  | true => exact .https .fresh

theorem step_turn (hJson : json.Documented) {limits : HttpLimits} {stage : Stage}
    {session session' : ServerSession} {e : SessionEvent} {actions : List Action}
    (hAt : session.At stage) (hStep : session.step json limits e = some (session', actions)) :
    ∃ stage', session'.At stage' ∧
      Turn json stage session.state.draining e actions stage' session'.state.draining := by
  cases hAt with
  | http hAt =>
    obtain ⟨⟨s', actions'⟩, hOwn, hEq⟩ := Option.map_eq_some_iff.mp hStep
    cases hEq
    obtain ⟨stage', hAt', hTurn⟩ := HttpSession.step_turn hJson hAt hOwn
    exact ⟨stage', .http hAt', hTurn⟩
  | https hAt =>
    obtain ⟨⟨s', actions'⟩, hOwn, hEq⟩ := Option.map_eq_some_iff.mp hStep
    cases hEq
    obtain ⟨stage', hAt', hTurn⟩ := TlsHttpSession.step_turn hJson hAt hOwn
    exact ⟨stage', .https hAt', hTurn⟩

end ServerSession

namespace ConnectionAction

def metricUpdate : ConnectionAction → Option MetricUpdate
  | .acted _ action => SecureCore.metricUpdate action
  | _ => none

end ConnectionAction

namespace Connections

/-! ## The invariant -/

abbrev History := List (Entry Connections ConnectionEvent ConnectionAction)

def stopped (s : Connections) (connection : Nat) : Bool :=
  (s.sessions[connection]?).any (fun session => session.state.stopped)

/-- The last request that the session has read successfully has neither been completely
written nor been cut off by a stop. -/
def requestPending (connection : Nat) : History → Bool
  | [] => false
  | e :: older =>
    match e.input with
    | .session other event =>
      if other = connection then
        leavesPending (e.before.stopped connection) (e.after.stopped connection)
          (requestPending connection older) event
      else requestPending connection older
    | _ => requestPending connection older

def metricUpdates (history : History) : List MetricUpdate :=
  (outputs history).filterMap ConnectionAction.metricUpdate

structure Counted (maxConnections : Nat) (history : History) (s : Connections) : Prop where
  capacity : s.manager.maxConnections = maxConnections
  bounded : s.manager.connections.card ≤ maxConnections
  stages : ∀ session ∈ s.sessions, ∃ stage, session.At stage
  active : s.metrics.httpConnectionsActive = s.sessions.countP (fun session => !session.state.stopped)
  requests : s.metrics.httpRequestsInFlight = s.sessions.countP (fun session => session.state.requestActive)
  pending : ∀ connection, requestPending connection history =
    (s.sessions[connection]?).any (fun session => session.state.requestActive)
  metrics : s.metrics = MetricsRegistry.updateAll {} (metricUpdates history)
  exact : MetricsRegistry.Exact {} (metricUpdates history)

theorem metricUpdates_acted (connection : Nat) (actions : List Action) :
    (actions.map (ConnectionAction.acted connection)).filterMap ConnectionAction.metricUpdate =
      actions.filterMap metricUpdate := by
  rw [List.filterMap_map]
  rfl

theorem stopped_at {s : Connections} {connection : Nat} {session : ServerSession} {stage : Stage}
    (hSession : s.sessions[connection]? = some session) (hAt : session.At stage) :
    s.stopped connection = decide (stage = .closed) := by
  rw [stopped, hSession, Bool.eq_iff_iff, decide_eq_true_eq]
  exact hAt.state.stopped

theorem share {session : ServerSession} {stage : Stage} (h : session.At stage) :
    (if !session.state.stopped then 1 else 0) = stage.live ∧
      (if session.state.requestActive then 1 else 0) = stage.asked := by
  have hState := h.state
  constructor
  · by_cases hClosed : stage = .closed
    · simp [Stage.live, hClosed, hState.stopped.mpr hClosed]
    · have hOpen : session.state.stopped = false := by
        rw [Bool.eq_false_iff]
        exact fun hStopped => hClosed (hState.stopped.mp hStopped)
      simp [Stage.live, hClosed, hOpen]
  · rw [hState.active, Stage.asked]

theorem metricUpdates_cons (e : Entry Connections ConnectionEvent ConnectionAction) (older : History) :
    metricUpdates (e :: older) =
      metricUpdates older ++ e.outputs.filterMap ConnectionAction.metricUpdate := by
  rw [metricUpdates, outputs_cons, List.filterMap_append]
  rfl

/-- The share of one session lies below the sum of all. -/
theorem Counted.share_le {maxConnections : Nat} {history : History} {s : Connections}
    (h : Counted maxConnections history s) {connection : Nat} {session : ServerSession} {stage : Stage}
    (hSession : s.sessions[connection]? = some session) (hAt : session.At stage) :
    stage.live ≤ s.metrics.httpConnectionsActive ∧ stage.asked ≤ s.metrics.httpRequestsInFlight := by
  obtain ⟨hBound, rfl⟩ := List.getElem?_eq_some_iff.mp hSession
  obtain ⟨hLive, hAsked⟩ := share hAt
  rw [h.active, h.requests, ← hLive, ← hAsked]
  constructor
  · exact List.boole_getElem_le_countP (p := fun session => !session.state.stopped) hBound
  · exact List.boole_getElem_le_countP (p := fun session => session.state.requestActive) hBound

section steps

variable {maxConnections : Nat} {older : History} {s s' : Connections} {actions : List ConnectionAction}
  {limits : HttpLimits}

theorem Counted.constructed (h : Counted maxConnections older s) {tls : Bool} {peerIp : List Char}
    (hStep : s.step json limits (.constructed tls peerIp) = some (s', actions)) :
    Counted maxConnections (⟨s, .constructed tls peerIp, actions, s'⟩ :: older) s' := by
  simp only [step, construct, Option.some.injEq, Prod.mk.injEq] at hStep
  obtain ⟨rfl, rfl⟩ := hStep
  have hState := (ServerSession.at_construct tls peerIp).state
  have hOpen : (ServerSession.construct tls peerIp).state.stopped = false := by cases tls <;> rfl
  have hIdle : (ServerSession.construct tls peerIp).state.requestActive = false := hState.active
  have hActive := h.active
  have hRequests := h.requests
  constructor
  · exact h.capacity
  · exact h.bounded
  · intro session hSession
    obtain hOld | hNew := List.mem_append.mp hSession
    · exact h.stages session hOld
    · cases List.mem_singleton.mp hNew
      exact ⟨.fresh, ServerSession.at_construct tls peerIp⟩
  · change s.metrics.httpConnectionsActive + 1 = _
    simp only [perform, List.countP_append, List.countP_singleton, hOpen]
    simpa using hActive
  · change s.metrics.httpRequestsInFlight = _
    simp only [perform, List.countP_append, List.countP_singleton, hIdle]
    simpa using hRequests
  · intro connection
    change requestPending connection older = _
    rw [h.pending connection]
    simp only [perform]
    obtain hOld | hNew := Nat.lt_or_ge connection s.sessions.length
    · rw [List.getElem?_append_left hOld]
    · rw [List.getElem?_append_right hNew, List.getElem?_eq_none hNew]
      cases hIndex : [ServerSession.construct tls peerIp][connection - s.sessions.length]? with
      | none => rfl
      | some session =>
        cases List.mem_singleton.mp (List.mem_of_getElem? hIndex)
        exact hIdle.symm
  · rw [metricUpdates_cons, MetricsRegistry.updateAll_append, ← h.metrics]
    rfl
  · rw [metricUpdates_cons]
    apply MetricsRegistry.exact_append h.exact
    exact MetricsRegistry.exact_of_increments (by simp [ConnectionAction.metricUpdate, metricUpdate])

theorem Counted.registered (h : Counted maxConnections older s) {connection : Nat}
    (hStep : s.step json limits (.registered connection) = some (s', actions)) :
    Counted maxConnections (⟨s, .registered connection, actions, s'⟩ :: older) s' := by
  simp only [step] at hStep
  split at hStep
  · simp only [Option.some.injEq] at hStep
    obtain ⟨rfl, rfl⟩ := Prod.mk.inj hStep
    obtain ⟨hMax, hCard⟩ := register_bounded s connection (by
      rw [h.capacity]
      exact h.bounded)
    have hQuiet : ∀ inserted : Bool, [if inserted then ConnectionAction.started connection
        else .refused connection].filterMap ConnectionAction.metricUpdate = [] := by
      intro inserted
      cases inserted <;> rfl
    constructor
    · exact hMax.trans h.capacity
    · exact hCard.trans h.capacity.le
    · exact h.stages
    · exact h.active
    · exact h.requests
    · exact h.pending
    · rw [metricUpdates_cons, hQuiet, List.append_nil]
      exact h.metrics
    · rw [metricUpdates_cons, hQuiet, List.append_nil]
      exact h.exact
  · cases hStep

theorem Counted.session (hJson : json.Documented) (h : Counted maxConnections older s)
    {connection : Nat} {event : SessionEvent}
    (hStep : s.step json limits (.session connection event) = some (s', actions)) :
    Counted maxConnections (⟨s, .session connection event, actions, s'⟩ :: older) s' := by
  obtain ⟨session, session', acts, rfl, hHandled⟩ := handle_cases hStep
  have hSession := hHandled.found
  obtain ⟨stage, hAt⟩ := h.stages session (List.mem_of_getElem? hSession)
  obtain ⟨stage', hAt', hTurn⟩ := ServerSession.step_turn hJson hAt hHandled.step
  obtain ⟨hLiveLe, hAskedLe⟩ := h.share_le hSession hAt
  have hTrades := turn_trades hTurn hLiveLe hAskedLe
  obtain ⟨hBound, rfl⟩ := List.getElem?_eq_some_iff.mp hSession
  obtain ⟨hLive, hAsked⟩ := share hAt
  obtain ⟨hLive', hAsked'⟩ := share hAt'
  constructor
  · exact hHandled.capacity.trans h.capacity
  · exact (Finset.card_le_card hHandled.connections).trans h.bounded
  · intro other hOther
    rw [hHandled.sessions] at hOther
    obtain hOther | rfl := List.mem_or_eq_of_mem_set hOther
    · exact h.stages other hOther
    · exact ⟨stage', hAt'⟩
  · have hActive := hTrades.active
    have hOld := h.active
    rw [hHandled.sessions, hHandled.metrics, List.countP_set hBound, ← hOld, hLive, hLive']
    omega
  · have hRequests := hTrades.requests
    have hOld := h.requests
    rw [hHandled.sessions, hHandled.metrics, List.countP_set hBound, ← hOld, hAsked, hAsked']
    omega
  · intro other
    simp only [requestPending]
    split_ifs with hSame
    · subst hSame
      have hAfter : s'.sessions[connection]? = some session' := by
        rw [hHandled.sessions]
        exact List.getElem?_set_self hBound
      rw [stopped_at hSession hAt, stopped_at hAfter hAt', h.pending, hSession, hAfter]
      simp only [Option.any_some, hAt.state.active, hAt'.state.active]
      exact (turn_pending hTurn).symm
    · rw [hHandled.sessions, List.getElem?_set_ne hSame]
      exact h.pending other
  · rw [metricUpdates_cons, metricUpdates_acted, MetricsRegistry.updateAll_append, ← h.metrics]
    exact hHandled.metrics
  · rw [metricUpdates_cons, metricUpdates_acted]
    apply MetricsRegistry.exact_append h.exact
    rw [← h.metrics]
    exact hTrades.exact

end steps

theorem run_counted (hJson : json.Documented) {limits : HttpLimits} {manager : ConnectionManager}
    {maxConnections : Nat} (hManager : ConnectionManager.create maxConnections = .ok manager)
    {history : History} {s : Connections}
    (hRun : Run (partialStep (step json limits)) (empty manager) history s) :
    Counted maxConnections history s := by
  induction hRun with
  | nil =>
    have hEmpty : manager = ⟨maxConnections, ∅⟩ := by
      simp only [ConnectionManager.create] at hManager
      split_ifs at hManager
      cases hManager
      rfl
    subst hEmpty
    constructor
    · rfl
    · exact Nat.zero_le _
    · simp [empty]
    · rfl
    · rfl
    · exact fun _ => rfl
    · rfl
    · exact MetricsRegistry.exact_nil
  | @cons e older hOlder hStep ih =>
    obtain ⟨before, input, actions, after⟩ := e
    cases input with
    | constructed tls peerIp => exact ih.constructed hStep
    | registered connection => exact ih.registered hStep
    | session connection event => exact ih.session hJson hStep

theorem countP_range {α : Type} (l : List α) (p : α → Bool) :
    (List.range l.length).countP (fun i => (l[i]?).any p) = l.countP p := by
  induction l with
  | nil => rfl
  | cons a l ih =>
    rw [List.length_cons, List.range_succ_eq_map, List.countP_cons, List.countP_map, List.countP_cons, ← ih]
    rfl

/-! ## Every run -/

/-- The gauges tell the truth about the sessions. -/
structure GaugesAccurate (maxConnections : Nat) (history : History) (s : Connections) : Prop where
  registered : s.manager.connections.card ≤ maxConnections
  /-- Sessions constructed and not yet stopped. -/
  active : s.metrics.httpConnectionsActive = s.sessions.countP (fun session => !session.state.stopped)
  inFlight : s.metrics.httpRequestsInFlight =
    (List.range s.sessions.length).countP (fun connection => requestPending connection history)
  /-- The metrics are those of the updates so far, none of which decrements a gauge at zero. -/
  metrics : s.metrics = MetricsRegistry.updateAll {} (metricUpdates history)
  exact : MetricsRegistry.Exact {} (metricUpdates history)

theorem run_gauges (hJson : json.Documented) {limits : HttpLimits} {manager : ConnectionManager}
    {maxConnections : Nat} (hManager : ConnectionManager.create maxConnections = .ok manager)
    {history : History} {s : Connections}
    (hRun : Run (partialStep (step json limits)) (empty manager) history s) :
    GaugesAccurate maxConnections history s := by
  have hCounted := run_counted hJson hManager hRun
  constructor
  · exact hCounted.bounded
  · exact hCounted.active
  · rw [hCounted.requests, funext hCounted.pending]
    exact (countP_range s.sessions _).symm
  · exact hCounted.metrics
  · exact hCounted.exact

end Connections

namespace Sample

/-- One connection is allowed. A second one is refused, and the first is cut off at work. -/
def crowd : List ConnectionEvent :=
  [.constructed false proxyPeer, .registered 0, .session 0 .start, .constructed true proxyPeer,
    .registered 1, .session 1 .stop, .session 0 (.read (.ok brokenLogin) calmServer), .session 0 .stop,
    .session 0 (.completed emptyAnswer)]

end Sample

theorem Connections.run_gauges_sample : ∃ history s,
    trace (Connections.step Sample.compactJson Sample.httpLimits) (.empty ⟨1, ∅⟩) Sample.crowd [] =
        some (history, s) ∧ s.sessions.length = 2 ∧ Connections.GaugesAccurate 1 history s := by
  have hSome : ((trace (Connections.step Sample.compactJson Sample.httpLimits) (.empty ⟨1, ∅⟩)
      Sample.crowd []).map (fun result => result.2.sessions.length)) = some 2 := by
    decide +kernel
  obtain ⟨⟨history, s⟩, hTrace, hLength⟩ := Option.map_eq_some_iff.mp hSome
  exact ⟨history, s, hTrace, hLength,
    Connections.run_gauges Sample.compactJson_documented rfl (run_of_trace .nil hTrace)⟩

end SecureCore

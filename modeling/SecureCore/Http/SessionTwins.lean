import SecureCore.Http.SessionProtocol

/-! # Plain and TLS sessions on the same events -/

set_option autoImplicit false

namespace SecureCore

open Transition TrustedProxy

/-- What a worker makes of a task. -/
def Task.answer (json : JsonLibrary) (config : SessionConfig) (met : Surrounding) (task : Task) : Next :=
  let resolved := config.trustedProxyResolver.resolve config.text task.peerIp task.request.fields
    task.directTls
  let proxyError : Option ApiError := match resolved with
    | .error error => some ⟨error.code, error.message, []⟩
    | .ok _ => none
  let client : ResolvedClient := match resolved with
    | .error _ => ⟨task.peerIp, task.directTls, false⟩
    | .ok client => client
  let response := execute
    (defaultMiddlewares json met.middlewareId config.hstsPolicy config.corsPolicy met.rateLimit)
    ⟨task.request, client.clientIp, task.peerIp, client.secureTransport, client.usedForwardedHeaders⟩
    (terminalHandler json task.request met proxyError)
  match response with
  | .ok response => .ok response
  | .error _ => workerFailure json task.request task.requestId

section tasks

variable (json : JsonLibrary) (config : SessionConfig) (met : Surrounding) (request : HttpMessage)
  (peerIp : List Char) (requestId : String)

theorem workerTask_eq_answer : workerTask json config peerIp request met requestId =
    Task.answer json config met ⟨request, peerIp, requestId, false⟩ := rfl

theorem TlsHttpSession.workerTask_eq_answer :
    TlsHttpSession.workerTask json config peerIp request met requestId =
      Task.answer json config met ⟨request, peerIp, requestId, true⟩ := rfl

end tasks

/-! ## Twins -/

variable {json : JsonLibrary} {limits : HttpLimits} {peerIp : List Char}

/-- A plain and a TLS session that have seen the same events, with what they have done. -/
inductive Twins (limits : HttpLimits) :
    Session HttpSession.Phase → Session TlsHttpSession.Phase → List Action → List Action → Prop
  | same {stage : Stage} {s : Session HttpSession.Phase} {done : List Action}
      (hAt : HttpSession.At stage s) (hFresh : stage ≠ .fresh) :
      Twins limits s (lift s) done (done.map Action.overTls)
  /-- The TLS session has answered and shuts TLS down where the plain one has disconnected. -/
  | leaving {n : Nat} {d d' : Bool} {done before : List Action}
      (hDone : done.map Action.overTls = before ++ disconnected false) :
      Twins limits ⟨⟨n, false, d, true, true, []⟩, .stopped⟩
        ⟨⟨n, false, d', false, true, [.shutdown]⟩, .shuttingDown⟩ done
        (before ++ [.shutdownStarted limits.writeTimeout])
  | left {n : Nat} {d d' : Bool} {operations : List AsyncOperation} {done before : List Action}
      (hDone : done.map Action.overTls = before ++ disconnected false)
      (hLate : operations = [] ∨ operations = [.shutdown]) :
      Twins limits ⟨⟨n, false, d, true, true, []⟩, .stopped⟩
        ⟨⟨n, false, d', true, true, operations⟩, .stopped⟩ done
        (before ++ .shutdownStarted limits.writeTimeout :: disconnected false)

/-- Events that only a TLS session gets. -/
def SessionEvent.ofShutdown : SessionEvent → Bool
  | .shutDown _ => true
  | _ => false

abbrev PlainEntry := Entry (Session HttpSession.Phase) SessionEvent Action

abbrev TlsEntry := Entry (Session TlsHttpSession.Phase) SessionEvent Action

/-- After the closing write of an answer the plain session has gone and the TLS session leaves. -/
theorem twins_closing {stage : Stage} {s s' : Session HttpSession.Phase} {done actions : List Action}
    (hAt : HttpSession.At stage s) (hOpen : s.stopped = false)
    (h : HttpSession.step json limits peerIp s (.written true none) = some (s', actions)) :
    ∃ t' actions', TlsHttpSession.step json limits peerIp (lift s) (.written true none) =
        some (t', actions') ∧
      Twins limits s' t' (done ++ actions) (done.map Action.overTls ++ actions') := by
  have hLeaves : ∀ {n d active}, Twins limits ⟨⟨n, false, d, true, true, []⟩, .stopped⟩
      ⟨⟨n, false, d, false, true, [.shutdown]⟩, .shuttingDown⟩
      (done ++ (finished active ++ disconnected false))
      (done.map Action.overTls ++ (finished active ++ [.shutdownStarted limits.writeTimeout])) := by
    intro n d active
    rw [← List.append_assoc (done.map Action.overTls)]
    apply Twins.leaving
    rw [List.map_append, List.map_append, map_finished, map_disconnected, List.append_assoc]
  cases hAt with
  | fresh => cases h
  | listening => cases h
  | working => cases h
  | @answering n d closes =>
    cases closes with
    | false => cases h
    | true =>
      cases h
      exact ⟨_, _, rfl, @hLeaves n d true⟩
  | @refusing n d =>
    cases h
    exact ⟨_, _, rfl, @hLeaves n d false⟩
  | closed => cases hOpen

theorem turn_ne_fresh {stage stage' : Stage} {d d' : Bool} {e : SessionEvent} {actions : List Action}
    (h : Turn json stage d e actions stage' d') (hStage : stage ≠ .fresh) : stage' ≠ .fresh := by
  cases h with
  | restarted hFresh => exact hFresh
  | drained hFresh => exact hFresh.1
  | _ => simp

theorem twins_same (hJson : json.Documented) {stage : Stage} {s s' : Session HttpSession.Phase}
    {done actions : List Action} {e : SessionEvent} (hAt : HttpSession.At stage s)
    (hFresh : stage ≠ .fresh) (h : HttpSession.step json limits peerIp s e = some (s', actions)) :
    Twins limits s' (lift s') (done ++ actions)
      (done.map Action.overTls ++ actions.map Action.overTls) := by
  obtain ⟨stage', hAt', hTurn⟩ := HttpSession.step_turn hJson hAt h
  rw [← List.map_append]
  exact .same hAt' (turn_ne_fresh hTurn hFresh)

/-- A TLS session that shuts TLS down only waits for its end. -/
theorem twins_leaving {n : Nat} {d d' : Bool} {done before actions' : List Action}
    (hDone : done.map Action.overTls = before ++ disconnected false) {e : SessionEvent}
    {t' : Session TlsHttpSession.Phase}
    (h : TlsHttpSession.step json limits peerIp
      ⟨⟨n, false, d', false, true, [.shutdown]⟩, .shuttingDown⟩ e = some (t', actions')) :
    Twins limits ⟨⟨n, false, d, true, true, []⟩, .stopped⟩ t' done
      (before ++ [.shutdownStarted limits.writeTimeout] ++ actions') := by
  cases e with
  | start =>
    cases h
    rw [List.append_nil]
    exact .leaving hDone
  | drain =>
    cases d' <;> cases h <;> rw [List.append_nil] <;> exact .leaving hDone
  | stop =>
    cases h
    rw [List.append_assoc]
    exact .left hDone (.inr rfl)
  | shutDown error =>
    cases h
    rw [List.append_assoc]
    exact .left hDone (.inl rfl)
  | _ => cases h

theorem twins_left {n : Nat} {d d' : Bool} {operations : List AsyncOperation}
    {done before actions' : List Action}
    (hDone : done.map Action.overTls = before ++ disconnected false)
    (hLate : operations = [] ∨ operations = [.shutdown]) {e : SessionEvent}
    {t' : Session TlsHttpSession.Phase}
    (h : TlsHttpSession.step json limits peerIp ⟨⟨n, false, d', true, true, operations⟩, .stopped⟩ e =
      some (t', actions')) :
    Twins limits ⟨⟨n, false, d, true, true, []⟩, .stopped⟩ t' done
      (before ++ .shutdownStarted limits.writeTimeout :: disconnected false ++ actions') := by
  cases e with
  | start =>
    cases h
    rw [List.append_nil]
    exact .left hDone hLate
  | drain =>
    cases d' <;> cases h <;> rw [List.append_nil] <;> exact .left hDone hLate
  | stop =>
    cases h
    rw [List.append_nil]
    exact .left hDone hLate
  | shutDown error =>
    obtain rfl | rfl := hLate
    · cases h
    · cases h
      rw [List.append_nil]
      exact .left hDone (.inl rfl)
  | _ => obtain rfl | rfl := hLate <;> cases h

/-- A plain session that has gone takes every event that its twin can still get. -/
theorem gone_step {n : Nat} {d : Bool} {e : SessionEvent} {s' : Session HttpSession.Phase}
    {actions : List Action}
    (h : HttpSession.step json limits peerIp ⟨⟨n, false, d, true, true, []⟩, .stopped⟩ e =
      some (s', actions)) :
    s' = ⟨⟨n, false, d, true, true, []⟩, .stopped⟩ ∧ actions = [] ∧
      (e = .start ∨ e = .drain ∨ e = .stop) := by
  cases e with
  | start =>
    cases h
    exact ⟨rfl, rfl, .inl rfl⟩
  | drain => cases d <;> cases h <;> exact ⟨rfl, rfl, .inr (.inl rfl)⟩
  | stop =>
    cases h
    exact ⟨rfl, rfl, .inr (.inr rfl)⟩
  | _ => cases h

theorem gone_or_shutdown {n : Nat} {d : Bool} {t t' : Session TlsHttpSession.Phase}
    (hTls : (∃ d', t = ⟨⟨n, false, d', false, true, [.shutdown]⟩, .shuttingDown⟩) ∨
      ∃ d' operations, (operations = [] ∨ operations = [.shutdown]) ∧
        t = ⟨⟨n, false, d', true, true, operations⟩, .stopped⟩)
    {e : SessionEvent} {actions' : List Action}
    (h : TlsHttpSession.step json limits peerIp t e = some (t', actions')) :
    e.ofShutdown = true ∨ e.ofShutdown = false ∧
      HttpSession.step json limits peerIp ⟨⟨n, false, d, true, true, []⟩, .stopped⟩ e =
        some (⟨⟨n, false, d, true, true, []⟩, .stopped⟩, []) := by
  cases e with
  | start => exact .inr ⟨rfl, rfl⟩
  | drain => cases d <;> exact .inr ⟨rfl, rfl⟩
  | stop => exact .inr ⟨rfl, rfl⟩
  | shutDown error => exact .inl rfl
  | _ => obtain ⟨d', rfl⟩ | ⟨d', operations, rfl | rfl, rfl⟩ := hTls <;> cases h

/-- One event of the plain session, and the same of its twin. -/
theorem twins_step (hJson : json.Documented) {s s' : Session HttpSession.Phase}
    {t : Session TlsHttpSession.Phase} {done done' actions : List Action} {e : SessionEvent}
    (hTwins : Twins limits s t done done')
    (h : HttpSession.step json limits peerIp s e = some (s', actions)) :
    ∃ t' actions', TlsHttpSession.step json limits peerIp t e = some (t', actions') ∧
      Twins limits s' t' (done ++ actions) (done' ++ actions') := by
  cases hTwins with
  | same hAt hFresh =>
    by_cases hClosing : e = .written true none ∧ s.stopped = false
    · obtain ⟨rfl, hOpen⟩ := hClosing
      exact twins_closing hAt hOpen h
    · have hLift := TlsHttpSession.step_lift json limits peerIp s hAt (fun _ => hFresh)
        (fun hWritten => by simpa using fun hOpen => hClosing ⟨hWritten, hOpen⟩)
      rw [h] at hLift
      exact ⟨_, _, hLift, twins_same hJson hAt hFresh h⟩
  | @leaving n d d' _ before hDone =>
    obtain ⟨rfl, rfl, hEvent⟩ := gone_step h
    obtain ⟨⟨t', actions'⟩, hStep⟩ : ∃ result, TlsHttpSession.step json limits peerIp
        ⟨⟨n, false, d', false, true, [.shutdown]⟩, .shuttingDown⟩ e = some result := by
      obtain rfl | rfl | rfl := hEvent <;> exact ⟨_, rfl⟩
    rw [List.append_nil]
    exact ⟨t', actions', hStep, twins_leaving hDone hStep⟩
  | @left n d d' operations _ before hDone hLate =>
    obtain ⟨rfl, rfl, hEvent⟩ := gone_step h
    obtain ⟨⟨t', actions'⟩, hStep⟩ : ∃ result, TlsHttpSession.step json limits peerIp
        ⟨⟨n, false, d', true, true, operations⟩, .stopped⟩ e = some result := by
      obtain rfl | rfl | rfl := hEvent <;> exact ⟨_, rfl⟩
    rw [List.append_nil]
    exact ⟨t', actions', hStep, twins_left hDone hLate hStep⟩

/-- An event of the TLS session is one of its twin, or the end of the shutdown. -/
theorem twins_step_back (hJson : json.Documented) {s : Session HttpSession.Phase}
    {t t' : Session TlsHttpSession.Phase} {done done' actions' : List Action} {e : SessionEvent}
    (hTwins : Twins limits s t done done')
    (h : TlsHttpSession.step json limits peerIp t e = some (t', actions')) :
    e.ofShutdown = true ∧ Twins limits s t' done (done' ++ actions') ∨
      e.ofShutdown = false ∧ ∃ s' actions, HttpSession.step json limits peerIp s e = some (s', actions) ∧
        Twins limits s' t' (done ++ actions) (done' ++ actions') := by
  cases hTwins with
  | same hAt hFresh =>
    right
    by_cases hClosing : e = .written true none ∧ s.stopped = false
    · obtain ⟨rfl, hOpen⟩ := hClosing
      have hUnderWay : .write true ∈ s.outstanding := (Session.complete_cases (show
        (lift s).complete (.write true) (fun t => TlsHttpSession.handleWrite limits t true none) =
          some (t', actions') from h)).1
      have hStep : HttpSession.step json limits peerIp s (.written true none) = some _ :=
        if_pos hUnderWay
      obtain ⟨t'', actions'', hTls, hTwins⟩ := twins_closing hAt hOpen hStep
      cases h.symm.trans hTls
      exact ⟨rfl, _, _, hStep, hTwins⟩
    · have hLift := TlsHttpSession.step_lift json limits peerIp s hAt (fun _ => hFresh)
        (fun hWritten => by simpa using fun hOpen => hClosing ⟨hWritten, hOpen⟩)
      rw [h] at hLift
      obtain ⟨⟨s', actions⟩, hStep, hLifted⟩ := Option.map_eq_some_iff.mp hLift.symm
      cases hLifted
      refine ⟨?_, s', actions, hStep, twins_same hJson hAt hFresh hStep⟩
      cases e with
      | shutDown error => cases hStep
      | _ => rfl
  | @leaving n d d' _ before hDone =>
    have hNext := twins_leaving (d := d) hDone h
    obtain hShutdown | ⟨hOther, hGone⟩ := gone_or_shutdown (d := d) (.inl ⟨d', rfl⟩) h
    · exact .inl ⟨hShutdown, hNext⟩
    · exact .inr ⟨hOther, _, _, hGone, by rwa [List.append_nil]⟩
  | @left n d d' operations _ before hDone hLate =>
    have hNext := twins_left (d := d) hDone hLate h
    obtain hShutdown | ⟨hOther, hGone⟩ := gone_or_shutdown (d := d) (.inr ⟨d', operations, hLate, rfl⟩) h
    · exact .inl ⟨hShutdown, hNext⟩
    · exact .inr ⟨hOther, _, _, hGone, by rwa [List.append_nil]⟩

/-! ## Runs -/

namespace HttpSession

/-- A plain session that has been started. -/
def opened : Session Phase := ⟨⟨0, false, false, false, true, [.read]⟩, .reading⟩

end HttpSession

theorem twins_run (hJson : json.Documented) {s s' : Session HttpSession.Phase}
    {t : Session TlsHttpSession.Phase} {done done' : List Action} (hTwins : Twins limits s t done done')
    {history : List PlainEntry}
    (hRun : Run (partialStep (HttpSession.step json limits peerIp)) s history s') :
    ∃ history' t', Run (partialStep (TlsHttpSession.step json limits peerIp)) t history' t' ∧
      history'.map Entry.input = history.map Entry.input ∧
      Twins limits s' t' (done ++ outputs history) (done' ++ outputs history') := by
  induction hRun with
  | nil => exact ⟨[], t, .nil, rfl, by simpa using hTwins⟩
  | @cons e older hOlder hStep ih =>
    obtain ⟨history', t', hRun', hInputs, hTwins'⟩ := ih
    obtain ⟨t'', actions', hStep', hTwins''⟩ := twins_step hJson hTwins' hStep
    refine ⟨⟨t', e.input, actions', t''⟩ :: history', t'', .cons hRun' hStep', ?_, ?_⟩
    · rw [List.map_cons, List.map_cons, hInputs]
    · rw [outputs_cons, outputs_cons, ← List.append_assoc, ← List.append_assoc]
      exact hTwins''

theorem twins_run_back (hJson : json.Documented) {s : Session HttpSession.Phase}
    {t t' : Session TlsHttpSession.Phase} {done done' : List Action}
    (hTwins : Twins limits s t done done') {history' : List TlsEntry}
    (hRun : Run (partialStep (TlsHttpSession.step json limits peerIp)) t history' t') :
    ∃ history s', Run (partialStep (HttpSession.step json limits peerIp)) s history s' ∧
      history.map Entry.input = (history'.map Entry.input).filter (fun e => !e.ofShutdown) ∧
      Twins limits s' t' (done ++ outputs history) (done' ++ outputs history') := by
  induction hRun with
  | nil => exact ⟨[], s, .nil, rfl, by simpa using hTwins⟩
  | @cons e older hOlder hStep ih =>
    obtain ⟨history, s', hRun', hInputs, hTwins'⟩ := ih
    obtain ⟨hShutdown, hTwins''⟩ | ⟨hOther, s'', actions, hStep', hTwins''⟩ :=
      twins_step_back hJson hTwins' hStep
    · refine ⟨history, s', hRun', ?_, ?_⟩
      · rw [List.map_cons, List.filter_cons, hShutdown, hInputs]
        rfl
      · rw [outputs_cons, ← List.append_assoc]
        exact hTwins''
    · refine ⟨⟨s', e.input, actions, s''⟩ :: history, s'', .cons hRun' hStep', ?_, ?_⟩
      · rw [List.map_cons, List.map_cons, List.filter_cons, hOther, hInputs]
        rfl
      · rw [outputs_cons, outputs_cons, ← List.append_assoc, ← List.append_assoc]
        exact hTwins''

/-- The TLS session does the same; behind a closing answer it shuts TLS down before it
disconnects, if it has disconnected yet. -/
def SameActions (limits : HttpLimits) (plain tls : List Action) (stopped : Bool) : Prop :=
  tls = plain.map Action.overTls ∨
    ∃ before, plain.map Action.overTls = before ++ disconnected false ∧
      tls = before ++ .shutdownStarted limits.writeTimeout ::
        (if stopped then disconnected false else [])

theorem Twins.sameActions {s : Session HttpSession.Phase} {t : Session TlsHttpSession.Phase}
    {done done' : List Action} (h : Twins limits s t done done') :
    SameActions limits done done' t.stopped := by
  cases h with
  | same => exact .inl rfl
  | leaving hDone => exact .inr ⟨_, hDone, rfl⟩
  | left hDone => exact .inr ⟨_, hDone, rfl⟩

theorem twins_opened : Twins limits HttpSession.opened (lift HttpSession.opened) [] [] :=
  .same .listening (by decide)

/-- A completed handshake brings the TLS session where a start brings the plain one. -/
theorem secured_opened (hJson : json.Documented) {older : List TlsEntry} {e : TlsEntry}
    (hOlder : Run (partialStep (TlsHttpSession.step json limits peerIp)) TlsHttpSession.created older
      e.before)
    (hStep : TlsHttpSession.step json limits peerIp e.before e.input = some (e.after, e.outputs))
    (hInput : e.input = .handshaken none) (hOpen : e.before.stopped = false) :
    e.after = lift HttpSession.opened ∧
      HttpSession.step json limits peerIp HttpSession.created .start =
        some (HttpSession.opened, e.outputs) := by
  obtain ⟨stage, hAt⟩ := (TlsHttpSession.keeps hJson limits peerIp).exists_stage .fresh hOlder
  obtain ⟨before, input, actions, after⟩ := e
  simp only at hAt hStep hInput hOpen ⊢
  subst hInput
  cases hAt with
  | greeting =>
    cases hStep
    exact ⟨rfl, rfl⟩
  | closed => cases hOpen
  | _ => cases hStep

/-- Behind the handshake the two classes act alike on the same events, and their workers
differ only in what they tell the proxy resolver. -/
theorem tls_session_agrees (hJson : json.Documented) (limits : HttpLimits) (peerIp : List Char) :
    (∀ newer older e t,
      Run (partialStep (TlsHttpSession.step json limits peerIp)) TlsHttpSession.created
        (newer ++ e :: older) t →
      e.input = .handshaken none → e.before.stopped = false →
      ∃ history s, Run (partialStep (HttpSession.step json limits peerIp)) HttpSession.created
          (history ++ [⟨HttpSession.created, .start, e.outputs, HttpSession.opened⟩]) s ∧
        history.map Entry.input = (newer.map Entry.input).filter (fun e => !e.ofShutdown) ∧
        SameActions limits (outputs history) (outputs newer) t.stopped) ∧
    (∀ history actions s,
      Run (partialStep (HttpSession.step json limits peerIp)) HttpSession.created
        (history ++ [⟨HttpSession.created, .start, actions, HttpSession.opened⟩]) s →
      ∃ newer greeting t,
        Run (partialStep (TlsHttpSession.step json limits peerIp)) TlsHttpSession.created
          (newer ++ ⟨greeting, .handshaken none, actions, lift HttpSession.opened⟩ ::
            [⟨TlsHttpSession.created, .start, [.handshakeStarted limits.tlsHandshakeTimeout], greeting⟩])
          t ∧
        newer.map Entry.input = history.map Entry.input ∧
        SameActions limits (outputs history) (outputs newer) t.stopped) ∧
    (∀ config met request peerIp requestId,
      workerTask json config peerIp request met requestId =
          Task.answer json config met ⟨request, peerIp, requestId, false⟩ ∧
        TlsHttpSession.workerTask json config peerIp request met requestId =
          Task.answer json config met ⟨request, peerIp, requestId, true⟩) := by
  refine ⟨?_, ?_, fun config met request peerIp requestId =>
    ⟨workerTask_eq_answer json config met request peerIp requestId,
      TlsHttpSession.workerTask_eq_answer json config met request peerIp requestId⟩⟩
  · intro newer older e t hRun hInput hOpen
    obtain ⟨hOlder, hStep, hNewer⟩ := hRun.at_entry
    obtain ⟨hAfter, hStart⟩ := secured_opened hJson hOlder hStep hInput hOpen
    rw [hAfter] at hNewer
    obtain ⟨history, s, hPlain, hInputs, hTwins⟩ := twins_run_back hJson twins_opened hNewer
    exact ⟨history, s, Run.append (.cons .nil hStart) hPlain, hInputs, hTwins.sameActions⟩
  · intro history actions s hRun
    obtain ⟨-, hStart, hHistory⟩ := hRun.at_entry
    obtain ⟨newer, t, hTls, hInputs, hTwins⟩ := twins_run hJson twins_opened hHistory
    have hActions : (HttpSession.doStart limits HttpSession.created).2 = actions :=
      congrArg Prod.snd (Option.some.inj hStart)
    subst hActions
    refine ⟨newer, ⟨⟨0, false, false, false, true, [.handshake]⟩, .handshaking⟩, t,
      Run.append (.cons (.cons .nil rfl) rfl) hTls, hInputs, hTwins.sameActions⟩

/-- A request whose answer closes the connection. -/
def Sample.closingExchange : List SessionEvent :=
  [.read (.ok Sample.brokenLogin) Sample.calmServer,
    .completed (Sample.emptyAnswer.setKeepAlive false), .written true none]

theorem tls_session_agrees_sample : ∃ history s,
    trace (HttpSession.step Sample.compactJson Sample.httpLimits Sample.proxyPeer) HttpSession.opened
        Sample.closingExchange [] = some (history, s) ∧
    ∃ newer greeting t,
      Run (partialStep (TlsHttpSession.step Sample.compactJson Sample.httpLimits Sample.proxyPeer))
        TlsHttpSession.created
        (newer ++ ⟨greeting, .handshaken none, [.readStarted 16384 1048576 10], lift HttpSession.opened⟩ ::
          [⟨TlsHttpSession.created, .start, [.handshakeStarted 10], greeting⟩]) t ∧
      newer.map Entry.input = history.map Entry.input ∧
      SameActions Sample.httpLimits (outputs history) (outputs newer) t.stopped := by
  have hSome : (trace (HttpSession.step Sample.compactJson Sample.httpLimits Sample.proxyPeer)
      HttpSession.opened Sample.closingExchange []).isSome = true := by
    decide +kernel
  obtain ⟨⟨history, s⟩, hTrace⟩ := Option.isSome_iff_exists.mp hSome
  refine ⟨history, s, hTrace, ?_⟩
  exact (tls_session_agrees Sample.compactJson_documented Sample.httpLimits Sample.proxyPeer).2.1 history
    _ s (Run.append (.cons .nil rfl) (run_of_trace .nil hTrace))

end SecureCore

import SecureCore.Runtime.Draining

/-! # The shutdown thread and the acceptor

wait_until_idle may find no connection while an accept that has succeeded is still ahead of
do_begin_draining on the strand. -/

set_option autoImplicit false

namespace SecureCore

open Transition

variable {json : JsonLibrary} {limits : HttpLimits}

def Handler.waits (handler : Handler) : Bool := handler != .beginDraining

/-- wait_until_idle has returned true. -/
def Shutdown.passed : Shutdown → Bool
  | .drained | .workersStopped true | .contextStopped true => true
  | _ => false

namespace HttpServer

/-- The server drains already, or no successful accept is ahead of do_begin_draining. -/
def Settled (server : HttpServer) : Prop :=
  server.draining = true ∨
    server.registering = none ∧ ∀ handler ∈ server.strand.takeWhile Handler.waits, handler.admits = false

/-- No connection is registered, and none will be. -/
structure Sealed (server : HttpServer) : Prop where
  empty : server.connections.manager.connections = ∅
  settled : server.Settled
  asked : server.draining = true ∨ .beginDraining ∈ server.strand

theorem takeWhile_append {strand : List Handler} (h : .beginDraining ∈ strand) (more : List Handler) :
    (strand ++ more).takeWhile Handler.waits = strand.takeWhile Handler.waits := by
  induction strand with
  | nil => cases h
  | cons handler rest ih =>
    simp only [List.cons_append, List.takeWhile_cons]
    split
    · rename_i hWaits
      obtain rfl | hRest := List.mem_cons.mp h
      · cases hWaits
      · rw [ih hRest]
    · rfl

section steps

variable {stopping forces : Bool} {server server' : HttpServer}

theorem Sealed.post (h : server.Sealed) (handler : Handler) (accepting : Bool) :
    Sealed { server with accepting := accepting, strand := server.strand ++ [handler] } := by
  obtain ⟨hEmpty, hSettled, hAsked⟩ := h
  refine ⟨hEmpty, ?_, hAsked.imp_right (List.mem_append_left _)⟩
  obtain hDraining | ⟨hIdle, hAhead⟩ := hSettled
  · exact .inl hDraining
  · obtain hDraining | hBegin := hAsked
    · exact .inl hDraining
    · right
      rw [takeWhile_append hBegin]
      exact ⟨hIdle, hAhead⟩

/-- Nothing that a sealed server does registers a connection. -/
theorem Sealed.step (h : server.Sealed) (hOrderly : server.Orderly stopping forces) {event : ServerEvent}
    {actions : List ServerAction} (hEffect : Effect json limits server event actions server') :
    server'.Sealed := by
  cases hEffect with
  | accepted => exact h.post _ _
  | @returned source handler rest actions hIdle hStrand hControl hRefused hActions =>
    obtain ⟨hEmpty, hSettled, hAsked⟩ := h
    rw [hStrand] at hAsked
    have hWaits : handler.waits = true := by cases handler <;> first | rfl | cases hControl
    constructor
    · rw [doAccept_connections]
      exact hEmpty
    · obtain hDraining | ⟨hNone, hAhead⟩ := hSettled
      · exact .inl (by rw [doAccept_draining]; exact hDraining)
      · rw [hStrand, List.takeWhile_cons_of_pos hWaits] at hAhead
        right
        simp only [doAccept_registering, doAccept_strand, finished, hStrand, List.tail_cons, true_and]
        exact fun other hOther => hAhead other (List.mem_cons_of_mem _ hOther)
    · simp only [doAccept_draining, doAccept_strand, finished, hStrand, List.tail_cons]
      refine hAsked.imp_right (fun hBegin => ?_)
      obtain rfl | hRest := List.mem_cons.mp hBegin
      · cases hControl
      · exact hRest
  | constructed hIdle hStrand hOpen =>
    obtain hDraining | ⟨-, hAhead⟩ := h.settled
    · rw [hOpen.1] at hDraining
      cases hDraining
    · have hAdmits := hAhead _ (by rw [hStrand]; exact List.mem_cons_self)
      cases hAdmits
  | drained hIdle hStrand =>
    have hControls := hOrderly.controls
    rw [hStrand, List.filter_cons_of_pos rfl] at hControls
    obtain ⟨hDraining, hStopped, -⟩ := hControls.drain
    rw [doBeginDraining_of_open (by exact hDraining) (by exact hStopped)]
    exact ⟨h.empty, .inl rfl, .inl rfl⟩
  | stopped hIdle hStrand =>
    have hControls := hOrderly.controls
    rw [hStrand, List.filter_cons_of_pos rfl] at hControls
    obtain ⟨hStopped, -⟩ := hControls.stop
    rw [doStop_of_open (by exact hStopped)]
    exact ⟨h.empty, .inl rfl, .inl rfl⟩
  | registered hRegistering =>
    obtain hDraining | ⟨hNone, -⟩ := h.settled
    · rw [(hOrderly.registering _ hRegistering).1] at hDraining
      cases hDraining
    · cases hNone.symm.trans hRegistering
  | session hEvent hHandle =>
    obtain ⟨_, _, _, -, hHandled⟩ := Connections.handle_cases hHandle
    have hEmpty := hHandled.connections
    rw [h.empty, Finset.subset_empty] at hEmpty
    exact ⟨hEmpty, h.settled, h.asked⟩

end steps

end HttpServer

namespace ServerApplication

variable {s s' : ServerApplication}

theorem Sealed.step (h : s.server.Sealed) (hOrderly : s.Orderly) {event : ApplicationEvent}
    {actions : List ServerAction} (hEffect : Effect json limits s event actions s') : s'.server.Sealed := by
  cases hEffect with
  | server hEffect => exact h.step hOrderly.server hEffect
  | again => exact h
  | asked hStopping => exact h.post _ _
  | expired hWaiting hBusy => exact h.post _ _
  | moved hMoves hIdle => exact h

/-- While the shutdown thread waits, do_begin_draining has run or is queued. -/
theorem Orderly.asked (h : s.Orderly) (hWaiting : s.shutdown = .waiting) :
    s.server.draining = true ∨ .beginDraining ∈ s.server.strand := by
  have hControls := h.server.controls
  have hStopping : s.stopping = true := by
    have hBegun := h.begun
    rw [hWaiting] at hBegun
    simpa using hBegun
  rw [hStopping, hWaiting] at hControls
  generalize hDraining : s.server.draining = draining at hControls
  generalize hStopped : s.server.stopped = stopped at hControls
  generalize hQueued : s.server.strand.filter Handler.control = queued at hControls
  cases hControls with
  | asked =>
    have hMem : Handler.beginDraining ∈ s.server.strand.filter Handler.control := by
      rw [hQueued]
      exact List.mem_cons_self
    exact .inr (List.mem_of_mem_filter hMem)
  | draining => exact .inl rfl

/-! ## From the emptiness test on -/

/-- The event loop is stopped in the drained branch with a connection still registered. -/
structure Abandons (e : Entry ServerApplication ApplicationEvent ServerAction) : Prop where
  stops : e.input = .contextStopped
  drained : e.before.shutdown = .workersStopped true
  registered : e.before.server.connections.manager.connections ≠ ∅

theorem Moves.passed {shutdown shutdown' : Shutdown} {event : ApplicationEvent}
    (h : Moves shutdown event shutdown') (hPassed : shutdown'.passed = true) :
    shutdown.passed = true ∨ shutdown = .waiting ∧ event = .idle := by
  cases h with
  | idle => exact .inr ⟨rfl, rfl⟩
  | forceAwaited => cases hPassed
  | drainedWorkers => exact .inl rfl
  | forcedWorkers => cases hPassed
  | @contextStopped drained =>
    cases drained with
    | true => exact .inl rfl
    | false => cases hPassed

/-- A passed test stays behind, and before it there was the test. -/
theorem Effect.passed {event : ApplicationEvent} {actions : List ServerAction}
    (h : Effect json limits s event actions s') (hPassed : s'.shutdown.passed = true) :
    s.shutdown.passed = true ∨ s.shutdown = .waiting ∧ event = .idle ∧
      s.server.connections.manager.connections = ∅ ∧ s'.server = s.server := by
  cases h with
  | server hEffect => exact .inl hPassed
  | again => exact .inl hPassed
  | asked hStopping => cases hPassed
  | expired hWaiting hBusy => cases hPassed
  | moved hMoves hIdle =>
    obtain hBefore | ⟨hWaiting, hEvent⟩ := hMoves.passed hPassed
    · exact .inl hBefore
    · exact .inr ⟨hWaiting, hEvent, hIdle hEvent, rfl⟩

section runs

variable {history : ServerHistory}

theorem run_sealed (hOrderly : s.Orderly) (hSealed : s.shutdown.passed = true → s.server.Sealed)
    (hRun : Run (partialStep (step json limits)) s history s')
    (hTests : ∀ e ∈ history, e.input = .idle → e.before.server.Settled) :
    s'.Orderly ∧ (s'.shutdown.passed = true → s'.server.Sealed) ∧ ∀ e ∈ history, ¬Abandons e := by
  induction hRun with
  | nil => exact ⟨hOrderly, hSealed, fun e he => absurd he List.not_mem_nil⟩
  | @cons e older hOlder hStep ih =>
    have hOldTests : ∀ e' ∈ older, e'.input = .idle → e'.before.server.Settled := by
      intro e' he'
      exact hTests e' (List.mem_cons_of_mem e he')
    obtain ⟨hBefore, hBeforeSealed, hSafe⟩ := ih hOldTests
    have hEffect := step_effect hStep
    refine ⟨hBefore.step hEffect, ?_, ?_⟩
    · intro hPassed
      obtain hOld | ⟨hWaiting, hIdle, hEmpty, hSame⟩ := hEffect.passed hPassed
      · exact Sealed.step (hBeforeSealed hOld) hBefore hEffect
      · rw [hSame]
        exact ⟨hEmpty, hTests e List.mem_cons_self hIdle, hBefore.asked hWaiting⟩
    · intro e' he' hAbandons
      obtain rfl | hOld := List.mem_cons.mp he'
      · have hPassed : e'.before.shutdown.passed = true := by
          rw [hAbandons.drained]
          rfl
        exact hAbandons.registered (hBeforeSealed hPassed).empty
      · exact hSafe e' hOld hAbandons

end runs

/-! ## When the test comes too early -/

/-- Some continuation abandons a connection. -/
def Doomed (json : JsonLibrary) (limits : HttpLimits) (s : ServerApplication) : Prop :=
  ∃ newer s', Run (partialStep (step json limits)) s newer s' ∧ ∃ e ∈ newer, Abandons e

theorem Doomed.of_step {t : ServerApplication} {event : ApplicationEvent} {actions : List ServerAction}
    (hStep : s.step json limits event = some (t, actions)) (h : Doomed json limits t) :
    Doomed json limits s := by
  obtain ⟨newer, s', hRun, e, he, hAbandons⟩ := h
  have hFirst : Run (partialStep (step json limits)) s [⟨s, event, actions, t⟩] t :=
    .cons (e := ⟨s, event, actions, t⟩) .nil hStep
  exact ⟨newer ++ [⟨s, event, actions, t⟩], s', hFirst.append hRun, e, List.mem_append_left _ he, hAbandons⟩

theorem doomed_of_registered (hShutdown : s.shutdown = .drained)
    (hRegistered : s.server.connections.manager.connections ≠ ∅) : Doomed json limits s := by
  have hWorkers : s.step json limits .workersStopped =
      some ({ s with shutdown := .workersStopped true }, []) := by
    simp only [step, hShutdown]
  apply Doomed.of_step hWorkers
  let last : Entry ServerApplication ApplicationEvent ServerAction :=
    ⟨{ s with shutdown := .workersStopped true }, .contextStopped, [],
      { s with shutdown := .contextStopped true }⟩
  exact ⟨[last], last.after, .cons .nil rfl, last, List.mem_cons_self, rfl, rfl, hRegistered⟩

theorem doomed_of_registering {connection : Nat} (hShutdown : s.shutdown = .drained)
    (hEmpty : s.server.connections.manager.connections = ∅)
    (hRoom : 0 < s.server.connections.manager.maxConnections)
    (hRegistering : s.server.registering = some connection) : Doomed json limits s := by
  have hStep : s.step json limits (.server .registered) =
      some ({ s with server := (s.server.register connection).1 }, (s.server.register connection).2) := by
    simp only [step, HttpServer.step, hRegistering, Option.map_some]
  apply Doomed.of_step hStep
  apply doomed_of_registered (by exact hShutdown)
  simp only [HttpServer.register, HttpServer.doAccept_connections, HttpServer.finished,
    Connections.register, ConnectionManager.start, hEmpty, Finset.card_empty]
  rw [if_neg (Nat.not_le.mpr hRoom)]
  exact Finset.insert_ne_empty connection ∅

theorem step_handled {handler : Handler} {rest : List Handler} (hIdle : s.server.registering = none)
    (hStrand : s.server.strand = handler :: rest) (source : RequestIdSource) :
    s.step json limits (.server (.handled source)) = some
      ({ s with server := (s.server.handle json handler source).1 },
        (s.server.handle json handler source).2) := by
  simp only [step, HttpServer.step, hIdle, hStrand, Option.map_some]

/-- The handlers in front of the accept run, and then the accept itself. -/
theorem doomed_of_ahead {ahead rest : List Handler} {peerIp : List Char} (hShutdown : s.shutdown = .drained)
    (hEmpty : s.server.connections.manager.connections = ∅)
    (hRoom : 0 < s.server.connections.manager.maxConnections)
    (hOpen : s.server.draining = false ∧ s.server.stopped = false) (hIdle : s.server.registering = none)
    (hStrand : s.server.strand = ahead ++ .accepted (some peerIp) :: rest)
    (hAhead : ∀ handler ∈ ahead, handler.admits = false ∧ handler.control = false) :
    Doomed json limits s := by
  induction ahead generalizing s with
  | nil =>
    apply Doomed.of_step (step_handled hIdle hStrand ⟨0, 0⟩)
    have hNotFull : s.server.connections.manager.full = false := by
      simp only [ConnectionManager.full, hEmpty, Finset.card_empty, decide_eq_false_iff_not]
      omega
    simp only [HttpServer.handle, HttpServer.handleAccept, hOpen, hNotFull, Bool.or_self,
      Bool.false_eq_true, if_false]
    exact doomed_of_registering hShutdown hEmpty hRoom rfl
  | cons handler ahead ih =>
    obtain ⟨hAdmits, hControl⟩ := hAhead handler List.mem_cons_self
    apply Doomed.of_step (step_handled hIdle hStrand ⟨0, 0⟩)
    rw [HttpServer.handle_passive _ hAdmits hControl]
    apply ih
    · exact hShutdown
    · simpa [HttpServer.finished] using hEmpty
    · simpa [HttpServer.finished] using hRoom
    · simpa [HttpServer.finished] using hOpen
    · simp [HttpServer.finished]
    · simp [HttpServer.finished, hStrand]
    · exact fun other hOther => hAhead other (List.mem_cons_of_mem _ hOther)

theorem Effect.capacity {event : ApplicationEvent} {actions : List ServerAction}
    (h : Effect json limits s event actions s') :
    s'.server.connections.manager.maxConnections = s.server.connections.manager.maxConnections := by
  cases h with
  | server hEffect =>
    cases hEffect with
    | returned => rw [HttpServer.doAccept_connections]; rfl
    | drained => rw [HttpServer.doBeginDraining_connections]; rfl
    | stopped => rw [HttpServer.doStop_connections]; rfl
    | registered =>
      simp only [HttpServer.register, HttpServer.doAccept_connections, HttpServer.finished,
        Connections.register, ConnectionManager.start]
      split <;> rfl
    | session hEvent hHandle =>
      obtain ⟨_, _, _, -, hHandled⟩ := Connections.handle_cases hHandle
      exact hHandled.capacity
    | _ => rfl
  | _ => rfl

theorem run_capacity {history : ServerHistory}
    (hRun : Run (partialStep (step json limits)) s history s') :
    s'.server.connections.manager.maxConnections = s.server.connections.manager.maxConnections := by
  induction hRun with
  | nil => rfl
  | cons hOlder hStep ih => exact (step_effect hStep).capacity.trans ih

/-- A server that is not settled when the test passes still registers a connection. -/
theorem doomed_of_unsettled (hOrderly : s.Orderly) (hRoom : 0 < s.server.connections.manager.maxConnections)
    {next : ServerApplication} {actions : List ServerAction}
    (hIdle : s.step json limits .idle = some (next, actions)) (hUnsettled : ¬s.server.Settled) :
    Doomed json limits next := by
  simp only [step] at hIdle
  split at hIdle
  · rename_i hTest
    cases hIdle
    obtain ⟨hWaiting, hEmpty⟩ := hTest
    have hControls := hOrderly.server.controls
    rw [hWaiting] at hControls
    simp only [HttpServer.Settled, not_or, Bool.not_eq_true] at hUnsettled
    obtain ⟨hDraining, hAhead⟩ := hUnsettled
    cases hRegistering : s.server.registering with
    | some connection => exact doomed_of_registering rfl hEmpty hRoom hRegistering
    | none =>
      have hAdmits : ∃ handler ∈ s.server.strand.takeWhile Handler.waits, handler.admits = true := by
        by_contra hNone
        simp only [not_exists, not_and, Bool.not_eq_true] at hNone
        exact hAhead ⟨hRegistering, hNone⟩
      obtain ⟨first, hFirst⟩ := Option.isSome_iff_exists.mp (List.find?_isSome.mpr hAdmits)
      obtain ⟨hFirstAdmits, ahead, rest, hSplit, hBefore⟩ := List.find?_eq_some_iff_append.mp hFirst
      have hStrand : s.server.strand = ahead ++ first :: (rest ++ s.server.strand.dropWhile Handler.waits) := by
        conv_lhs => rw [← List.takeWhile_append_dropWhile (p := Handler.waits) (l := s.server.strand)]
        rw [hSplit, List.append_assoc, List.cons_append]
      have hPassive : ∀ handler ∈ ahead, handler.admits = false ∧ handler.control = false := by
        intro handler hHandler
        have hTaken : handler ∈ s.server.strand.takeWhile Handler.waits := by
          rw [hSplit]
          exact List.mem_append_left _ hHandler
        have hWaits := List.mem_takeWhile_imp hTaken
        constructor
        · simpa using hBefore handler hHandler
        · cases handler with
          | stop =>
            have hQueued := List.mem_filter.mpr
              ⟨(List.takeWhile_sublist Handler.waits).mem hTaken, (rfl : Handler.control .stop = true)⟩
            exact absurd hQueued hControls.stop_notMem
          | beginDraining => cases hWaits
          | _ => rfl
      rw [hDraining] at hControls
      cases first with
      | accepted client =>
        cases client with
        | none => cases hFirstAdmits
        | some peerIp =>
          exact doomed_of_ahead rfl hEmpty hRoom ⟨hDraining, hControls.not_stopped⟩ hRegistering hStrand
            hPassive
      | _ => cases hFirstAdmits
  · cases hIdle

/-! ## Exactly the settled servers shut down gracefully -/

theorem Effect.stays_passed {event : ApplicationEvent} {actions : List ServerAction} (hOrderly : s.Orderly)
    (h : Effect json limits s event actions s') (hPassed : s.shutdown.passed = true) :
    s'.shutdown.passed = true := by
  cases h with
  | server hEffect => exact hPassed
  | again => exact hPassed
  | asked hStopping =>
    rw [hOrderly.begun.mp hStopping] at hPassed
    cases hPassed
  | expired hWaiting hBusy =>
    rw [hWaiting] at hPassed
    cases hPassed
  | moved hMoves hIdle =>
    generalize s.shutdown = shutdown at hMoves hPassed
    cases hMoves with
    | drainedWorkers => rfl
    | @contextStopped drained =>
      cases drained with
      | true => rfl
      | false => cases hPassed
    | _ => cases hPassed

theorem not_abandons_of_sealed {history : ServerHistory} (hOrderly : s.Orderly)
    (hPassed : s.shutdown.passed = true) (hSealed : s.server.Sealed)
    (hRun : Run (partialStep (step json limits)) s history s') : ∀ e ∈ history, ¬Abandons e := by
  have hStart : s.Orderly ∧ s.shutdown.passed = true ∧ s.server.Sealed := ⟨hOrderly, hPassed, hSealed⟩
  intro e he hAbandons
  obtain ⟨newer, older, rfl⟩ := List.append_of_mem he
  obtain ⟨hOlder, -, -⟩ := hRun.at_entry
  have hBefore : e.before.Orderly ∧ e.before.shutdown.passed = true ∧ e.before.server.Sealed := by
    apply hOlder.invariant (I := fun s => s.Orderly ∧ s.shutdown.passed = true ∧ s.server.Sealed) hStart
    rintro s event actions s' ⟨hOrderly, hPassed, hSealed⟩ hStep
    have hEffect := step_effect hStep
    exact ⟨hOrderly.step hEffect, hEffect.stays_passed hOrderly hPassed, Sealed.step hSealed hOrderly hEffect⟩
  exact hAbandons.registered hBefore.2.2.empty

/-- Runs whose tests find the server settled abandon nobody, and a test that does not can
be followed by a stop of the event loop that does. -/
theorem run_graceful {tls : Bool} {manager : ConnectionManager} {maxConnections : Nat}
    (hManager : ConnectionManager.create maxConnections = .ok manager) {history : ServerHistory}
    (hRun : Run (partialStep (step json limits)) (running tls manager) history s) :
    ((∀ e ∈ history, e.input = .idle → e.before.server.Settled) → ∀ e ∈ history, ¬Abandons e) ∧
      ∀ next actions, s.step json limits .idle = some (next, actions) →
        ((∀ newer s', Run (partialStep (step json limits)) next newer s' → ∀ e ∈ newer, ¬Abandons e) ↔
          s.server.Settled) := by
  have hEmpty := ConnectionManager.create_empty hManager
  have hOrderly := run_orderly hEmpty hRun
  constructor
  · intro hTests
    exact (run_sealed (orderly_running tls hEmpty) nofun hRun hTests).2.2
  · intro next actions hIdle
    constructor
    · intro hSafe
      by_contra hUnsettled
      have hRoom : 0 < s.server.connections.manager.maxConnections := by
        rw [run_capacity hRun]
        exact ConnectionManager.create_capacity hManager
      obtain ⟨newer, s', hNewer, e, he, hAbandons⟩ := doomed_of_unsettled hOrderly hRoom hIdle hUnsettled
      exact hSafe newer s' hNewer e he hAbandons
    · intro hSettled newer s' hNewer
      have hNext := hOrderly.step (step_effect hIdle)
      simp only [step] at hIdle
      split at hIdle
      · rename_i hTest
        cases hIdle
        exact not_abandons_of_sealed hNext rfl ⟨hTest.2, hSettled, hOrderly.asked hTest.1⟩ hNewer
      · cases hIdle

end ServerApplication

theorem ServerApplication.run_graceful_sample : ∃ history s,
    trace (ServerApplication.step Sample.compactJson Sample.httpLimits) (.running false ⟨1, ∅⟩)
        Sample.lastWords [] = some (history, s) ∧
      ((∀ e ∈ history, e.input = .idle → e.before.server.Settled) →
        ∀ e ∈ history, ¬ServerApplication.Abandons e) := by
  have hSome : (trace (ServerApplication.step Sample.compactJson Sample.httpLimits)
      (.running false ⟨1, ∅⟩) Sample.lastWords []).isSome = true := by
    decide +kernel
  obtain ⟨⟨history, s⟩, hTrace⟩ := Option.isSome_iff_exists.mp hSome
  have hManager : ConnectionManager.create 1 = .ok ⟨1, ∅⟩ := rfl
  exact ⟨history, s, hTrace, (ServerApplication.run_graceful hManager (run_of_trace .nil hTrace)).1⟩

namespace Sample

/-- The shutdown thread looks while the accept handler is about to register its client. -/
def lostClient : List ApplicationEvent :=
  let source : RequestIdSource := calmServer.sessionId
  [.server (.handled source), .server (.accepted (some proxyPeer)), .server (.handled source), .stop, .idle,
    .server .registered, .server (.handled source), .workersStopped]

end Sample

theorem ServerApplication.client_abandoned : ∃ history s,
    Run (partialStep (ServerApplication.step Sample.compactJson Sample.httpLimits))
        (.running false ⟨1, ∅⟩) history s ∧ ∃ e ∈ history, ServerApplication.Abandons e := by
  have hSome : (trace (ServerApplication.step Sample.compactJson Sample.httpLimits)
      (.running false ⟨1, ∅⟩) Sample.lostClient []).map (fun result =>
        (result.2.shutdown, result.2.server.connections.manager.connections)) =
          some (.workersStopped true, {0}) := by
    decide +kernel
  obtain ⟨⟨history, s⟩, hTrace, hState⟩ := Option.map_eq_some_iff.mp hSome
  obtain ⟨hShutdown, hRegistered⟩ := Prod.mk.inj hState
  dsimp only at hShutdown hRegistered
  let last : Entry ServerApplication ApplicationEvent ServerAction :=
    ⟨s, .contextStopped, [], { s with shutdown := .contextStopped true }⟩
  have hStep : s.step Sample.compactJson Sample.httpLimits .contextStopped = some (last.after, []) := by
    simp only [ServerApplication.step, hShutdown, last]
  have hRun := run_of_trace .nil hTrace
  refine ⟨last :: history, last.after, .cons hRun hStep, last, List.mem_cons_self, rfl, hShutdown, ?_⟩
  change s.server.connections.manager.connections ≠ ∅
  rw [hRegistered]
  exact Finset.singleton_ne_empty 0

end SecureCore

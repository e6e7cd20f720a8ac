import SecureCore.Http.FinalErrors
import SecureCore.Http.TlsHttpSession

/-! # The conversation on a connection

What a session is for: the client asks, the session answers, and one of them ends it.
Both classes of sessions only make the turns of this conversation. -/

set_option autoImplicit false

namespace SecureCore

inductive Stage where
  | fresh
  | greeting
  | listening
  | working
  | answering (closes : Bool)
  /-- A protocol error is written. -/
  | refusing
  | leaving
  | closed
  deriving DecidableEq, Repr

namespace Stage

/-- The one operation that is under way at a stage. -/
def operation : Stage → Option AsyncOperation
  | .greeting => some .handshake
  | .listening => some .read
  | .working => some .task
  | .answering closes => some (.write closes)
  | .refusing => some (.write true)
  | .leaving => some .shutdown
  | .fresh | .closed => none

/-- Whether a request has been read that no written response has answered. -/
def active : Stage → Bool
  | .working | .answering _ => true
  | _ => false

end Stage

/-! ## Turns -/

def finished (active : Bool) : List Action := if active then [.metric .requestFinished] else []

def disconnected (active : Bool) : List Action :=
  finished active ++ [.metric .connectionClosed, .socketClosed, .removed]

/-- The task for a request that has been read. -/
def taskFor (peerIp : List Char) (directTls : Bool) (request : HttpMessage) (met : Surrounding) : Task :=
  let requestId := resolveRequestId request met.sessionId
  ⟨identified request requestId, peerIp, requestId, directTls⟩

variable (json : JsonLibrary)

/-- The turns: stage and drain flag before, event, actions, stage and drain flag after. -/
inductive Turn : Stage → Bool → SessionEvent → List Action → Stage → Bool → Prop
  | opened {d : Bool} {headerLimit bodyLimit timeout : Nat} :
      Turn .fresh d .start [.readStarted headerLimit bodyLimit timeout] .listening d
  | greeted {d : Bool} {timeout : Nat} :
      Turn .fresh d .start [.handshakeStarted timeout] .greeting d
  | secured {d : Bool} {headerLimit bodyLimit timeout : Nat} :
      Turn .greeting d (.handshaken none) [.readStarted headerLimit bodyLimit timeout] .listening d
  | restarted {stage : Stage} {d : Bool} (hStage : stage ≠ .fresh) : Turn stage d .start [] stage d
  | drained {stage : Stage} {d : Bool} (hStage : stage ≠ .fresh ∧ stage ≠ .greeting ∧ stage ≠ .closed) :
      Turn stage d .drain [] stage true
  | late {d : Bool} {e : SessionEvent} : Turn .closed d e [] .closed d
  | left {stage : Stage} {d d' : Bool} {e : SessionEvent} (hOpen : stage ≠ .closed)
      (hEvent : ∀ request met, e ≠ .read (.ok request) met) :
      Turn stage d e (disconnected stage.active) .closed d'
  | asked {d : Bool} {request : HttpMessage} {met : Surrounding} {peerIp : List Char} {directTls : Bool}
      (hAllowed : d = true → allowedDuringDrain request = true) :
      Turn .listening d (.read (.ok request) met)
        [.metric .requestStarted, .submitted (taskFor peerIp directTls request met) .accepted] .working d
  | overloaded {d : Bool} {request : HttpMessage} {met : Surrounding} {peerIp : List Char}
      {directTls : Bool} {result : SubmitResult} {response : HttpResponse} {timeout : Nat}
      (hAllowed : d = true → allowedDuringDrain request = true) (hResult : result ≠ .accepted)
      (hLast : response.keepAlive = false) :
      Turn .listening d (.read (.ok request) met)
        [.metric .requestStarted, .submitted (taskFor peerIp directTls request met) result,
          .metric (.httpResponse response.status 0), .writeStarted response timeout] (.answering true) d
  | rejected {request : HttpMessage} {met : Surrounding} {response : HttpResponse} {timeout : Nat}
      (hForbidden : allowedDuringDrain request = false)
      (hError : FinalError json 503 "server_shutting_down" response) :
      Turn .listening true (.read (.ok request) met)
        [.metric .requestStarted, .metric (.httpResponse response.status 0),
          .writeStarted response timeout] (.answering true) true
  | protested {d : Bool} {error : StreamError} {met : Surrounding} {response : HttpResponse}
      {timeout : Nat} (hError : FinalError json 413 "payload_too_large" response ∨
        FinalError json 431 "headers_too_large" response) :
      Turn .listening d (.read (.error error) met)
        [.metric (.httpResponse response.status 0), .writeStarted response timeout] .refusing d
  | answered {d : Bool} {response sent : HttpResponse} {timeout : Nat}
      (hSent : sent = completeRequest d (completeRequest d response)) :
      Turn .working d (.completed response) [.writeStarted sent timeout] (.answering sent.needEof) d
  | continued {d : Bool} {headerLimit bodyLimit timeout : Nat} :
      Turn (.answering false) d (.written false none)
        [.metric .requestFinished, .readStarted headerLimit bodyLimit timeout] .listening d
  | parted {stage : Stage} {d : Bool} {timeout : Nat}
      (hStage : stage.operation = some (.write true)) :
      Turn stage d (.written true none) (finished stage.active ++ [.shutdownStarted timeout]) .leaving d

/-! ## The members of a session at a stage -/

/-- What the members that both classes share look like. -/
structure SessionState.At (s : SessionState) (stage : Stage) : Prop where
  stopped : s.stopped = true ↔ stage = .closed
  started : stage = .fresh → s.started = false
  active : s.requestActive = stage.active
  outstanding : stage ≠ .closed → s.outstanding = stage.operation.toList
  late : s.outstanding.length ≤ 1

namespace HttpSession

/-- A plain session never greets or leaves. -/
inductive At : Stage → Session Phase → Prop
  | fresh : At .fresh ⟨⟨0, false, false, false, false, []⟩, .created⟩
  | listening {n : Nat} {d : Bool} : At .listening ⟨⟨n, false, d, false, true, [.read]⟩, .reading⟩
  | working {n : Nat} {d : Bool} : At .working ⟨⟨n, true, d, false, true, [.task]⟩, .processing⟩
  | answering {n : Nat} {d closes : Bool} :
      At (.answering closes) ⟨⟨n, true, d, false, true, [.write closes]⟩, .writing⟩
  | refusing {n : Nat} {d : Bool} :
      At .refusing ⟨⟨n, false, d, false, true, [.write true]⟩, .writing⟩
  | closed {n : Nat} {d started : Bool} {operations : List AsyncOperation}
      (hLate : operations.length ≤ 1) (hOwn : .handshake ∉ operations ∧ .shutdown ∉ operations) :
      At .closed ⟨⟨n, false, d, true, started, operations⟩, .stopped⟩

theorem At.state {stage : Stage} {s : Session Phase} (h : At stage s) : s.toSessionState.At stage := by
  cases h with
  | closed hLate _ => exact ⟨by simp, by simp, rfl, by simp, hLate⟩
  | _ => exact ⟨by simp, by simp, rfl, fun _ => rfl, by simp⟩

theorem At.own {stage : Stage} {s : Session Phase} (h : At stage s) :
    .handshake ∉ s.outstanding ∧ .shutdown ∉ s.outstanding := by
  cases h with
  | closed _ hOwn => exact hOwn
  | _ => simp

end HttpSession

namespace TlsHttpSession

inductive At : Stage → Session Phase → Prop
  | fresh : At .fresh ⟨⟨0, false, false, false, false, []⟩, .created⟩
  | greeting : At .greeting ⟨⟨0, false, false, false, true, [.handshake]⟩, .handshaking⟩
  | listening {n : Nat} {d : Bool} : At .listening ⟨⟨n, false, d, false, true, [.read]⟩, .reading⟩
  | working {n : Nat} {d : Bool} : At .working ⟨⟨n, true, d, false, true, [.task]⟩, .processing⟩
  | answering {n : Nat} {d closes : Bool} :
      At (.answering closes) ⟨⟨n, true, d, false, true, [.write closes]⟩, .writing⟩
  | refusing {n : Nat} {d : Bool} :
      At .refusing ⟨⟨n, false, d, false, true, [.write true]⟩, .writing⟩
  | leaving {n : Nat} {d : Bool} :
      At .leaving ⟨⟨n, false, d, false, true, [.shutdown]⟩, .shuttingDown⟩
  | closed {n : Nat} {d started : Bool} {operations : List AsyncOperation}
      (hLate : operations.length ≤ 1) :
      At .closed ⟨⟨n, false, d, true, started, operations⟩, .stopped⟩

theorem At.state {stage : Stage} {s : Session Phase} (h : At stage s) : s.toSessionState.At stage := by
  cases h with
  | closed hLate => exact ⟨by simp, by simp, rfl, by simp, hLate⟩
  | _ => exact ⟨by simp, by simp, rfl, fun _ => rfl, by simp⟩

end TlsHttpSession

end SecureCore

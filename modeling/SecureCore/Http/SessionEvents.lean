import SecureCore.Http.Session

/-! # What a session is told and what it does

The handlers of one session run on its strand, one after the other. They start
asynchronous operations, whose completions arrive as later events. -/

set_option autoImplicit false

namespace SecureCore

structure HttpLimits where
  maxHeaderBytes : Nat
  maxBodyBytes : Nat
  readTimeout : Nat
  writeTimeout : Nat
  idleTimeout : Nat
  maxConnections : Nat
  tlsHandshakeTimeout : Nat
  deriving DecidableEq, Repr

/-- The error codes that the handlers tell apart, and any other. -/
inductive StreamError where
  | bodyLimit
  | headerLimit
  | timeout
  | endOfStream
  | eof
  | operationAborted
  | streamTruncated
  | other (value : Int)
  deriving DecidableEq, Repr

/-- An operation that is under way. A write carries what its completion has captured. -/
inductive AsyncOperation where
  | handshake
  | read
  | task
  | write (shouldClose : Bool)
  | shutdown
  deriving DecidableEq, Repr

/-- What a session hands to the worker pool. -/
structure Task where
  request : HttpMessage
  peerIp : List Char
  requestId : String
  directTls : Bool
  deriving DecidableEq, Repr

inductive MetricUpdate where
  | connectionOpened
  | connectionClosed
  | requestStarted
  | requestFinished
  | httpResponse (statusCode : Nat) (elapsed : Nat)
  deriving DecidableEq, Repr

/-- What a handler does to the world outside the session. -/
inductive Action where
  | handshakeStarted (timeout : Nat)
  | readStarted (headerLimit bodyLimit timeout : Nat)
  | submitted (task : Task) (result : SubmitResult)
  | writeStarted (response : HttpResponse) (timeout : Nat)
  | shutdownStarted (timeout : Nat)
  | metric (update : MetricUpdate)
  /-- The socket is cancelled, shut down and closed. -/
  | socketClosed
  /-- ConnectionManager::remove. -/
  | removed
  /-- An exception leaves the handler. -/
  | thrown (exception : Thrown)
  deriving DecidableEq

inductive SessionEvent where
  | start
  | drain
  | stop
  | handshaken (error : Option StreamError)
  /-- Of what the request meets, the session itself asks for an id and for a place in
  the queue of the worker pool. -/
  | read (result : Except StreamError HttpMessage) (met : Surrounding)
  | completed (response : HttpResponse)
  | written (shouldClose : Bool) (error : Option StreamError)
  | shutDown (error : Option StreamError)

/-- The members that both classes of sessions have, and the operations under way. -/
structure SessionState where
  completedRequests : Nat := 0
  requestActive : Bool := false
  draining : Bool := false
  stopped : Bool := false
  started : Bool := false
  outstanding : List AsyncOperation := []
  deriving DecidableEq, Repr

structure Session (φ : Type) extends SessionState where
  phase : φ
  deriving DecidableEq, Repr

namespace Session

variable {φ : Type} (s : Session φ)

def begin (operation : AsyncOperation) : Session φ :=
  { s with outstanding := s.outstanding ++ [operation] }

def finish (operation : AsyncOperation) : Session φ :=
  { s with outstanding := s.outstanding.erase operation }

/-- The completion of an operation arrives only while the operation is under way. -/
def complete (operation : AsyncOperation) (handler : Session φ → Session φ × List Action) :
    Option (Session φ × List Action) :=
  if operation ∈ s.outstanding then some (handler (s.finish operation)) else none

end Session

end SecureCore

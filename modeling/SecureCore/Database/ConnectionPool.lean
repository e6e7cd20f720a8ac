import SecureCore.Model.Records
import SecureCore.Transition.Parties
import SecureCore.Transition.Run

/-! # The connection pool of a Database

A step is one locked section, or a move that touches no pool. Threads that wait for a
connection may be woken or time out in any order, and others may come before them. -/

set_option autoImplicit false

namespace SecureCore

/-- A handle is named by the order in which it was opened. -/
structure DatabasePool where
  poolSize : Nat
  handles : List Nat
  availableIndices : List Nat
  shuttingDown : Bool := false
  activeConnections : Nat := 0
  waitingThreads : Nat := 0
  acquisitionsTotal : Nat := 0
  timeoutsTotal : Nat := 0
  deriving DecidableEq, Repr

/-- The database pointer of a lease is set or null. -/
structure DatabaseConnectionLease where
  database : Bool
  index : Nat
  handle : Option Nat
  deriving DecidableEq, Repr

namespace DatabaseConnectionLease

variable (lease : DatabaseConnectionLease)

/-- The index that the lease will give back. -/
def held : Option Nat := if lease.database then some lease.index else none

/-- What a move leaves behind. -/
def moved : DatabaseConnectionLease := { lease with database := false, handle := none }

def getHandle : Except Exception Nat :=
  match lease.database, lease.handle with
  | true, some handle => .ok handle
  | _, _ => .error (.logicError "Database connection lease is not active")

end DatabaseConnectionLease

namespace DatabasePool

/-- The constructor, once all connections are open. -/
def create (path : String) (poolSize : Nat) (acquireTimeout : Int) : Except Exception DatabasePool :=
  if path.isEmpty then .error (.invalidArgument "Database path must not be empty")
  else if poolSize = 0 then .error (.invalidArgument "Database pool size must be positive")
  else if acquireTimeout ≤ 0 then .error (.invalidArgument "Database acquire timeout must be positive")
  else
    let poolSize := if path = ":memory:" then 1 else poolSize
    .ok { poolSize := poolSize, handles := List.range poolSize, availableIndices := List.range poolSize }

variable (pool : DatabasePool)

def stopping : Exception := .runtimeError "Database connection pool is stopping"

/-- The end of acquire_connection, for a thread that need not wait any longer. -/
def take : Except Exception DatabaseConnectionLease × DatabasePool :=
  if pool.shuttingDown then (.error stopping, pool)
  else match pool.availableIndices with
    | [] => (.error (.databasePoolTimeoutError "Timed out waiting for a database connection"),
      { pool with timeoutsTotal := pool.timeoutsTotal + 1 })
    | index :: rest => (.ok ⟨true, index, pool.handles[index]?⟩,
      { pool with
        availableIndices := rest
        activeConnections := pool.activeConnections + 1
        acquisitionsTotal := pool.acquisitionsTotal + 1 })

def releaseConnection (index : Nat) : DatabasePool :=
  { pool with
    availableIndices := pool.availableIndices ++ [index]
    activeConnections := pool.activeConnections - 1 }

/-- DatabaseConnectionLease::release, with the index that goes back to the pool. -/
def release (lease : DatabaseConnectionLease) : DatabaseConnectionLease × DatabasePool × Option Nat :=
  if lease.database then (lease.moved, pool.releaseConnection lease.index, some lease.index)
  else (lease, pool, none)

/-- The predicate of the wait in acquire_connection. -/
def ready : Bool := pool.shuttingDown || !pool.availableIndices.isEmpty

end DatabasePool

/-! ## Threads and leases -/

/-- A database, the threads that wait in acquire_connection, and the lease objects in the
order of their construction, as long as they are not destroyed. -/
structure PoolUsers where
  pool : DatabasePool
  waiting : List Nat := []
  leases : List (Option DatabaseConnectionLease) := []
  /-- The destructor of the database has returned. -/
  closed : Bool := false
  deriving DecidableEq, Repr

inductive LeaseEvent where
  | acquired (thread : Nat)
  /-- A waiting thread evaluates its predicate again. -/
  | woken (thread : Nat)
  /-- A waiting thread evaluates its predicate for the last time. -/
  | timedOut (thread : Nat)
  | moveConstructed (source : Nat)
  | moveAssigned (target source : Nat)
  | destroyed (lease : Nat)
  | shutdownBegan
  | shutdownFinished
  deriving DecidableEq, Repr

inductive LeaseAction where
  | granted (index : Nat)
  | refused (exception : Exception)
  | released (index : Nat)
  | closed (handles : List Nat)
  deriving DecidableEq

namespace PoolUsers

variable (users : PoolUsers)

/-- The indices that live leases hold. -/
def held : List Nat := users.leases.filterMap (fun lease => lease.bind DatabaseConnectionLease.held)

def leave (thread : Nat) : PoolUsers :=
  { users with
    pool := { users.pool with waitingThreads := users.pool.waitingThreads - 1 }
    waiting := users.waiting.erase thread }

def take : PoolUsers × List LeaseAction :=
  match users.pool.take with
  | (.ok lease, pool) =>
    ({ users with pool := pool, leases := users.leases ++ [some lease] }, [.granted lease.index])
  | (.error exception, pool) => ({ users with pool := pool }, [.refused exception])

def acquire (thread : Nat) : PoolUsers × List LeaseAction :=
  if users.pool.ready then users.take
  else
    ({ users with
      pool := { users.pool with waitingThreads := users.pool.waitingThreads + 1 }
      waiting := users.waiting ++ [thread] }, [])

/-- The lease of an object that is not destroyed. -/
def leaseAt (lease : Nat) : Option DatabaseConnectionLease := (users.leases[lease]?).join

def setLease (lease : Nat) (value : Option DatabaseConnectionLease) : PoolUsers :=
  { users with leases := users.leases.set lease value }

/-- Release, and what stands in the place of the lease afterwards. -/
def releaseAt (lease : Nat) (value : DatabaseConnectionLease)
    (result : DatabaseConnectionLease → Option DatabaseConnectionLease) : PoolUsers × List LeaseAction :=
  let (released, pool, index) := users.pool.release value
  (({ users with pool := pool } : PoolUsers).setLease lease (result released),
    index.toList.map .released)

def step : LeaseEvent → Option (PoolUsers × List LeaseAction)
  | .acquired thread =>
    if users.closed || thread ∈ users.waiting then none else some (users.acquire thread)
  | .woken thread =>
    if thread ∈ users.waiting then
      some (if users.pool.ready then (users.leave thread).take else (users, []))
    else none
  | .timedOut thread => if thread ∈ users.waiting then some (users.leave thread).take else none
  | .moveConstructed source =>
    match users.leaseAt source with
    | none => none
    | some lease =>
      let emptied := users.setLease source (some lease.moved)
      some ({ emptied with leases := emptied.leases ++ [some lease] }, [])
  | .moveAssigned target source =>
    match users.leaseAt target, users.leaseAt source with
    | some old, some lease =>
      if target = source then some (users, [])
      else
        let (released, actions) := users.releaseAt target old (fun _ => some lease)
        some (released.setLease source (some lease.moved), actions)
    | _, _ => none
  | .destroyed lease =>
    match users.leaseAt lease with
    | none => none
    | some value => some (users.releaseAt lease value (fun _ => none))
  | .shutdownBegan =>
    if users.pool.shuttingDown then none
    else some ({ users with pool := { users.pool with shuttingDown := true } }, [])
  | .shutdownFinished =>
    if users.pool.shuttingDown && !users.closed && users.pool.activeConnections == 0 &&
        users.pool.waitingThreads == 0 then
      some ({ users with
        pool := { users.pool with handles := [], availableIndices := [] }
        closed := true }, [.closed users.pool.handles])
    else none

end PoolUsers

end SecureCore

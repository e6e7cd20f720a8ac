import SecureCore.Model.Records

/-! # WorkerPool

The steps are those between which other threads can come: each locked section is one, and
so is each update of a counter outside. -/

set_option autoImplicit false

namespace SecureCore

inductive SubmitResult where
  | accepted
  | queueFull
  | stopped
  deriving DecidableEq, Repr

/-- Where a worker is in worker_loop. -/
inductive Worker (τ : Type) where
  /-- It is about to lock the mutex and to look at the predicate. -/
  | ready
  /-- It waits for the condition variable. -/
  | asleep
  | running (task : τ)
  | ran
  /-- active_tasks_ is decremented, completed_tasks_ is not yet incremented. -/
  | deactivated
  | returned
  deriving DecidableEq, Repr

namespace Worker

variable {τ : Type}

def task : Worker τ → Option τ
  | .running task => some task
  | _ => none

def isAsleep : Worker τ → Bool
  | .asleep => true
  | _ => false

def hasReturned : Worker τ → Bool
  | .returned => true
  | _ => false

def wake : Worker τ → Worker τ
  | .asleep => .ready
  | worker => worker

end Worker

/-- What the call of stop() that holds stop_mutex_ does next. -/
inductive Stopping where
  | notifying
  | joining
  deriving DecidableEq, Repr

structure WorkerPool (τ : Type) where
  threadCount : Nat
  queueCapacity : Nat
  workers : List (Worker τ)
  tasks : List τ := []
  accepting : Bool := true
  stopping : Bool := false
  queuedTasks : Nat := 0
  activeTasks : Nat := 0
  completedTasks : Nat := 0
  rejectedTasks : Nat := 0
  /-- The calls of notify_one that are still to come. -/
  notifications : Nat := 0
  stop : Option Stopping := none
  deriving DecidableEq, Repr

inductive PoolEvent (τ : Type) where
  /-- The locked section of try_submit, or its throw on an empty function. -/
  | submitted (task : Option τ)
  /-- notify_one wakes a worker if one is asleep. -/
  | notified (worker : Option Nat)
  /-- A worker wakes up by itself. -/
  | woken (worker : Nat)
  /-- The locked section of worker_loop. -/
  | looked (worker : Nat)
  | executed (worker : Nat) (threw : Bool)
  | deactivated (worker : Nat)
  | completed (worker : Nat)
  /-- stop() locks both mutexes, from a thread that is no worker. -/
  | stopped
  | notifiedAll
  /-- The last worker is joined, and stop() returns. -/
  | joined
  deriving DecidableEq, Repr

inductive PoolAction (τ : Type) where
  | thrown (exception : Exception)
  | answered (task : τ) (result : SubmitResult)
  | dequeued (task : τ)
  | executed (task : τ) (threw : Bool)
  | stopReturned
  deriving DecidableEq

namespace WorkerPool

variable {τ : Type}

def create (threadCount queueCapacity : Nat) : Except Exception (WorkerPool τ) :=
  if threadCount = 0 then .error (.invalidArgument "Worker thread count must be positive")
  else if queueCapacity = 0 then .error (.invalidArgument "Worker queue capacity must be positive")
  else .ok
    { threadCount := threadCount
      queueCapacity := queueCapacity
      workers := List.replicate threadCount .ready }

variable (pool : WorkerPool τ)

def trySubmit (task : τ) : WorkerPool τ × List (PoolAction τ) :=
  if !pool.accepting then
    ({ pool with rejectedTasks := pool.rejectedTasks + 1 }, [.answered task .stopped])
  else if pool.queueCapacity ≤ pool.tasks.length then
    ({ pool with rejectedTasks := pool.rejectedTasks + 1 }, [.answered task .queueFull])
  else
    ({ pool with
      tasks := pool.tasks ++ [task]
      queuedTasks := pool.queuedTasks + 1
      notifications := pool.notifications + 1 }, [.answered task .accepted])

def setWorker (index : Nat) (worker : Worker τ) : WorkerPool τ :=
  { pool with workers := pool.workers.set index worker }

def look (index : Nat) : WorkerPool τ × List (PoolAction τ) :=
  match pool.tasks with
  | [] => (pool.setWorker index (if pool.stopping then .returned else .asleep), [])
  | task :: rest =>
    (({ pool with
      tasks := rest
      queuedTasks := pool.queuedTasks - 1
      activeTasks := pool.activeTasks + 1 } : WorkerPool τ).setWorker index (.running task),
      [.dequeued task])

def stopLocked : WorkerPool τ × List (PoolAction τ) :=
  if !pool.accepting && pool.stopping && pool.workers.isEmpty then (pool, [.stopReturned])
  else ({ pool with accepting := false, stopping := true, stop := some .notifying }, [])

def step : PoolEvent τ → Option (WorkerPool τ × List (PoolAction τ))
  | .submitted none =>
    some (pool, [.thrown (.invalidArgument "Worker task must not be empty")])
  | .submitted (some task) => some (pool.trySubmit task)
  | .notified worker =>
    if pool.notifications = 0 then none
    else
      let notified := { pool with notifications := pool.notifications - 1 }
      match worker with
      | none => if pool.workers.any Worker.isAsleep then none else some (notified, [])
      | some index =>
        match pool.workers[index]? with
        | some .asleep => some (notified.setWorker index .ready, [])
        | _ => none
  | .woken index =>
    match pool.workers[index]? with
    | some .asleep => some (pool.setWorker index .ready, [])
    | _ => none
  | .looked index =>
    match pool.workers[index]? with
    | some .ready => some (pool.look index)
    | _ => none
  | .executed index threw =>
    match pool.workers[index]? with
    | some (.running task) => some (pool.setWorker index .ran, [.executed task threw])
    | _ => none
  | .deactivated index =>
    match pool.workers[index]? with
    | some .ran =>
      some (({ pool with activeTasks := pool.activeTasks - 1 } : WorkerPool τ).setWorker index .deactivated, [])
    | _ => none
  | .completed index =>
    match pool.workers[index]? with
    | some .deactivated =>
      some (({ pool with completedTasks := pool.completedTasks + 1 } : WorkerPool τ).setWorker index .ready, [])
    | _ => none
  | .stopped => if pool.stop.isSome then none else some pool.stopLocked
  | .notifiedAll =>
    match pool.stop with
    | some .notifying => some ({ pool with workers := pool.workers.map Worker.wake, stop := some .joining }, [])
    | _ => none
  | .joined =>
    match pool.stop with
    | some .joining =>
      if pool.workers.all Worker.hasReturned then
        some ({ pool with workers := [], stop := none }, [.stopReturned])
      else none
    | _ => none

end WorkerPool

end SecureCore

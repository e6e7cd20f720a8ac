import SecureCore.Runtime.WorkerPool
import SecureCore.Transition.Parties
import SecureCore.Transition.Run

/-! # The tasks of a worker pool

Where every accepted task is: in the queue, with a worker, or executed. -/

set_option autoImplicit false

namespace SecureCore

open Transition

variable {τ : Type}

/-! ## What a step does -/

namespace WorkerPool

inductive Effect (pool : WorkerPool τ) : PoolEvent τ → List (PoolAction τ) → WorkerPool τ → Prop
  | empty : Effect pool (.submitted none)
      [.thrown (.invalidArgument "Worker task must not be empty")] pool
  | refused {task : τ} {result : SubmitResult} (hResult : result ≠ .accepted)
      (hStopped : pool.accepting = false → result = .stopped) :
      Effect pool (.submitted (some task)) [.answered task result]
        { pool with rejectedTasks := pool.rejectedTasks + 1 }
  | accepted {task : τ} (hAccepting : pool.accepting = true)
      (hRoom : pool.tasks.length < pool.queueCapacity) :
      Effect pool (.submitted (some task)) [.answered task .accepted]
        { pool with
          tasks := pool.tasks ++ [task]
          queuedTasks := pool.queuedTasks + 1
          notifications := pool.notifications + 1 }
  | unheard (hNotifications : 0 < pool.notifications) (hAwake : ∀ worker ∈ pool.workers, worker ≠ .asleep) :
      Effect pool (.notified none) [] { pool with notifications := pool.notifications - 1 }
  | notified {index : Nat} (hNotifications : 0 < pool.notifications)
      (hWorker : pool.workers[index]? = some .asleep) :
      Effect pool (.notified (some index)) []
        (({ pool with notifications := pool.notifications - 1 } : WorkerPool τ).setWorker index .ready)
  | woken {index : Nat} (hWorker : pool.workers[index]? = some .asleep) :
      Effect pool (.woken index) [] (pool.setWorker index .ready)
  | slept {index : Nat} (hWorker : pool.workers[index]? = some .ready) (hTasks : pool.tasks = [])
      (hRunning : pool.stopping = false) : Effect pool (.looked index) [] (pool.setWorker index .asleep)
  | returned {index : Nat} (hWorker : pool.workers[index]? = some .ready) (hTasks : pool.tasks = [])
      (hStopping : pool.stopping = true) : Effect pool (.looked index) [] (pool.setWorker index .returned)
  | dequeued {index : Nat} {task : τ} {rest : List τ} (hWorker : pool.workers[index]? = some .ready)
      (hTasks : pool.tasks = task :: rest) :
      Effect pool (.looked index) [.dequeued task]
        (({ pool with
          tasks := rest
          queuedTasks := pool.queuedTasks - 1
          activeTasks := pool.activeTasks + 1 } : WorkerPool τ).setWorker index (.running task))
  | executed {index : Nat} {task : τ} {threw : Bool} (hWorker : pool.workers[index]? = some (.running task)) :
      Effect pool (.executed index threw) [.executed task threw] (pool.setWorker index .ran)
  | deactivated {index : Nat} (hWorker : pool.workers[index]? = some .ran) :
      Effect pool (.deactivated index) []
        (({ pool with activeTasks := pool.activeTasks - 1 } : WorkerPool τ).setWorker index .deactivated)
  | completed {index : Nat} (hWorker : pool.workers[index]? = some .deactivated) :
      Effect pool (.completed index) []
        (({ pool with completedTasks := pool.completedTasks + 1 } : WorkerPool τ).setWorker index .ready)
  | stoppedAgain (hFree : pool.stop = none) (hStopping : pool.stopping = true) (hWorkers : pool.workers = []) :
      Effect pool .stopped [.stopReturned] pool
  | stopped (hFree : pool.stop = none) : Effect pool .stopped []
      { pool with accepting := false, stopping := true, stop := some .notifying }
  | notifiedAll (hStop : pool.stop = some .notifying) : Effect pool .notifiedAll []
      { pool with workers := pool.workers.map Worker.wake, stop := some .joining }
  | joined (hStop : pool.stop = some .joining) (hWorkers : ∀ worker ∈ pool.workers, worker = .returned) :
      Effect pool .joined [.stopReturned] { pool with workers := [], stop := none }

theorem trySubmit_effect (pool : WorkerPool τ) (task : τ) :
    pool.Effect (.submitted (some task)) (pool.trySubmit task).2 (pool.trySubmit task).1 := by
  simp only [trySubmit]
  split
  · exact .refused (by decide) (fun _ => rfl)
  · rename_i hAccepting
    have hAccepting : pool.accepting = true := by simpa using hAccepting
    split
    · apply Effect.refused (by decide)
      intro hClosed
      rw [hAccepting] at hClosed
      cases hClosed
    · rename_i hRoom
      exact .accepted hAccepting (Nat.lt_of_not_le hRoom)

theorem look_effect (pool : WorkerPool τ) {index : Nat} (hWorker : pool.workers[index]? = some .ready) :
    pool.Effect (.looked index) (pool.look index).2 (pool.look index).1 := by
  simp only [look]
  split
  · rename_i hTasks
    cases hStopping : pool.stopping with
    | false => exact .slept hWorker hTasks hStopping
    | true => exact .returned hWorker hTasks hStopping
  · rename_i hTasks
    exact .dequeued hWorker hTasks

theorem stopLocked_effect (pool : WorkerPool τ) (hFree : pool.stop = none) :
    pool.Effect .stopped pool.stopLocked.2 pool.stopLocked.1 := by
  simp only [stopLocked]
  split
  · rename_i hDone
    simp only [Bool.and_eq_true, List.isEmpty_iff] at hDone
    exact .stoppedAgain hFree hDone.1.2 hDone.2
  · exact .stopped hFree

theorem step_effect {pool pool' : WorkerPool τ} {event : PoolEvent τ} {actions : List (PoolAction τ)}
    (h : pool.step event = some (pool', actions)) : pool.Effect event actions pool' := by
  cases event with
  | submitted task =>
    cases task with
    | none =>
      cases h
      exact .empty
    | some task =>
      obtain ⟨rfl, rfl⟩ := Prod.mk.inj (Option.some.inj h)
      exact trySubmit_effect pool task
  | notified worker =>
    simp only [step] at h
    split at h
    · cases h
    · rename_i hNotifications
      split at h
      · split at h
        · cases h
        · rename_i hAwake
          cases h
          apply Effect.unheard (Nat.pos_of_ne_zero hNotifications)
          rintro worker hWorker rfl
          exact hAwake (List.any_eq_true.mpr ⟨.asleep, hWorker, rfl⟩)
      · split at h
        · rename_i hWorker
          cases h
          exact .notified (Nat.pos_of_ne_zero hNotifications) hWorker
        · cases h
  | woken index =>
    simp only [step] at h
    split at h
    · rename_i hWorker
      cases h
      exact .woken hWorker
    · cases h
  | looked index =>
    simp only [step] at h
    split at h
    · rename_i hWorker
      obtain ⟨rfl, rfl⟩ := Prod.mk.inj (Option.some.inj h)
      exact look_effect pool hWorker
    · cases h
  | executed index threw =>
    simp only [step] at h
    split at h
    · rename_i hWorker
      cases h
      exact .executed hWorker
    · cases h
  | deactivated index =>
    simp only [step] at h
    split at h
    · rename_i hWorker
      cases h
      exact .deactivated hWorker
    · cases h
  | completed index =>
    simp only [step] at h
    split at h
    · rename_i hWorker
      cases h
      exact .completed hWorker
    · cases h
  | stopped =>
    simp only [step] at h
    split at h
    · cases h
    · rename_i hFree
      obtain ⟨rfl, rfl⟩ := Prod.mk.inj (Option.some.inj h)
      exact stopLocked_effect pool (by simpa using hFree)
  | notifiedAll =>
    simp only [step] at h
    split at h
    · rename_i hStop
      cases h
      exact .notifiedAll hStop
    · cases h
  | joined =>
    simp only [step] at h
    split at h
    · rename_i hStop
      split at h
      · rename_i hAll
        cases h
        apply Effect.joined hStop
        intro worker hWorker
        have hReturned := List.all_eq_true.mp hAll worker hWorker
        cases worker <;> first | rfl | cases hReturned
      · cases h
    · cases h

end WorkerPool

/-! ## The books -/

abbrev PoolHistory (τ : Type) := List (Entry (WorkerPool τ) (PoolEvent τ) (PoolAction τ))

namespace PoolAction

def acceptedTask : PoolAction τ → Option τ
  | .answered task .accepted => some task
  | _ => none

def dequeuedTask : PoolAction τ → Option τ
  | .dequeued task => some task
  | _ => none

def executedTask : PoolAction τ → Option τ
  | .executed task _ => some task
  | _ => none

end PoolAction

/-- A call of try_submit that gets an answer. -/
def PoolEvent.isSubmission : PoolEvent τ → Bool
  | .submitted (some _) => true
  | _ => false

def acceptedTasks (history : PoolHistory τ) : List τ := (outputs history).filterMap PoolAction.acceptedTask

def dequeuedTasks (history : PoolHistory τ) : List τ := (outputs history).filterMap PoolAction.dequeuedTask

def executedTasks (history : PoolHistory τ) : List τ := (outputs history).filterMap PoolAction.executedTask

def submissions (history : PoolHistory τ) : Nat := history.countP (fun e => e.input.isSubmission)

namespace Worker

/-- Whether active_tasks_ counts the worker. -/
def isActive : Worker τ → Bool
  | .running _ | .ran => true
  | _ => false

def isDeactivated : Worker τ → Bool
  | .deactivated => true
  | _ => false

end Worker

/-- What the counters and the lists of a pool say about the tasks that have been accepted,
dequeued and executed, and about the number of submissions. -/
structure Books (queueCapacity : Nat) (accepted dequeued executed : List τ) (submitted : Nat)
    (pool : WorkerPool τ) : Prop where
  capacity : pool.queueCapacity = queueCapacity
  order : accepted = dequeued ++ pool.tasks
  once : (executed ++ pool.workers.filterMap Worker.task).Perm dequeued
  bounded : pool.tasks.length ≤ queueCapacity
  queued : pool.queuedTasks = pool.tasks.length
  active : pool.activeTasks = pool.workers.countP Worker.isActive
  completed : pool.completedTasks + pool.workers.countP Worker.isDeactivated +
    pool.workers.countP Worker.isActive = dequeued.length
  answered : accepted.length + pool.rejectedTasks = submitted

section steps

variable {queueCapacity submitted : Nat} {accepted dequeued executed : List τ} {pool pool' : WorkerPool τ}

/-- A step that no list and no counter notices. -/
theorem Books.unnoticed (h : Books queueCapacity accepted dequeued executed submitted pool)
    (hWorkers : pool'.workers.filterMap Worker.task = pool.workers.filterMap Worker.task ∧
      pool'.workers.countP Worker.isActive = pool.workers.countP Worker.isActive ∧
      pool'.workers.countP Worker.isDeactivated = pool.workers.countP Worker.isDeactivated)
    (hLists : pool'.queueCapacity = pool.queueCapacity ∧ pool'.tasks = pool.tasks)
    (hCounters : pool'.queuedTasks = pool.queuedTasks ∧ pool'.activeTasks = pool.activeTasks ∧
      pool'.completedTasks = pool.completedTasks ∧ pool'.rejectedTasks = pool.rejectedTasks) :
    Books queueCapacity (accepted ++ []) (dequeued ++ []) (executed ++ []) (submitted + 0) pool' := by
  obtain ⟨hTask, hActive, hDeactivated⟩ := hWorkers
  obtain ⟨hCapacity, hTasks⟩ := hLists
  obtain ⟨hQueuedCount, hActiveCount, hCompletedCount, hRejectedCount⟩ := hCounters
  rw [List.append_nil, List.append_nil, List.append_nil]
  constructor
  · exact hCapacity.trans h.capacity
  · rw [hTasks]
    exact h.order
  · rw [hTask]
    exact h.once
  · rw [hTasks]
    exact h.bounded
  · rw [hQueuedCount, hTasks]
    exact h.queued
  · rw [hActiveCount, hActive]
    exact h.active
  · rw [hCompletedCount, hDeactivated, hActive]
    exact h.completed
  · rw [hRejectedCount]
    exact h.answered

/-- A worker that changes between idle states is not noticed. -/
theorem idle_set {l : List (Worker τ)} {index : Nat} {worker worker' : Worker τ}
    (hWorker : l[index]? = some worker) (hTask : worker.task = none ∧ worker'.task = none)
    (hActive : worker.isActive = worker'.isActive) (hDeactivated : worker.isDeactivated = worker'.isDeactivated) :
    (l.set index worker').filterMap Worker.task = l.filterMap Worker.task ∧
      (l.set index worker').countP Worker.isActive = l.countP Worker.isActive ∧
      (l.set index worker').countP Worker.isDeactivated = l.countP Worker.isDeactivated := by
  have hActiveSum := countP_set hWorker worker' Worker.isActive
  have hDeactivatedSum := countP_set hWorker worker' Worker.isDeactivated
  rw [hActive] at hActiveSum
  rw [hDeactivated] at hDeactivatedSum
  constructor
  · obtain ⟨before, after, rfl, hSet⟩ := split_set hWorker worker'
    rw [hSet, List.filterMap_append, List.filterMap_append, List.filterMap_cons_none hTask.1,
      List.filterMap_cons_none hTask.2]
  · constructor <;> omega

theorem wake_map (l : List (Worker τ)) :
    (l.map Worker.wake).filterMap Worker.task = l.filterMap Worker.task ∧
      (l.map Worker.wake).countP Worker.isActive = l.countP Worker.isActive ∧
      (l.map Worker.wake).countP Worker.isDeactivated = l.countP Worker.isDeactivated := by
  have hTask : Worker.task ∘ Worker.wake = (Worker.task : Worker τ → Option τ) := by
    funext worker
    cases worker <;> rfl
  have hActive : Worker.isActive ∘ Worker.wake = (Worker.isActive : Worker τ → Bool) := by
    funext worker
    cases worker <;> rfl
  have hDeactivated : Worker.isDeactivated ∘ Worker.wake = (Worker.isDeactivated : Worker τ → Bool) := by
    funext worker
    cases worker <;> rfl
  rw [List.filterMap_map, List.countP_map, List.countP_map, hTask, hActive, hDeactivated]
  exact ⟨rfl, rfl, rfl⟩

theorem Books.refuse (h : Books queueCapacity accepted dequeued executed submitted pool) :
    Books queueCapacity accepted dequeued executed (submitted + 1)
      { pool with rejectedTasks := pool.rejectedTasks + 1 } :=
  ⟨h.capacity, h.order, h.once, h.bounded, h.queued, h.active, h.completed, congrArg (· + 1) h.answered⟩

theorem Books.accept (h : Books queueCapacity accepted dequeued executed submitted pool) (task : τ)
    (hRoom : pool.tasks.length < pool.queueCapacity) :
    Books queueCapacity (accepted ++ [task]) dequeued executed (submitted + 1)
      { pool with
        tasks := pool.tasks ++ [task]
        queuedTasks := pool.queuedTasks + 1
        notifications := pool.notifications + 1 } := by
  have hCapacity := h.capacity
  have hAnswered := h.answered
  constructor
  · exact hCapacity
  · rw [h.order, List.append_assoc]
  · exact h.once
  · simp only [List.length_append, List.length_singleton]
    omega
  · simp only [List.length_append, List.length_singleton, h.queued]
  · exact h.active
  · exact h.completed
  · simp only [List.length_append, List.length_singleton]
    omega

theorem Books.dequeue (h : Books queueCapacity accepted dequeued executed submitted pool) {index : Nat}
    {task : τ} {rest : List τ} (hWorker : pool.workers[index]? = some .ready) (hTasks : pool.tasks = task :: rest) :
    Books queueCapacity accepted (dequeued ++ [task]) executed submitted
      (({ pool with
        tasks := rest
        queuedTasks := pool.queuedTasks - 1
        activeTasks := pool.activeTasks + 1 } : WorkerPool τ).setWorker index (.running task)) := by
  have hActiveSum := countP_set hWorker (.running task) Worker.isActive
  have hDeactivatedSum := countP_set hWorker (.running task) Worker.isDeactivated
  have hPerm := filterMap_set hWorker (.running task) Worker.task
  simp only [Worker.isActive, Worker.isDeactivated, Bool.false_eq_true, if_false, if_true] at hActiveSum hDeactivatedSum
  simp only [Worker.task, Option.toList_none, Option.toList_some, List.append_nil] at hPerm
  have hBounded := h.bounded
  have hQueued := h.queued
  have hActive := h.active
  have hCompleted := h.completed
  rw [hTasks, List.length_cons] at hBounded hQueued
  constructor
  · exact h.capacity
  · rw [h.order, hTasks, List.append_assoc]
    rfl
  · have hRunning := hPerm.append_left executed
    rw [← List.append_assoc] at hRunning
    exact hRunning.trans (h.once.append_right [task])
  · exact Nat.le_of_succ_le hBounded
  · change pool.queuedTasks - 1 = rest.length
    omega
  · change pool.activeTasks + 1 = (pool.workers.set index (.running task)).countP Worker.isActive
    omega
  · change pool.completedTasks + (pool.workers.set index (.running task)).countP Worker.isDeactivated +
      (pool.workers.set index (.running task)).countP Worker.isActive = _
    rw [List.length_append, List.length_singleton]
    omega
  · exact h.answered

theorem Books.execute (h : Books queueCapacity accepted dequeued executed submitted pool) {index : Nat}
    {task : τ} (hWorker : pool.workers[index]? = some (.running task)) :
    Books queueCapacity accepted dequeued (executed ++ [task]) submitted (pool.setWorker index .ran) := by
  have hActiveSum := countP_set hWorker .ran Worker.isActive
  have hDeactivatedSum := countP_set hWorker .ran Worker.isDeactivated
  have hPerm := filterMap_set hWorker .ran Worker.task
  simp only [Worker.isActive, Worker.isDeactivated, Bool.false_eq_true, if_false, if_true] at hActiveSum hDeactivatedSum
  simp only [Worker.task, Option.toList_none, Option.toList_some, List.append_nil] at hPerm
  have hActive := h.active
  have hCompleted := h.completed
  constructor
  · exact h.capacity
  · exact h.order
  · rw [List.append_assoc]
    have hRan := (List.perm_append_comm.trans hPerm).append_left executed
    exact hRan.trans h.once
  · exact h.bounded
  · exact h.queued
  · change pool.activeTasks = (pool.workers.set index .ran).countP Worker.isActive
    omega
  · change pool.completedTasks + (pool.workers.set index .ran).countP Worker.isDeactivated +
      (pool.workers.set index .ran).countP Worker.isActive = _
    omega
  · exact h.answered

theorem Books.deactivate (h : Books queueCapacity accepted dequeued executed submitted pool) {index : Nat}
    (hWorker : pool.workers[index]? = some .ran) :
    Books queueCapacity accepted dequeued executed submitted
      (({ pool with activeTasks := pool.activeTasks - 1 } : WorkerPool τ).setWorker index .deactivated) := by
  have hActiveSum := countP_set hWorker .deactivated Worker.isActive
  have hDeactivatedSum := countP_set hWorker .deactivated Worker.isDeactivated
  have hPerm := filterMap_set hWorker .deactivated Worker.task
  simp only [Worker.isActive, Worker.isDeactivated, Bool.false_eq_true, if_false, if_true] at hActiveSum hDeactivatedSum
  simp only [Worker.task, Option.toList_none, List.append_nil] at hPerm
  have hActive := h.active
  have hCompleted := h.completed
  constructor
  · exact h.capacity
  · exact h.order
  · exact (hPerm.append_left executed).trans h.once
  · exact h.bounded
  · exact h.queued
  · change pool.activeTasks - 1 = (pool.workers.set index .deactivated).countP Worker.isActive
    omega
  · change pool.completedTasks + (pool.workers.set index .deactivated).countP Worker.isDeactivated +
      (pool.workers.set index .deactivated).countP Worker.isActive = _
    omega
  · exact h.answered

theorem Books.complete (h : Books queueCapacity accepted dequeued executed submitted pool) {index : Nat}
    (hWorker : pool.workers[index]? = some .deactivated) :
    Books queueCapacity accepted dequeued executed submitted
      (({ pool with completedTasks := pool.completedTasks + 1 } : WorkerPool τ).setWorker index .ready) := by
  have hActiveSum := countP_set hWorker .ready Worker.isActive
  have hDeactivatedSum := countP_set hWorker .ready Worker.isDeactivated
  have hPerm := filterMap_set hWorker .ready Worker.task
  simp only [Worker.isActive, Worker.isDeactivated, Bool.false_eq_true, if_false, if_true] at hActiveSum hDeactivatedSum
  simp only [Worker.task, Option.toList_none, List.append_nil] at hPerm
  have hActive := h.active
  have hCompleted := h.completed
  constructor
  · exact h.capacity
  · exact h.order
  · exact (hPerm.append_left executed).trans h.once
  · exact h.bounded
  · exact h.queued
  · change pool.activeTasks = (pool.workers.set index .ready).countP Worker.isActive
    omega
  · change pool.completedTasks + 1 + (pool.workers.set index .ready).countP Worker.isDeactivated +
      (pool.workers.set index .ready).countP Worker.isActive = _
    omega
  · exact h.answered

theorem returned_quiet {l : List (Worker τ)} (h : ∀ worker ∈ l, worker = .returned) :
    l.filterMap Worker.task = [] ∧ l.countP Worker.isActive = 0 ∧ l.countP Worker.isDeactivated = 0 := by
  constructor
  · rw [List.filterMap_eq_nil_iff]
    intro worker hWorker
    rw [h worker hWorker]
    rfl
  · constructor <;>
    · rw [List.countP_eq_zero]
      intro worker hWorker
      rw [h worker hWorker]
      exact Bool.false_ne_true

theorem Books.step (h : Books queueCapacity accepted dequeued executed submitted pool) {event : PoolEvent τ}
    {actions : List (PoolAction τ)} (hEffect : pool.Effect event actions pool') :
    Books queueCapacity (accepted ++ actions.filterMap PoolAction.acceptedTask)
      (dequeued ++ actions.filterMap PoolAction.dequeuedTask)
      (executed ++ actions.filterMap PoolAction.executedTask)
      (submitted + if event.isSubmission then 1 else 0) pool' := by
  have hNil : ∀ l : List τ, l = l ++ [] := fun l => (List.append_nil l).symm
  cases hEffect with
  | empty => exact h.unnoticed ⟨rfl, rfl, rfl⟩ ⟨rfl, rfl⟩ ⟨rfl, rfl, rfl, rfl⟩
  | @refused task result hResult hStopped =>
    have hNone : [PoolAction.answered task result].filterMap PoolAction.acceptedTask = [] := by
      cases result <;> first | rfl | exact absurd rfl hResult
    rw [hNone]
    change Books queueCapacity (accepted ++ []) (dequeued ++ []) (executed ++ []) (submitted + 1) _
    rw [← hNil, ← hNil, ← hNil]
    exact h.refuse
  | @accepted task hAccepting hRoom =>
    change Books queueCapacity (accepted ++ [task]) (dequeued ++ []) (executed ++ []) (submitted + 1) _
    rw [← hNil, ← hNil]
    exact h.accept task hRoom
  | unheard hNotifications hAwake => exact h.unnoticed ⟨rfl, rfl, rfl⟩ ⟨rfl, rfl⟩ ⟨rfl, rfl, rfl, rfl⟩
  | notified hNotifications hWorker =>
    exact h.unnoticed (idle_set hWorker ⟨rfl, rfl⟩ rfl rfl) ⟨rfl, rfl⟩ ⟨rfl, rfl, rfl, rfl⟩
  | woken hWorker => exact h.unnoticed (idle_set hWorker ⟨rfl, rfl⟩ rfl rfl) ⟨rfl, rfl⟩ ⟨rfl, rfl, rfl, rfl⟩
  | slept hWorker hTasks hRunning =>
    exact h.unnoticed (idle_set hWorker ⟨rfl, rfl⟩ rfl rfl) ⟨rfl, rfl⟩ ⟨rfl, rfl, rfl, rfl⟩
  | returned hWorker hTasks hStopping =>
    exact h.unnoticed (idle_set hWorker ⟨rfl, rfl⟩ rfl rfl) ⟨rfl, rfl⟩ ⟨rfl, rfl, rfl, rfl⟩
  | @dequeued index task rest hWorker hTasks =>
    change Books queueCapacity (accepted ++ []) (dequeued ++ [task]) (executed ++ []) submitted _
    rw [← hNil, ← hNil]
    exact h.dequeue hWorker hTasks
  | @executed index task threw hWorker =>
    change Books queueCapacity (accepted ++ []) (dequeued ++ []) (executed ++ [task]) submitted _
    rw [← hNil, ← hNil]
    exact h.execute hWorker
  | deactivated hWorker =>
    change Books queueCapacity (accepted ++ []) (dequeued ++ []) (executed ++ []) submitted _
    rw [← hNil, ← hNil, ← hNil]
    exact h.deactivate hWorker
  | completed hWorker =>
    change Books queueCapacity (accepted ++ []) (dequeued ++ []) (executed ++ []) submitted _
    rw [← hNil, ← hNil, ← hNil]
    exact h.complete hWorker
  | stoppedAgain hFree hStopping hWorkers => exact h.unnoticed ⟨rfl, rfl, rfl⟩ ⟨rfl, rfl⟩ ⟨rfl, rfl, rfl, rfl⟩
  | stopped hFree => exact h.unnoticed ⟨rfl, rfl, rfl⟩ ⟨rfl, rfl⟩ ⟨rfl, rfl, rfl, rfl⟩
  | notifiedAll hStop => exact h.unnoticed (wake_map pool.workers) ⟨rfl, rfl⟩ ⟨rfl, rfl, rfl, rfl⟩
  | joined hStop hWorkers =>
    obtain ⟨hTask, hActive, hDeactivated⟩ := returned_quiet hWorkers
    exact h.unnoticed ⟨hTask.symm, hActive.symm, hDeactivated.symm⟩ ⟨rfl, rfl⟩ ⟨rfl, rfl, rfl, rfl⟩

end steps

end SecureCore

import SecureCore.Runtime.TaskAccounts

/-! # Every run of a worker pool

A worker returns only when the pool stops and the queue is empty, and a queued task is
never forgotten. -/

set_option autoImplicit false

namespace SecureCore

open Transition

variable {τ : Type}

/-! ## Nobody sleeps while there is work -/

def Worker.isAwake : Worker τ → Bool
  | .asleep | .returned => false
  | _ => true

structure Watched (pool : WorkerPool τ) : Prop where
  closed : pool.accepting = !pool.stopping
  returned : .returned ∈ pool.workers → pool.stopping = true ∧ pool.tasks = []
  ended : pool.workers = [] → pool.stopping = true ∧ pool.tasks = []
  /-- A queued task has somebody who will look at it, or who is about to be woken. -/
  heard : pool.tasks ≠ [] → 0 < pool.notifications ∨ ∃ worker ∈ pool.workers, worker.isAwake = true
  woken : pool.stopping = true → pool.stop = some .notifying ∨ .asleep ∉ pool.workers
  joining : pool.stop ≠ none → pool.stopping = true

section steps

variable {pool pool' : WorkerPool τ}

/-- A worker that is awake after its step breaks nothing. -/
theorem Watched.set (h : Watched pool) {index : Nat} {worker worker' : Worker τ}
    (hWorker : pool.workers[index]? = some worker) (hAwake : worker'.isAwake = true)
    (hWorkers : pool'.workers = pool.workers.set index worker')
    (hFlags : pool'.accepting = pool.accepting ∧ pool'.stopping = pool.stopping ∧ pool'.stop = pool.stop)
    (hTasks : pool.tasks = [] → pool'.tasks = []) : Watched pool' := by
  obtain ⟨hAccepting, hStopping, hStop⟩ := hFlags
  obtain ⟨hBound, -⟩ := List.getElem?_eq_some_iff.mp hWorker
  have hOld : ∀ other, other.isAwake = false → other ∈ pool'.workers → other ∈ pool.workers := by
    intro other hOther hMem
    rw [hWorkers] at hMem
    obtain hMem | rfl := List.mem_or_eq_of_mem_set hMem
    · exact hMem
    · rw [hAwake] at hOther
      cases hOther
  constructor
  · rw [hAccepting, hStopping]
    exact h.closed
  · intro hReturned
    obtain ⟨hStopped, hEmpty⟩ := h.returned (hOld _ rfl hReturned)
    exact ⟨hStopping.trans hStopped, hTasks hEmpty⟩
  · intro hNone
    have hLength := congrArg List.length hNone
    rw [hWorkers, List.length_set] at hLength
    exact absurd hBound (by rw [hLength]; exact Nat.not_lt_zero index)
  · intro _
    right
    rw [hWorkers]
    exact ⟨worker', List.mem_set hBound worker', hAwake⟩
  · intro hStopped
    rw [hStop]
    obtain hNotifying | hNone := h.woken (hStopping.symm.trans hStopped)
    · exact .inl hNotifying
    · exact .inr (fun hAsleep => hNone (hOld _ rfl hAsleep))
  · rw [hStop, hStopping]
    exact h.joining

theorem Watched.step (h : Watched pool) {event : PoolEvent τ} {actions : List (PoolAction τ)}
    (hEffect : pool.Effect event actions pool') : Watched pool' := by
  cases hEffect with
  | empty => exact h
  | refused hResult hStopped => exact ⟨h.closed, h.returned, h.ended, h.heard, h.woken, h.joining⟩
  | accepted hAccepting hRoom =>
    have hRunning : pool.stopping = false := by
      have hClosed := h.closed
      rw [hAccepting] at hClosed
      simpa using hClosed.symm
    have hNever : ∀ {P : Prop}, pool.stopping = true → P := by
      intro P hStopping
      rw [hRunning] at hStopping
      cases hStopping
    constructor
    · exact h.closed
    · exact fun hReturned => hNever (h.returned hReturned).1
    · exact fun hNone => hNever (h.ended hNone).1
    · exact fun _ => .inl (Nat.succ_pos _)
    · exact fun hStopping => hNever hStopping
    · exact fun hStop => hNever (h.joining hStop)
  | unheard hNotifications hAwake =>
    refine ⟨h.closed, h.returned, h.ended, ?_, h.woken, h.joining⟩
    intro hTasks
    right
    obtain ⟨worker, hWorker⟩ := List.exists_mem_of_ne_nil pool.workers
      (fun hNone => hTasks (h.ended hNone).2)
    refine ⟨worker, hWorker, ?_⟩
    cases worker with
    | asleep => exact absurd rfl (hAwake _ hWorker)
    | returned => exact absurd (h.returned hWorker).2 hTasks
    | _ => rfl
  | notified hNotifications hWorker => exact h.set hWorker rfl rfl ⟨rfl, rfl, rfl⟩ id
  | woken hWorker => exact h.set hWorker rfl rfl ⟨rfl, rfl, rfl⟩ id
  | slept hWorker hTasks hRunning =>
    constructor
    · exact h.closed
    · intro hReturned
      obtain hReturned | hSame := List.mem_or_eq_of_mem_set hReturned
      · exact h.returned hReturned
      · cases hSame
    · intro hNone
      have hEmpty : pool.workers = [] := by simpa [WorkerPool.setWorker] using hNone
      exact h.ended hEmpty
    · exact fun hSome => absurd hTasks hSome
    · intro hStopping
      cases hRunning.symm.trans hStopping
    · exact h.joining
  | returned hWorker hTasks hStopping =>
    refine ⟨h.closed, fun _ => ⟨hStopping, hTasks⟩, fun _ => ⟨hStopping, hTasks⟩,
      fun hSome => absurd hTasks hSome, ?_, h.joining⟩
    intro _
    obtain hNotifying | hNone := h.woken hStopping
    · exact .inl hNotifying
    · right
      intro hAsleep
      obtain hAsleep | hSame := List.mem_or_eq_of_mem_set hAsleep
      · exact hNone hAsleep
      · cases hSame
  | dequeued hWorker hTasks =>
    exact h.set hWorker rfl rfl ⟨rfl, rfl, rfl⟩
      (fun hEmpty => absurd (hTasks.symm.trans hEmpty) (List.cons_ne_nil _ _))
  | executed hWorker => exact h.set hWorker rfl rfl ⟨rfl, rfl, rfl⟩ id
  | deactivated hWorker => exact h.set hWorker rfl rfl ⟨rfl, rfl, rfl⟩ id
  | completed hWorker => exact h.set hWorker rfl rfl ⟨rfl, rfl, rfl⟩ id
  | stoppedAgain hFree hStopping hWorkers => exact h
  | stopped hFree =>
    exact ⟨rfl, fun hReturned => ⟨rfl, (h.returned hReturned).2⟩, fun hNone => ⟨rfl, (h.ended hNone).2⟩,
      h.heard, fun _ => .inl rfl, fun _ => rfl⟩
  | notifiedAll hStop =>
    have hStopping := h.joining (by simp [hStop])
    have hWake : ∀ worker : Worker τ, worker.wake ≠ .asleep ∧
        (worker.wake = .returned → worker = .returned) ∧ (worker.isAwake = true → worker.wake.isAwake = true) := by
      intro worker
      cases worker <;> simp [Worker.wake, Worker.isAwake]
    constructor
    · exact h.closed
    · intro hReturned
      obtain ⟨worker, hWorker, hSame⟩ := List.mem_map.mp hReturned
      exact h.returned ((hWake worker).2.1 hSame ▸ hWorker)
    · intro hNone
      exact h.ended (List.map_eq_nil_iff.mp hNone)
    · intro hTasks
      obtain hNotifications | ⟨worker, hWorker, hAwake⟩ := h.heard hTasks
      · exact .inl hNotifications
      · exact .inr ⟨worker.wake, List.mem_map_of_mem hWorker, (hWake worker).2.2 hAwake⟩
    · intro _
      right
      intro hAsleep
      obtain ⟨worker, -, hSame⟩ := List.mem_map.mp hAsleep
      exact (hWake worker).1 hSame
    · exact fun _ => hStopping
  | joined hStop hWorkers =>
    have hStopping := h.joining (by rw [hStop]; nofun)
    have hEmpty : pool.tasks = [] := by
      cases hAll : pool.workers with
      | nil => exact (h.ended hAll).2
      | cons worker rest =>
        have hFirst : worker ∈ pool.workers := by rw [hAll]; exact List.mem_cons_self
        exact (h.returned (hWorkers worker hFirst ▸ hFirst)).2
    exact ⟨h.closed, fun _ => ⟨hStopping, hEmpty⟩, fun _ => ⟨hStopping, hEmpty⟩,
      fun hSome => absurd hEmpty hSome, fun _ => .inr List.not_mem_nil, fun hSome => absurd rfl hSome⟩

end steps

/-! ## Progress -/

/-- A step that no caller has to make. -/
def PoolEvent.isInternal : PoolEvent τ → Bool
  | .submitted _ | .woken _ | .stopped => false
  | _ => true

def Worker.effort : Worker τ → Nat
  | .running _ => 4
  | .ran => 3
  | .deactivated => 2
  | .ready => 1
  | .asleep | .returned => 0

namespace WorkerPool

/-- A bound of the internal steps that are left. -/
def effort (pool : WorkerPool τ) : Nat :=
  4 * pool.tasks.length + 2 * pool.notifications + (pool.workers.map Worker.effort).sum +
    match pool.stop with
    | none => 0
    | some .joining => 1
    | some .notifying => pool.workers.length + 2

/-- Nothing is left to do until somebody calls. -/
structure Idle (pool : WorkerPool τ) : Prop where
  tasks : pool.tasks = []
  workers : ∀ worker ∈ pool.workers, worker.isAwake = false
  stop : pool.stop = none

theorem effort_wake (workers : List (Worker τ)) :
    ((workers.map Worker.wake).map Worker.effort).sum ≤ (workers.map Worker.effort).sum + workers.length := by
  induction workers with
  | nil => exact Nat.le_refl _
  | cons worker rest ih =>
    simp only [List.map_cons, List.sum_cons, List.length_cons]
    have hOwn : worker.wake.effort ≤ worker.effort + 1 := by
      cases worker <;> simp [Worker.wake, Worker.effort]
    omega

theorem effort_returned {workers : List (Worker τ)} (h : ∀ worker ∈ workers, worker = .returned) :
    (workers.map Worker.effort).sum = 0 := by
  rw [List.sum_eq_zero]
  intro n hn
  obtain ⟨worker, hWorker, rfl⟩ := List.mem_map.mp hn
  rw [h worker hWorker]
  rfl

theorem Effect.effort_lt {pool pool' : WorkerPool τ} {event : PoolEvent τ} {actions : List (PoolAction τ)}
    (h : pool.Effect event actions pool') (hInternal : event.isInternal = true) :
    pool'.effort < pool.effort := by
  cases h with
  | empty => cases hInternal
  | refused => cases hInternal
  | accepted => cases hInternal
  | woken => cases hInternal
  | stoppedAgain => cases hInternal
  | stopped => cases hInternal
  | unheard hNotifications hAwake =>
    simp only [effort]
    omega
  | notified hNotifications hWorker =>
    have hSum := sum_set hWorker .ready Worker.effort
    simp only [Worker.effort] at hSum
    simp only [effort, setWorker, List.length_set]
    omega
  | slept hWorker hTasks hRunning =>
    have hSum := sum_set hWorker .asleep Worker.effort
    simp only [Worker.effort] at hSum
    simp only [effort, setWorker, List.length_set]
    omega
  | returned hWorker hTasks hStopping =>
    have hSum := sum_set hWorker .returned Worker.effort
    simp only [Worker.effort] at hSum
    simp only [effort, setWorker, List.length_set]
    omega
  | @dequeued index task rest hWorker hTasks =>
    have hSum := sum_set hWorker (.running task) Worker.effort
    simp only [Worker.effort] at hSum
    simp only [effort, setWorker, List.length_set, hTasks, List.length_cons]
    omega
  | executed hWorker =>
    have hSum := sum_set hWorker .ran Worker.effort
    simp only [Worker.effort] at hSum
    simp only [effort, setWorker, List.length_set]
    omega
  | deactivated hWorker =>
    have hSum := sum_set hWorker .deactivated Worker.effort
    simp only [Worker.effort] at hSum
    simp only [effort, setWorker, List.length_set]
    omega
  | completed hWorker =>
    have hSum := sum_set hWorker .ready Worker.effort
    simp only [Worker.effort] at hSum
    simp only [effort, setWorker, List.length_set]
    omega
  | notifiedAll hStop =>
    have hWake := effort_wake pool.workers
    simp only [effort, hStop]
    omega
  | joined hStop hWorkers =>
    have hSum := effort_returned hWorkers
    simp only [effort, hStop, hSum, List.map_nil, List.sum_nil]
    omega

/-- A worker that is awake can make its next step. -/
theorem exists_step_of_awake {pool : WorkerPool τ} {worker : Worker τ} (hMem : worker ∈ pool.workers)
    (hAwake : worker.isAwake = true) : ∃ event, event.isInternal = true ∧ (pool.step event).isSome = true := by
  obtain ⟨index, hBound, hGet⟩ := List.mem_iff_getElem.mp hMem
  have hWorker : pool.workers[index]? = some worker := List.getElem?_eq_some_iff.mpr ⟨hBound, hGet⟩
  cases worker with
  | ready => exact ⟨.looked index, rfl, by simp only [step, hWorker, Option.isSome_some]⟩
  | running task => exact ⟨.executed index false, rfl, by simp only [step, hWorker, Option.isSome_some]⟩
  | ran => exact ⟨.deactivated index, rfl, by simp only [step, hWorker, Option.isSome_some]⟩
  | deactivated => exact ⟨.completed index, rfl, by simp only [step, hWorker, Option.isSome_some]⟩
  | asleep => cases hAwake
  | returned => cases hAwake

theorem exists_step_of_notification {pool : WorkerPool τ} (h : 0 < pool.notifications) :
    ∃ event, event.isInternal = true ∧ (pool.step event).isSome = true := by
  have hSome : pool.notifications ≠ 0 := Nat.pos_iff_ne_zero.mp h
  cases hAsleep : pool.workers.any Worker.isAsleep with
  | false => exact ⟨.notified none, rfl, by simp [step, hSome, hAsleep]⟩
  | true =>
    obtain ⟨worker, hMem, hOwn⟩ := List.any_eq_true.mp hAsleep
    obtain ⟨index, hBound, hGet⟩ := List.mem_iff_getElem.mp hMem
    have hWorker : pool.workers[index]? = some .asleep := by
      apply List.getElem?_eq_some_iff.mpr
      refine ⟨hBound, hGet.trans ?_⟩
      cases worker <;> first | rfl | cases hOwn
    exact ⟨.notified (some index), rfl, by simp [step, hSome, hWorker]⟩

/-- The pool never gets stuck. -/
theorem idle_or_step {pool : WorkerPool τ} (h : Watched pool) :
    pool.Idle ∨ ∃ event, event.isInternal = true ∧ (pool.step event).isSome = true := by
  by_contra hStuck
  rw [not_or] at hStuck
  obtain ⟨hBusy, hNone⟩ := hStuck
  have hWorkers : ∀ worker ∈ pool.workers, worker.isAwake = false := by
    intro worker hMem
    rw [← Bool.not_eq_true]
    exact fun hAwake => hNone (exists_step_of_awake hMem hAwake)
  have hTasks : pool.tasks = [] := by
    by_contra hTasks
    obtain hNotifications | ⟨worker, hMem, hAwake⟩ := h.heard hTasks
    · exact hNone (exists_step_of_notification hNotifications)
    · exact hNone (exists_step_of_awake hMem hAwake)
  cases hStop : pool.stop with
  | none => exact hBusy ⟨hTasks, hWorkers, hStop⟩
  | some phase =>
    cases phase with
    | notifying => exact hNone ⟨.notifiedAll, rfl, by simp only [step, hStop, Option.isSome_some]⟩
    | joining =>
      have hStopping := h.joining (by simp [hStop])
      have hAwoken := (h.woken hStopping).resolve_left (by simp [hStop])
      have hAll : pool.workers.all Worker.hasReturned = true := by
        rw [List.all_eq_true]
        intro worker hMem
        have hOwn := hWorkers worker hMem
        cases worker with
        | asleep => exact absurd hMem hAwoken
        | returned => rfl
        | _ => cases hOwn
      exact hNone ⟨.joined, rfl, by simp only [step, hStop, hAll, if_true, Option.isSome_some]⟩

end WorkerPool

/-! ## Every run -/

section runs

variable {threadCount queueCapacity : Nat} {start pool : WorkerPool τ} {history : PoolHistory τ}

theorem watched_create (h : WorkerPool.create threadCount queueCapacity = .ok start) :
    Watched start ∧ Books queueCapacity [] [] [] 0 start := by
  simp only [WorkerPool.create] at h
  split_ifs at h with hThreads hCapacity
  cases h
  have hReady : ∀ worker ∈ List.replicate threadCount (Worker.ready : Worker τ), worker = .ready :=
    fun worker hWorker => List.eq_of_mem_replicate hWorker
  constructor
  · constructor
    · rfl
    · intro hReturned
      cases hReady _ hReturned
    · intro hNone
      exact absurd (List.replicate_eq_nil_iff _ |>.mp hNone) hThreads
    · exact fun hSome => absurd rfl hSome
    · exact fun hStopping => nomatch hStopping
    · exact fun hStop => absurd rfl hStop
  · constructor
    · rfl
    · rfl
    · rw [List.nil_append, List.filterMap_eq_nil_iff.mpr]
      intro worker hWorker
      rw [hReady worker hWorker]
      rfl
    · exact Nat.zero_le _
    · rfl
    · symm
      rw [List.countP_eq_zero]
      intro worker hWorker
      rw [hReady worker hWorker]
      exact Bool.false_ne_true
    · rw [List.countP_replicate, List.countP_replicate]
      rfl
    · rfl

theorem run_accounts (hCreate : WorkerPool.create threadCount queueCapacity = .ok start)
    (hRun : Run (partialStep WorkerPool.step) start history pool) : Watched pool ∧
      Books queueCapacity (acceptedTasks history) (dequeuedTasks history) (executedTasks history)
        (submissions history) pool := by
  induction hRun with
  | nil => exact watched_create hCreate
  | @cons e older hOlder hStep ih =>
    obtain ⟨hWatched, hBooks⟩ := ih
    have hEffect := WorkerPool.step_effect hStep
    have hNext := hBooks.step hEffect
    simp only [acceptedTasks, dequeuedTasks, executedTasks, submissions, outputs_cons,
      List.filterMap_append, List.countP_cons]
    exact ⟨hWatched.step hEffect, hNext⟩

theorem WorkerPool.Effect.stopReturned {pool' : WorkerPool τ} {event : PoolEvent τ} {actions : List (PoolAction τ)}
    (h : pool.Effect event actions pool') (hWatched : Watched pool) (hReturned : .stopReturned ∈ actions) :
    pool'.workers = [] ∧ pool'.tasks = [] ∧ pool'.stopping = true := by
  cases h with
  | stoppedAgain hFree hStopping hWorkers => exact ⟨hWorkers, (hWatched.ended hWorkers).2, hStopping⟩
  | joined hStop hWorkers =>
    have hNext := hWatched.step (.joined hStop hWorkers)
    obtain ⟨hStopping, hTasks⟩ := hNext.ended rfl
    exact ⟨rfl, hTasks, hStopping⟩
  | _ => simp at hReturned

theorem WorkerPool.Effect.stopping {pool' : WorkerPool τ} {event : PoolEvent τ} {actions : List (PoolAction τ)}
    (h : pool.Effect event actions pool') (hStopping : pool.stopping = true) : pool'.stopping = true := by
  cases h with
  | stopped hFree => rfl
  | _ => exact hStopping

theorem WorkerPool.Effect.answer {pool' : WorkerPool τ} {event : PoolEvent τ} {actions : List (PoolAction τ)}
    (h : pool.Effect event actions pool') (hClosed : pool.accepting = false) {task : τ} {result : SubmitResult}
    (hAnswer : .answered task result ∈ actions) : result = .stopped := by
  cases h with
  | refused hResult hStopped =>
    cases List.mem_singleton.mp hAnswer
    exact hStopped hClosed
  | accepted hAccepting hRoom =>
    rw [hClosed] at hAccepting
    cases hAccepting
  | _ => simp at hAnswer

/-- What is true when a call of stop() returns. -/
structure PoolFinished (history : PoolHistory τ) (pool : WorkerPool τ) : Prop where
  empty : pool.tasks = []
  quiet : pool.workers = []
  active : pool.activeTasks = 0
  completed : pool.completedTasks = (acceptedTasks history).length
  executed : (executedTasks history).Perm (acceptedTasks history)
  answered : (acceptedTasks history).length + pool.rejectedTasks = submissions history

/-- What the pool promises, of every run. -/
structure TasksKept (queueCapacity : Nat) (history : PoolHistory τ) (pool : WorkerPool τ) : Prop where
  /-- Tasks leave the queue in the order of their submission. -/
  order : acceptedTasks history = dequeuedTasks history ++ pool.tasks
  /-- What has left the queue has been executed once, or is being executed. -/
  once : (executedTasks history ++ pool.workers.filterMap Worker.task).Perm (dequeuedTasks history)
  /-- So a rejected task is never executed, and an accepted one not twice. -/
  rejected : (executedTasks history).Subperm (acceptedTasks history)
  bounded : pool.tasks.length ≤ queueCapacity
  queued : pool.queuedTasks = pool.tasks.length
  stopped : ∀ newer e older, history = newer ++ e :: older → .stopReturned ∈ e.outputs →
    PoolFinished (e :: older) e.after ∧
      ∀ e' ∈ newer, ∀ task result, .answered task result ∈ e'.outputs → result = .stopped
  /-- Unless all is done, some step can be made, and such steps come to an end. -/
  progress : pool.Idle ∨ ∃ event, event.isInternal = true ∧ (pool.step event).isSome = true
  descent : ∀ event pool' actions, event.isInternal = true → pool.step event = some (pool', actions) →
    pool'.effort < pool.effort

theorem WorkerPool.run_tasks (hCreate : WorkerPool.create threadCount queueCapacity = .ok start)
    (hRun : Run (partialStep WorkerPool.step) start history pool) :
    TasksKept queueCapacity history pool := by
  obtain ⟨hWatched, hBooks⟩ := run_accounts hCreate hRun
  constructor
  · exact hBooks.order
  · exact hBooks.once
  · have hExecuted := (List.sublist_append_left (executedTasks history)
      (pool.workers.filterMap Worker.task)).subperm.trans hBooks.once.subperm
    rw [hBooks.order]
    exact hExecuted.trans (List.sublist_append_left _ pool.tasks).subperm
  · exact hBooks.bounded
  · exact hBooks.queued
  · rintro newer e older rfl hReturned
    obtain ⟨hOlder, hStep, hNewer⟩ := hRun.at_entry
    have hBefore := (run_accounts hCreate hOlder).1
    have hAfter := (run_accounts hCreate (.cons hOlder hStep)).2
    obtain ⟨hWorkers, hTasks, hStopping⟩ :=
      (WorkerPool.step_effect hStep).stopReturned hBefore hReturned
    have hOrder := hAfter.order
    have hOnce := hAfter.once
    have hActive := hAfter.active
    have hCompleted := hAfter.completed
    rw [hTasks, List.append_nil] at hOrder
    rw [hWorkers] at hOnce hActive hCompleted
    constructor
    · refine ⟨hTasks, hWorkers, hActive, ?_, ?_, hAfter.answered⟩
      · rw [hOrder]
        exact hCompleted
      · rw [hOrder]
        rw [List.filterMap_nil, List.append_nil] at hOnce
        exact hOnce
    · intro e' he' task result hAnswer
      obtain ⟨latest, between, rfl⟩ := List.append_of_mem he'
      obtain ⟨hBetween, hStep', -⟩ := hNewer.at_entry
      have hLater : e'.before.stopping = true := by
        apply hBetween.invariant (I := fun pool => pool.stopping = true) hStopping
        intro s event actions s' hStopping hStep
        exact (WorkerPool.step_effect hStep).stopping hStopping
      have hClosed := (run_accounts hCreate ((Run.cons hOlder hStep).append hBetween)).1.closed
      rw [hLater] at hClosed
      exact (WorkerPool.step_effect hStep').answer hClosed hAnswer
  · exact WorkerPool.idle_or_step hWatched
  · intro event pool' actions hInternal hStep
    exact (WorkerPool.step_effect hStep).effort_lt hInternal

end runs

namespace Sample

/-- One worker and room for one task. The second task waits, the third is refused, and a
task that comes after the stop too. -/
def busyPool : List (PoolEvent Nat) :=
  [.submitted (some 0), .notified none, .looked 0, .submitted (some 1), .submitted (some 2), .executed 0 true,
    .deactivated 0, .completed 0, .stopped, .notifiedAll, .looked 0, .executed 0 false, .deactivated 0,
    .completed 0, .looked 0, .joined, .submitted (some 3), .submitted none]

end Sample

theorem WorkerPool.run_tasks_sample : ∃ (start pool : WorkerPool Nat) (history : PoolHistory Nat),
    WorkerPool.create 1 1 = .ok start ∧
      trace WorkerPool.step start Sample.busyPool [] = some (history, pool) ∧
      executedTasks history = [0, 1] ∧ TasksKept 1 history pool := by
  have hCreate : WorkerPool.create 1 1 = .ok (⟨1, 1, [.ready], [], true, false, 0, 0, 0, 0, 0, none⟩ :
      WorkerPool Nat) := rfl
  have hSome : (trace WorkerPool.step (⟨1, 1, [.ready], [], true, false, 0, 0, 0, 0, 0, none⟩ : WorkerPool Nat)
      Sample.busyPool []).map (fun result => executedTasks result.1) = some [0, 1] := by
    decide +kernel
  obtain ⟨⟨history, pool⟩, hTrace, hExecuted⟩ := Option.map_eq_some_iff.mp hSome
  exact ⟨_, pool, history, hCreate, hTrace, hExecuted, WorkerPool.run_tasks hCreate (run_of_trace .nil hTrace)⟩

end SecureCore

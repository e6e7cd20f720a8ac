import SecureCore.Database.ConnectionPool

/-! # Every connection is free or leased to one holder -/

set_option autoImplicit false

namespace SecureCore

open Transition

namespace LeaseAction

def isGranted : LeaseAction → Bool
  | .granted _ => true
  | _ => false

def isTimeout : LeaseAction → Bool
  | .refused (.databasePoolTimeoutError _) => true
  | _ => false

end LeaseAction

/-! ## What a step does -/

namespace PoolUsers

theorem leaseAt_eq {users : PoolUsers} {lease : Nat} {value : DatabaseConnectionLease} :
    users.leaseAt lease = some value ↔ users.leases[lease]? = some (some value) :=
  Option.join_eq_some_iff

inductive Effect (users : PoolUsers) : LeaseEvent → List LeaseAction → PoolUsers → Prop
  | took {thread : Nat} : Effect users (.acquired thread) users.take.2 users.take.1
  | waited {thread : Nat} (hNew : thread ∉ users.waiting) : Effect users (.acquired thread) []
      { users with
        pool := { users.pool with waitingThreads := users.pool.waitingThreads + 1 }
        waiting := users.waiting ++ [thread] }
  | slept {thread : Nat} : Effect users (.woken thread) [] users
  | left {thread : Nat} {event : LeaseEvent} (hThread : thread ∈ users.waiting)
      (hEvent : event = .woken thread ∨ event = .timedOut thread) :
      Effect users event (users.leave thread).take.2 (users.leave thread).take.1
  | constructed {source : Nat} {lease : DatabaseConnectionLease}
      (hLease : users.leases[source]? = some (some lease)) :
      Effect users (.moveConstructed source) []
        { users.setLease source (some lease.moved) with
          leases := (users.setLease source (some lease.moved)).leases ++ [some lease] }
  | selfAssigned {target : Nat} : Effect users (.moveAssigned target target) [] users
  | assigned {target source : Nat} {old lease : DatabaseConnectionLease}
      (hTarget : users.leases[target]? = some (some old)) (hSource : users.leases[source]? = some (some lease))
      (hOther : target ≠ source) :
      Effect users (.moveAssigned target source) (users.releaseAt target old (fun _ => some lease)).2
        ((users.releaseAt target old (fun _ => some lease)).1.setLease source (some lease.moved))
  | destroyed {lease : Nat} {value : DatabaseConnectionLease}
      (hLease : users.leases[lease]? = some (some value)) :
      Effect users (.destroyed lease) (users.releaseAt lease value (fun _ => none)).2
        (users.releaseAt lease value (fun _ => none)).1
  | began : Effect users .shutdownBegan [] { users with pool := { users.pool with shuttingDown := true } }
  | finished (hDown : users.pool.shuttingDown = true) (hActive : users.pool.activeConnections = 0) :
      Effect users .shutdownFinished [.closed users.pool.handles]
        { users with pool := { users.pool with handles := [], availableIndices := [] }, closed := true }

theorem step_effect {users users' : PoolUsers} {event : LeaseEvent} {actions : List LeaseAction}
    (h : users.step event = some (users', actions)) : users.Effect event actions users' := by
  cases event with
  | acquired thread =>
    simp only [step] at h
    split at h
    · cases h
    · rename_i hNew
      simp only [Bool.or_eq_true, decide_eq_true_eq, not_or] at hNew
      simp only [acquire] at h
      split at h
      · obtain ⟨rfl, rfl⟩ := Prod.mk.inj (Option.some.inj h)
        exact .took
      · cases h
        exact .waited hNew.2
  | woken thread =>
    simp only [step] at h
    split at h
    · rename_i hThread
      obtain hEq := Option.some.inj h
      split at hEq
      · obtain ⟨rfl, rfl⟩ := Prod.mk.inj hEq
        exact .left hThread (.inl rfl)
      · cases hEq
        exact .slept
    · cases h
  | timedOut thread =>
    simp only [step] at h
    split at h
    · rename_i hThread
      obtain ⟨rfl, rfl⟩ := Prod.mk.inj (Option.some.inj h)
      exact .left hThread (.inr rfl)
    · cases h
  | moveConstructed source =>
    simp only [step] at h
    split at h
    · cases h
    · rename_i lease hLease
      cases h
      exact .constructed (leaseAt_eq.mp hLease)
  | moveAssigned target source =>
    simp only [step] at h
    split at h
    · rename_i old lease hTarget hSource
      split at h
      · rename_i hSame
        subst hSame
        cases h
        exact .selfAssigned
      · rename_i hOther
        obtain ⟨rfl, rfl⟩ := Prod.mk.inj (Option.some.inj h)
        exact .assigned (leaseAt_eq.mp hTarget) (leaseAt_eq.mp hSource) hOther
    · cases h
  | destroyed lease =>
    simp only [step] at h
    split at h
    · cases h
    · rename_i value hLease
      have hEffect := Effect.destroyed (leaseAt_eq.mp hLease)
      rw [Option.some.inj h] at hEffect
      exact hEffect
  | shutdownBegan =>
    simp only [step] at h
    split at h
    · cases h
    · cases h
      exact .began
  | shutdownFinished =>
    simp only [step] at h
    split at h
    · rename_i hDone
      cases h
      simp only [Bool.and_eq_true, beq_iff_eq] at hDone
      exact .finished hDone.1.1.1 hDone.1.2
    · cases h

end PoolUsers

/-! ## The invariant -/

/-- What an object holds, unless it is destroyed. -/
def holds (lease : Option DatabaseConnectionLease) : Option Nat := lease.bind DatabaseConnectionLease.held

structure PoolBooks (poolSize granted timedOut : Nat) (users : PoolUsers) : Prop where
  partition : users.closed = false → (users.pool.availableIndices ++ users.held).Perm (List.range poolSize)
  handles : users.closed = false → users.pool.handles = List.range poolSize
  emptied : users.closed = true → users.held = [] ∧ users.pool.shuttingDown = true
  active : users.pool.activeConnections = users.held.length
  handle : ∀ lease, some lease ∈ users.leases → lease.database = true → lease.handle = some lease.index
  waiting : users.pool.waitingThreads = users.waiting.length
  distinct : users.waiting.Nodup
  acquisitions : users.pool.acquisitionsTotal = granted
  timeouts : users.pool.timeoutsTotal = timedOut

section steps

variable {poolSize granted timedOut : Nat} {users users' : PoolUsers}

theorem held_set {lease : Nat} {old : Option DatabaseConnectionLease} (h : users.leases[lease]? = some old)
    (value : Option DatabaseConnectionLease) :
    ((users.setLease lease value).held ++ (holds old).toList).Perm (users.held ++ (holds value).toList) :=
  filterMap_set h value holds

/-- Users that hold what they held, less one index that is free again. -/
theorem PoolBooks.giveBack (h : PoolBooks poolSize granted timedOut users) (index : Option Nat)
    (hPool : users'.pool = match index with
      | some index => users.pool.releaseConnection index
      | none => users.pool)
    (hWaiting : users'.waiting = users.waiting) (hClosed : users'.closed = users.closed)
    (hHeld : (users'.held ++ index.toList).Perm users.held)
    (hHandle : ∀ lease, some lease ∈ users'.leases → lease.database = true → lease.handle = some lease.index) :
    PoolBooks poolSize granted timedOut users' := by
  have hAvailable : users'.pool.availableIndices = users.pool.availableIndices ++ index.toList := by
    rw [hPool]
    cases index with
    | none => exact (List.append_nil _).symm
    | some index => rfl
  have hSame : users'.pool.handles = users.pool.handles ∧ users'.pool.shuttingDown = users.pool.shuttingDown ∧
      users'.pool.waitingThreads = users.pool.waitingThreads ∧
      users'.pool.acquisitionsTotal = users.pool.acquisitionsTotal ∧
      users'.pool.timeoutsTotal = users.pool.timeoutsTotal := by
    rw [hPool]
    cases index <;> exact ⟨rfl, rfl, rfl, rfl, rfl⟩
  obtain ⟨hHandles, hShutting, hThreads, hAcquisitions, hTimeouts⟩ := hSame
  constructor
  · intro hOpen
    have hOld := h.partition (hClosed.symm.trans hOpen)
    rw [hAvailable, List.append_assoc]
    exact ((List.perm_append_comm.trans hHeld).append_left _).trans hOld
  · intro hOpen
    rw [hHandles]
    exact h.handles (hClosed.symm.trans hOpen)
  · intro hOver
    obtain ⟨hEmpty, hDown⟩ := h.emptied (hClosed.symm.trans hOver)
    rw [hEmpty] at hHeld
    exact ⟨(List.append_eq_nil_iff.mp hHeld.eq_nil).1, hShutting.trans hDown⟩
  · have hActive := h.active
    have hLength := hHeld.length_eq
    rw [List.length_append] at hLength
    rw [hPool]
    cases index with
    | none =>
      simp only [Option.toList_none, List.length_nil] at hLength
      dsimp only
      omega
    | some index =>
      simp only [Option.toList_some, List.length_singleton] at hLength
      simp only [DatabasePool.releaseConnection]
      omega
  · exact hHandle
  · rw [hThreads, hWaiting]
    exact h.waiting
  · rw [hWaiting]
    exact h.distinct
  · rw [hAcquisitions]
    exact h.acquisitions
  · rw [hTimeouts]
    exact h.timeouts

/-- A thread that leaves the wait. -/
theorem PoolBooks.leave (h : PoolBooks poolSize granted timedOut users) {thread : Nat}
    (hThread : thread ∈ users.waiting) : PoolBooks poolSize granted timedOut (users.leave thread) := by
  have hWaiting := h.waiting
  refine ⟨h.partition, h.handles, h.emptied, h.active, h.handle, ?_, h.distinct.erase thread,
    h.acquisitions, h.timeouts⟩
  change users.pool.waitingThreads - 1 = (users.waiting.erase thread).length
  rw [List.length_erase_of_mem hThread, hWaiting]

theorem PoolBooks.take (h : PoolBooks poolSize granted timedOut users) :
    PoolBooks poolSize (granted + users.take.2.countP LeaseAction.isGranted)
      (timedOut + users.take.2.countP LeaseAction.isTimeout) users.take.1 := by
  simp only [PoolUsers.take, DatabasePool.take]
  split
  · rename_i lease pool hTake
    split at hTake
    · cases hTake
    · rename_i hRunning
      split at hTake
      · cases hTake
      · rename_i index rest hAvailable
        cases hTake
        have hOpen : users.closed = false := by
          rw [← Bool.not_eq_true]
          exact fun hOver => hRunning (h.emptied hOver).2
        have hHeld : ∀ pool, ({ users with
            pool := pool
            leases := users.leases ++ [some ⟨true, index, users.pool.handles[index]?⟩] } : PoolUsers).held =
              users.held ++ [index] := by
          intro pool
          simp only [PoolUsers.held, List.filterMap_append]
          rfl
        have hPartition := h.partition hOpen
        rw [hAvailable] at hPartition
        constructor
        · intro _
          rw [hHeld]
          refine List.Perm.trans ?_ hPartition
          rw [← List.append_assoc, List.cons_append]
          exact List.perm_append_singleton index _
        · exact h.handles
        · intro hOver
          exact absurd (hOpen.symm.trans hOver) Bool.false_ne_true
        · rw [hHeld, List.length_append, ← h.active]
          rfl
        · intro lease hLease hActive
          obtain hOld | hNew := List.mem_append.mp hLease
          · exact h.handle lease hOld hActive
          · cases List.mem_singleton.mp hNew
            have hMem : index ∈ List.range poolSize := hPartition.subset (by simp)
            dsimp only
            rw [h.handles hOpen, List.getElem?_range (List.mem_range.mp hMem)]
        · exact h.waiting
        · exact h.distinct
        · exact congrArg (· + 1) h.acquisitions
        · exact h.timeouts
  · rename_i exception pool hTake
    split at hTake
    · cases hTake
      exact h
    · split at hTake
      · cases hTake
        exact ⟨h.partition, h.handles, h.emptied, h.active, h.handle, h.waiting, h.distinct, h.acquisitions,
          congrArg (· + 1) h.timeouts⟩
      · cases hTake

theorem release_eq (pool : DatabasePool) (lease : DatabaseConnectionLease) : pool.release lease =
    (if lease.database then lease.moved else lease,
      match lease.held with
      | some index => pool.releaseConnection index
      | none => pool, lease.held) := by
  simp only [DatabasePool.release, DatabaseConnectionLease.held]
  split <;> rfl

theorem PoolBooks.destroy (h : PoolBooks poolSize granted timedOut users) {lease : Nat}
    {value : DatabaseConnectionLease} (hLease : users.leases[lease]? = some (some value)) :
    PoolBooks poolSize granted timedOut (users.releaseAt lease value (fun _ => none)).1 := by
  simp only [PoolUsers.releaseAt, release_eq]
  apply h.giveBack value.held
  · rfl
  · rfl
  · rfl
  · have hHeld := held_set hLease none
    simp only [holds, Option.bind_some, Option.bind_none, Option.toList_none, List.append_nil] at hHeld
    exact hHeld
  · intro other hOther
    obtain hOld | hSame := List.mem_or_eq_of_mem_set hOther
    · exact h.handle other hOld
    · cases hSame

theorem PoolBooks.moveConstruct (h : PoolBooks poolSize granted timedOut users) {source : Nat}
    {lease : DatabaseConnectionLease} (hLease : users.leases[source]? = some (some lease)) :
    PoolBooks poolSize granted timedOut { users.setLease source (some lease.moved) with
      leases := (users.setLease source (some lease.moved)).leases ++ [some lease] } := by
  apply h.giveBack none
  · rfl
  · rfl
  · rfl
  · have hHeld := held_set hLease (some lease.moved)
    have hMoved : holds (some lease.moved) = none := rfl
    rw [hMoved, Option.toList_none, List.append_nil] at hHeld
    rw [Option.toList_none, List.append_nil]
    refine List.Perm.trans (List.Perm.of_eq ?_) hHeld
    simp only [PoolUsers.held, List.filterMap_append]
    congr 1
  · intro other hOther
    obtain hOld | hNew := List.mem_append.mp hOther
    · obtain hOld | hSame := List.mem_or_eq_of_mem_set hOld
      · exact h.handle other hOld
      · cases hSame
        exact fun hActive => nomatch hActive
    · cases List.mem_singleton.mp hNew
      exact h.handle _ (List.mem_of_getElem? hLease)

theorem PoolBooks.moveAssign (h : PoolBooks poolSize granted timedOut users) {target source : Nat}
    {old lease : DatabaseConnectionLease} (hTarget : users.leases[target]? = some (some old))
    (hSource : users.leases[source]? = some (some lease)) (hOther : target ≠ source) :
    PoolBooks poolSize granted timedOut
      ((users.releaseAt target old (fun _ => some lease)).1.setLease source (some lease.moved)) := by
  simp only [PoolUsers.releaseAt, release_eq]
  apply h.giveBack old.held
  · rfl
  · rfl
  · rfl
  · have hFirst := held_set hTarget (some lease)
    have hSource' : (users.setLease target (some lease)).leases[source]? = some (some lease) :=
      (List.getElem?_set_ne hOther).trans hSource
    have hSecond := held_set hSource' (some lease.moved)
    have hMoved : holds (some lease.moved) = none := rfl
    rw [hMoved, Option.toList_none, List.append_nil] at hSecond
    have hBoth := (hSecond.append_right (holds (some old)).toList).trans hFirst
    rw [List.append_assoc] at hBoth
    have hSwapped := (List.perm_append_comm.append_left _).trans hBoth
    rw [← List.append_assoc] at hSwapped
    exact (List.perm_append_right_iff _).mp hSwapped
  · intro other hMem
    obtain hMem | hSame := List.mem_or_eq_of_mem_set hMem
    · obtain hOld | hSame := List.mem_or_eq_of_mem_set hMem
      · exact h.handle other hOld
      · cases hSame
        exact h.handle _ (List.mem_of_getElem? hSource)
    · cases hSame
      exact fun hActive => nomatch hActive

theorem releaseAt_quiet (users : PoolUsers) (lease : Nat) (value : DatabaseConnectionLease)
    (result : DatabaseConnectionLease → Option DatabaseConnectionLease) :
    (users.releaseAt lease value result).2.countP LeaseAction.isGranted = 0 ∧
      (users.releaseAt lease value result).2.countP LeaseAction.isTimeout = 0 := by
  simp only [PoolUsers.releaseAt, release_eq]
  cases value.held <;> exact ⟨rfl, rfl⟩

theorem PoolBooks.step (h : PoolBooks poolSize granted timedOut users) {event : LeaseEvent}
    {actions : List LeaseAction} (hEffect : users.Effect event actions users') :
    PoolBooks poolSize (granted + actions.countP LeaseAction.isGranted)
      (timedOut + actions.countP LeaseAction.isTimeout) users' := by
  cases hEffect with
  | took => exact h.take
  | @waited thread hNew =>
    refine ⟨h.partition, h.handles, h.emptied, h.active, h.handle, ?_, ?_, h.acquisitions, h.timeouts⟩
    · rw [List.length_append, ← h.waiting]
      rfl
    · apply List.nodup_append.mpr
      refine ⟨h.distinct, by simp, ?_⟩
      rintro a ha b hb rfl
      cases List.mem_singleton.mp hb
      exact hNew ha
  | slept => exact h
  | left hThread hEvent => exact (h.leave hThread).take
  | constructed hLease => exact h.moveConstruct hLease
  | selfAssigned => exact h
  | @assigned target source old lease hTarget hSource hOther =>
    obtain ⟨hGranted, hTimeout⟩ := releaseAt_quiet users target old (fun _ => some lease)
    rw [hGranted, hTimeout]
    exact h.moveAssign hTarget hSource hOther
  | @destroyed lease value hLease =>
    obtain ⟨hGranted, hTimeout⟩ := releaseAt_quiet users lease value (fun _ => none)
    rw [hGranted, hTimeout]
    exact h.destroy hLease
  | began =>
    exact ⟨h.partition, h.handles, fun hOver => ⟨(h.emptied hOver).1, rfl⟩, h.active, h.handle, h.waiting,
      h.distinct, h.acquisitions, h.timeouts⟩
  | finished hDown hActive =>
    have hNone : users.held = [] := List.length_eq_zero_iff.mp (h.active.symm.trans hActive)
    exact ⟨nofun, nofun, fun _ => ⟨hNone, hDown⟩, h.active, h.handle, h.waiting, h.distinct, h.acquisitions,
      h.timeouts⟩

/-! ## Leases that have been moved from -/

/-- The object holds nothing, or is destroyed. -/
structure Spent (lease : Nat) (users : PoolUsers) : Prop where
  known : lease < users.leases.length
  inactive : ∀ value, users.leaseAt lease = some value → value.database = false

theorem leaseAt_set {lease other : Nat} {value : Option DatabaseConnectionLease}
    {found : DatabaseConnectionLease} (h : (users.setLease other value).leaseAt lease = some found) :
    lease = other ∧ value = some found ∨ lease ≠ other ∧ users.leaseAt lease = some found := by
  have hGet := PoolUsers.leaseAt_eq.mp h
  obtain rfl | hOther := eq_or_ne lease other
  · obtain ⟨hBound, hValue⟩ := List.getElem?_eq_some_iff.mp hGet
    simp only [PoolUsers.setLease, List.getElem_set_self] at hValue
    exact .inl ⟨rfl, hValue⟩
  · exact .inr ⟨hOther, PoolUsers.leaseAt_eq.mpr ((List.getElem?_set_ne hOther.symm).symm.trans hGet)⟩

theorem take_leases (users : PoolUsers) : users.take.1.leases = users.leases ∨
    ∃ value, users.take.1.leases = users.leases ++ [some value] := by
  simp only [PoolUsers.take]
  split
  · exact .inr ⟨_, rfl⟩
  · exact .inl rfl

theorem Spent.append {lease : Nat} (h : Spent lease users) {value : DatabaseConnectionLease}
    (hLeases : users'.leases = users.leases ++ [some value]) : Spent lease users' := by
  constructor
  · rw [hLeases, List.length_append]
    exact Nat.lt_add_right _ h.known
  · intro found hFound
    have hGet := PoolUsers.leaseAt_eq.mp hFound
    rw [hLeases, List.getElem?_append_left h.known] at hGet
    exact h.inactive found (PoolUsers.leaseAt_eq.mpr hGet)

theorem Spent.same {lease : Nat} (h : Spent lease users) (hLeases : users'.leases = users.leases) :
    Spent lease users' := by
  constructor
  · rw [hLeases]
    exact h.known
  · intro found hFound
    have hGet := PoolUsers.leaseAt_eq.mp hFound
    rw [hLeases] at hGet
    exact h.inactive found (PoolUsers.leaseAt_eq.mpr hGet)

theorem Spent.take {lease : Nat} (h : Spent lease users) : Spent lease users.take.1 := by
  obtain hSame | ⟨value, hAppend⟩ := take_leases users
  · exact h.same hSame
  · exact h.append hAppend

theorem Spent.set {lease other : Nat} (h : Spent lease users) {value : Option DatabaseConnectionLease}
    (hValue : lease = other → ∀ found, value = some found → found.database = false) :
    Spent lease (users.setLease other value) := by
  constructor
  · rw [PoolUsers.setLease, List.length_set]
    exact h.known
  · intro found hFound
    obtain ⟨hSame, hOwn⟩ | ⟨hOther, hOld⟩ := leaseAt_set hFound
    · exact hValue hSame found hOwn
    · exact h.inactive found hOld

/-- Only an assignment puts anything into a spent object. -/
theorem Spent.step {lease : Nat} (h : Spent lease users) {event : LeaseEvent} {actions : List LeaseAction}
    (hEffect : users.Effect event actions users') (hEvent : ∀ source, event ≠ .moveAssigned lease source) :
    Spent lease users' := by
  cases hEffect with
  | took => exact h.take
  | waited hNew => exact h.same rfl
  | slept => exact h
  | @left thread event hThread hEvent =>
    have hLeft : Spent lease (users.leave thread) := h.same rfl
    exact hLeft.take
  | @constructed source value hLease =>
    have hEmptied : Spent lease (users.setLease source (some value.moved)) := by
      apply h.set
      rintro - found hFound
      cases hFound
      rfl
    exact hEmptied.append rfl
  | selfAssigned => exact h
  | @assigned target source old value hTarget hSource hOther =>
    have hNamed : lease ≠ target := by
      rintro rfl
      exact hEvent source rfl
    have hPool : Spent lease { users with pool := (users.pool.release old).2.1 } := h.same rfl
    have hReleased : Spent lease (users.releaseAt target old (fun _ => some value)).1 :=
      hPool.set (fun hSame => absurd hSame hNamed)
    apply hReleased.set
    rintro - found hFound
    cases hFound
    rfl
  | @destroyed other value hLease =>
    have hPool : Spent lease { users with pool := (users.pool.release value).2.1 } := h.same rfl
    exact hPool.set (fun _ found hFound => nomatch hFound)
  | began => exact h.same rfl
  | finished hDown hActive => exact h.same rfl

/-- Neither its destructor nor an assignment onto it releases anything. -/
theorem Spent.silent {lease : Nat} (h : Spent lease users) {event : LeaseEvent} {actions : List LeaseAction}
    (hEffect : users.Effect event actions users')
    (hEvent : event = .destroyed lease ∨ ∃ source, event = .moveAssigned lease source) :
    actions = [] ∧ users'.pool = users.pool := by
  have hRelease : ∀ value result, users.leases[lease]? = some (some value) →
      (users.releaseAt lease value result).2 = [] ∧ (users.releaseAt lease value result).1.pool = users.pool := by
    intro value result hValue
    have hInactive := h.inactive value (PoolUsers.leaseAt_eq.mpr hValue)
    have hHeld : value.held = none := by simp [DatabaseConnectionLease.held, hInactive]
    simp only [PoolUsers.releaseAt, release_eq, hHeld]
    exact ⟨rfl, rfl⟩
  obtain rfl | ⟨source, rfl⟩ := hEvent
  · cases hEffect with
    | destroyed hLease => exact hRelease _ _ hLease
    | left hThread hEvent => simp at hEvent
  · cases hEffect with
    | selfAssigned => exact ⟨rfl, rfl⟩
    | assigned hTarget hSource hOther => exact hRelease _ _ hTarget
    | left hThread hEvent => simp at hEvent

/-- The event moves something out of the object. -/
def LeaseEvent.movesFrom (lease : Nat) : LeaseEvent → Prop
  | .moveConstructed source => source = lease
  | .moveAssigned target source => source = lease ∧ target ≠ source
  | _ => False

theorem spent_of_set {lease : Nat} {value : DatabaseConnectionLease} (hKnown : lease < users.leases.length) :
    Spent lease (users.setLease lease (some value.moved)) := by
  constructor
  · rw [PoolUsers.setLease, List.length_set]
    exact hKnown
  · intro found hFound
    obtain ⟨-, hOwn⟩ | ⟨hOther, -⟩ := leaseAt_set hFound
    · cases hOwn
      rfl
    · exact absurd rfl hOther

theorem spent_of_movesFrom {lease : Nat} {event : LeaseEvent} {actions : List LeaseAction}
    (hEffect : users.Effect event actions users') (hEvent : event.movesFrom lease) : Spent lease users' := by
  cases hEffect with
  | constructed hLease =>
    cases hEvent
    obtain ⟨hBound, -⟩ := List.getElem?_eq_some_iff.mp hLease
    exact (spent_of_set hBound).append rfl
  | selfAssigned => exact absurd rfl hEvent.2
  | assigned hTarget hSource hOther =>
    obtain ⟨rfl, -⟩ := hEvent
    obtain ⟨hBound, -⟩ := List.getElem?_eq_some_iff.mp hSource
    apply spent_of_set
    simp only [PoolUsers.releaseAt, PoolUsers.setLease, List.length_set]
    exact hBound
  | left hThread hOwn => obtain rfl | rfl := hOwn <;> cases hEvent
  | _ => cases hEvent

/-! ## Shutting down -/

theorem take_granted {index : Nat} (h : .granted index ∈ users.take.2) : users.pool.shuttingDown = false := by
  simp only [PoolUsers.take, DatabasePool.take] at h
  split at h
  · rename_i lease pool hTake
    split at hTake
    · cases hTake
    · rename_i hRunning
      simpa using hRunning
  · simp at h

theorem granted_running {event : LeaseEvent} {actions : List LeaseAction} {index : Nat}
    (hEffect : users.Effect event actions users') (hGranted : .granted index ∈ actions) :
    users.pool.shuttingDown = false := by
  have hReleased : ∀ lease value result, .granted index ∉ (users.releaseAt lease value result).2 := by
    intro lease value result
    simp only [PoolUsers.releaseAt]
    simp
  cases hEffect with
  | took => exact take_granted hGranted
  | @left thread event hThread hEvent =>
    have hRunning := take_granted hGranted
    exact hRunning
  | assigned hTarget hSource hOther => exact absurd hGranted (hReleased _ _ _)
  | destroyed hLease => exact absurd hGranted (hReleased _ _ _)
  | _ => simp at hGranted

end steps

/-! ## Every run -/

abbrev LeaseHistory := List (Entry PoolUsers LeaseEvent LeaseAction)

/-- What the pool promises, of every run. -/
structure PoolKept (poolSize : Nat) (history : LeaseHistory) (users : PoolUsers) : Prop where
  /-- Every index is free, or held by one live lease, until the pool is closed. -/
  partition : users.closed = false → (users.pool.availableIndices ++ users.held).Perm (List.range poolSize)
  handle : ∀ lease, some lease ∈ users.leases → lease.database = true → lease.handle = some lease.index
  active : users.pool.activeConnections = users.held.length
  waiting : users.pool.waitingThreads = users.waiting.length ∧ users.waiting.Nodup
  acquisitions : users.pool.acquisitionsTotal = (outputs history).countP LeaseAction.isGranted
  timeouts : users.pool.timeoutsTotal = (outputs history).countP LeaseAction.isTimeout
  /-- Until something is assigned to it again, a lease that has been moved from stays silent. -/
  movedFrom : ∀ newer later between moved older lease,
    history = newer ++ later :: (between ++ moved :: older) → moved.input.movesFrom lease →
      (∀ e ∈ between, ∀ source, e.input ≠ .moveAssigned lease source) →
        (later.input = .destroyed lease ∨ ∃ source, later.input = .moveAssigned lease source) →
          later.outputs = [] ∧ later.after.pool = later.before.pool
  stopped : ∀ e ∈ history, e.before.pool.shuttingDown = true → ∀ index, .granted index ∉ e.outputs

namespace PoolUsers

section runs

variable {path : String} {poolSize : Nat} {acquireTimeout : Int} {pool : DatabasePool}
  {history : LeaseHistory} {users : PoolUsers}

theorem books_create (hCreate : DatabasePool.create path poolSize acquireTimeout = .ok pool) :
    PoolBooks pool.poolSize 0 0 { pool := pool } := by
  simp only [DatabasePool.create] at hCreate
  split at hCreate
  · cases hCreate
  · split at hCreate
    · cases hCreate
    · split at hCreate
      · cases hCreate
      · cases hCreate
        exact ⟨fun _ => List.Perm.of_eq (List.append_nil _), fun _ => rfl, nofun, rfl, nofun, rfl, List.nodup_nil,
          rfl, rfl⟩

theorem run_books (hCreate : DatabasePool.create path poolSize acquireTimeout = .ok pool)
    (hRun : Run (partialStep step) { pool := pool } history users) :
    PoolBooks pool.poolSize ((outputs history).countP LeaseAction.isGranted)
      ((outputs history).countP LeaseAction.isTimeout) users := by
  induction hRun with
  | nil => exact books_create hCreate
  | cons hOlder hStep ih =>
    rw [outputs_cons, List.countP_append, List.countP_append]
    exact ih.step (step_effect hStep)

theorem run_spent {lease : Nat} {start : PoolUsers} (hSpent : Spent lease start)
    (hRun : Run (partialStep step) start history users)
    (hEvents : ∀ e ∈ history, ∀ source, e.input ≠ .moveAssigned lease source) : Spent lease users := by
  induction hRun with
  | nil => exact hSpent
  | @cons e older hOlder hStep ih =>
    have hBefore := ih (fun e' he' => hEvents e' (List.mem_cons_of_mem e he'))
    exact hBefore.step (step_effect hStep) (hEvents e List.mem_cons_self)

theorem run_pool (hCreate : DatabasePool.create path poolSize acquireTimeout = .ok pool)
    (hRun : Run (partialStep step) { pool := pool } history users) :
    PoolKept pool.poolSize history users := by
  have hBooks := run_books hCreate hRun
  constructor
  · exact hBooks.partition
  · exact hBooks.handle
  · exact hBooks.active
  · exact ⟨hBooks.waiting, hBooks.distinct⟩
  · exact hBooks.acquisitions
  · exact hBooks.timeouts
  · rintro newer later between moved older lease rfl hMoved hBetween hLater
    obtain ⟨hEarlier, hStep, -⟩ := hRun.at_entry
    obtain ⟨middle, hFirst, hSecond⟩ := hEarlier.split
    obtain ⟨-, hMove, rfl⟩ := hFirst.uncons
    have hSpent := spent_of_movesFrom (step_effect hMove) hMoved
    exact (run_spent hSpent hSecond hBetween).silent (step_effect hStep) hLater
  · intro e he hDown index hGranted
    obtain ⟨newer, older, rfl⟩ := List.append_of_mem he
    obtain ⟨-, hStep, -⟩ := hRun.at_entry
    rw [granted_running (step_effect hStep) hGranted] at hDown
    cases hDown

end runs

end PoolUsers

namespace Sample

/-- Two connections and three threads: one waits, one times out, leases are moved onto each
other, and the pool is closed. -/
def threeThreads : List LeaseEvent :=
  [.acquired 0, .acquired 1, .acquired 2, .woken 2, .moveConstructed 0, .destroyed 0, .acquired 3, .timedOut 3,
    .moveAssigned 1 2, .woken 2, .destroyed 1, .shutdownBegan, .acquired 4, .destroyed 2, .destroyed 3,
    .shutdownFinished]

end Sample

theorem PoolUsers.run_pool_sample : ∃ (pool : DatabasePool) (history : LeaseHistory) (users : PoolUsers),
    DatabasePool.create "data/app.db" 2 100 = .ok pool ∧
      trace PoolUsers.step { pool := pool } Sample.threeThreads [] = some (history, users) ∧
      users.closed = true ∧ PoolKept 2 history users := by
  have hCreate : DatabasePool.create "data/app.db" 2 100 = .ok ⟨2, [0, 1], [0, 1], false, 0, 0, 0, 0⟩ := by
    decide +kernel
  have hSome : (trace PoolUsers.step { pool := ⟨2, [0, 1], [0, 1], false, 0, 0, 0, 0⟩ }
      Sample.threeThreads []).map (fun result => result.2.closed) = some true := by
    decide +kernel
  obtain ⟨⟨history, users⟩, hTrace, hClosed⟩ := Option.map_eq_some_iff.mp hSome
  exact ⟨_, history, users, hCreate, hTrace, hClosed, PoolUsers.run_pool hCreate (run_of_trace .nil hTrace)⟩

end SecureCore

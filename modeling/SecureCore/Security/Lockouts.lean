import SecureCore.Security.SoundEntries

/-! # Lockouts

From the call that starts it to its end a lockout holds, and what is denied is denied by
one. -/

namespace SecureCore

set_option autoImplicit false

namespace AuthAbuseProtector

variable {config : AuthAbuseConfig} {d : Dimension} {key : String}
variable {calls earlier later : List ProtectorCall} {call : ProtectorCall}

/-! ## While a lock lasts -/

/-- The pruning pass leaves a locked entry alone. -/
theorem Pruned.of_locked {state : FailureState} {pruned : Option FailureState} {limit : Nat}
    (hConfig : config.Accepted) (hSound : Sound config limit state) (hSet : state.lockedUntil ≠ 0)
    (hLocked : ∀ now, call.time = some now → now < state.lockedUntil)
    (h : Pruned config call (some state) pruned) : pruned = some state := by
  rcases h with hSame | ⟨-, now, stale, hTime, hStale, -, hOld⟩
  · exact hSame
  · cases hStale
    have hUntil := hLocked now hTime
    have hSeen := hSound.seen hSet
    have hWindow := hConfig.window
    simp only [seconds] at hOld hSeen
    omega

theorem Checked.of_locked {state after : FailureState} {now : Int} {decision : AuthAbuseDecision}
    (h : Checked config state now decision after) (hLocked : state.lockedUntil > now) :
    after.lockedUntil = state.lockedUntil ∧ after.lockoutLevel = state.lockoutLevel := by
  cases h with
  | locked _ => exact ⟨rfl, rfl⟩
  | forgotten hOver hQuiet => exact absurd hOver (not_le.mpr hLocked)
  | restarted hOver hActive hStarted hPassed => exact absurd hOver (not_le.mpr hLocked)
  | kept hOver hActive hWindow => exact absurd hOver (not_le.mpr hLocked)

theorem Recorded.of_locked {state after : FailureState} {limit : Nat} {now : Int}
    {decision : AuthAbuseDecision} (h : Recorded config state limit now decision after)
    (hLocked : state.lockedUntil > now) :
    after.lockedUntil = state.lockedUntil ∧ after.lockoutLevel = state.lockoutLevel := by
  cases h with
  | locked _ => exact ⟨rfl, rfl⟩
  | counted hChecked hWindow hBelow =>
    exact absurd hChecked.lockedUntil_le (not_le.mpr hLocked)
  | lockedOut hChecked hWindow hReached hLevel =>
    exact absurd hChecked.lockedUntil_le (not_le.mpr hLocked)

/-- No call during a lockout ends it, prolongs it or raises the level. -/
theorem lock_step (hConfig : config.Accepted) (hOrdered : Ordered (calls ++ [call]))
    (hSteady : Steady config (calls ++ [call])) {state : FailureState}
    (hEntry : (run config calls).entry d key = some state) (hSet : state.lockedUntil ≠ 0)
    (hLocked : ∀ now, call.time = some now → now < state.lockedUntil)
    (hNoSuccess : ¬call.Succeeds d key) :
    ∃ state', (run config (calls ++ [call])).entry d key = some state' ∧
      state'.lockedUntil = state.lockedUntil ∧ state'.lockoutLevel = state.lockoutLevel := by
  obtain ⟨hSound, -⟩ := run_sound hConfig hOrdered.prefix hSteady.prefix hEntry
  obtain ⟨pruned, hPruned, hVisited⟩ := run_visited hConfig hSteady d key
  rw [hEntry] at hPruned
  have hKept : pruned = some state := hPruned.of_locked hConfig hSound hSet hLocked
  subst hKept
  generalize call.lockout (run config calls) d key = lock at hVisited
  generalize (run config (calls ++ [call])).entry d key = entry at hVisited ⊢
  cases hVisited with
  | idle hTouch hFailure => exact ⟨state, rfl, rfl, rfl⟩
  | checked hTime hTouch hFailure hChecked =>
    exact ⟨_, rfl, hChecked.of_locked (hLocked _ hTime)⟩
  | failed hTime hTouch hFailure hRecorded =>
    exact ⟨_, rfl, hRecorded.of_locked (hLocked _ hTime)⟩
  | succeeded hSucceeds hTouch hFailure => exact absurd hSucceeds hNoSuccess

theorem lock_run (hConfig : config.Accepted) {between : List ProtectorCall}
    (hOrdered : Ordered (calls ++ between)) (hSteady : Steady config (calls ++ between))
    {state : FailureState} (hEntry : (run config calls).entry d key = some state)
    (hSet : state.lockedUntil ≠ 0)
    (hLocked : ∀ call ∈ between, ∀ now, call.time = some now → now < state.lockedUntil)
    (hNoSuccess : ∀ call ∈ between, ¬call.Succeeds d key) :
    ∃ state', (run config (calls ++ between)).entry d key = some state' ∧
      state'.lockedUntil = state.lockedUntil ∧ state'.lockoutLevel = state.lockoutLevel := by
  induction between using List.reverseRecOn with
  | nil =>
    rw [List.append_nil]
    exact ⟨state, hEntry, rfl, rfl⟩
  | append_singleton between call ih =>
    rw [← List.append_assoc] at hOrdered hSteady ⊢
    obtain ⟨state', hEntry', hUntil, hLevel⟩ := ih hOrdered.prefix hSteady.prefix
      (fun c hc => hLocked c (List.mem_append_left _ hc))
      (fun c hc => hNoSuccess c (List.mem_append_left _ hc))
    have hCall : call ∈ between ++ [call] := List.mem_append_right _ (List.mem_singleton_self call)
    obtain ⟨state'', hEntry'', hUntil', hLevel'⟩ := lock_step hConfig hOrdered hSteady hEntry'
      (by rw [hUntil]; exact hSet) (by rw [hUntil]; exact hLocked call hCall) (hNoSuccess call hCall)
    exact ⟨state'', hEntry'', hUntil'.trans hUntil, hLevel'.trans hLevel⟩

/-! ## Denials -/

theorem ceilSeconds_pos {duration : Int} (h : 0 < duration) : 1 ≤ ceilSeconds duration := by
  unfold ceilSeconds
  rw [if_neg (by omega)]
  simp only
  split
  · omega
  · omega

/-- A decision that refuses, and for a second at least. -/
def Refuses (decision : AuthAbuseDecision) : Prop :=
  decision.allowed = false ∧ 1 ≤ decision.retryAfterSeconds

theorem ceilSeconds_left_pos {state : FailureState} {now : Int} (h : state.lockedUntil > now)
    (hLeft : state.lockedUntil - now < 2 ^ 63) : 1 ≤ ceilSeconds (int64 (state.lockedUntil - now)) := by
  rw [int64_of_fits (by omega) hLeft]
  exact ceilSeconds_pos (by omega)

theorem checkState_refuses {state : FailureState} {now : Int} (h : state.lockedUntil > now)
    (hLeft : state.lockedUntil - now < 2 ^ 63) : Refuses (checkState config state now).1 := by
  unfold checkState
  simp only [h, if_true]
  exact ⟨rfl, ceilSeconds_left_pos h hLeft⟩

theorem recordFailureState_refuses {state : FailureState} {limit : Nat} {now : Int}
    (h : state.lockedUntil > now) (hLeft : state.lockedUntil - now < 2 ^ 63) :
    Refuses (recordFailureState config state limit now).1 := by
  unfold recordFailureState checkState
  simp only [h, if_true]
  exact ⟨rfl, ceilSeconds_left_pos h hLeft⟩

theorem checkKey_refuses {states : FailureStates} {state : FailureState} {now : Int}
    (hFind : states.find key = some state) (h : state.lockedUntil > now)
    (hLeft : state.lockedUntil - now < 2 ^ 63) : Refuses (checkKey config states key now).1 := by
  unfold checkKey
  rw [hFind]
  exact checkState_refuses h hLeft

theorem recordFailureKey_refuses {states : FailureStates} {state : FailureState}
    {maximumSize limit : Nat} {order : List String} {now : Int} (hFind : states.find key = some state)
    (h : state.lockedUntil > now) (hLeft : state.lockedUntil - now < 2 ^ 63) :
    Refuses (recordFailureKey config states key maximumSize limit order now).1 := by
  have hSteady : (states.find key).isSome = true ∨ states.length < maximumSize := by
    rw [hFind]
    exact .inl rfl
  unfold recordFailureKey
  simp only [ensureCapacity_of_room hSteady, FailureStates.find_findOrCreate, if_true, hFind]
  exact recordFailureState_refuses h hLeft

/-- The decision of one dimension refuses the call. -/
theorem refuses_of_either {account ip : AuthAbuseDecision} {newlyLocked : Bool}
    (h : Refuses account ∨ Refuses ip) :
    Refuses (if account.allowed && ip.allowed then .allow
      else ⟨false, max account.retryAfterSeconds ip.retryAfterSeconds, newlyLocked⟩) := by
  rcases h with ⟨hDenied, hRetry⟩ | ⟨hDenied, hRetry⟩
  · rw [hDenied, Bool.false_and, if_neg Bool.false_ne_true]
    exact ⟨rfl, hRetry.trans (Nat.le_max_left _ _)⟩
  · rw [hDenied, Bool.and_false, if_neg Bool.false_ne_true]
    exact ⟨rfl, hRetry.trans (Nat.le_max_right _ _)⟩

theorem decision_refuses {protector : AuthAbuseProtector} {state : FailureState} {now : Int}
    (hTouch : call.touchTime d key = some now)
    (hEntry : (protector.pruneIfNeeded now).entry d key = some state)
    (h : state.lockedUntil > now) (hLeft : state.lockedUntil - now < 2 ^ 63) :
    Refuses (call.decision protector) := by
  cases call with
  | check login clientIp t =>
    unfold ProtectorCall.touchTime at hTouch
    simp only [Option.ite_none_right_eq_some, Option.some.injEq] at hTouch
    obtain ⟨hKey, rfl⟩ := hTouch
    apply refuses_of_either
    cases d with
    | account =>
      left
      rw [← hKey] at hEntry
      exact checkKey_refuses hEntry h hLeft
    | ip =>
      right
      rw [← hKey] at hEntry
      exact checkKey_refuses hEntry h hLeft
  | recordFailure login clientIp accountOrder ipOrder t =>
    unfold ProtectorCall.touchTime at hTouch
    simp only [Option.ite_none_right_eq_some, Option.some.injEq] at hTouch
    obtain ⟨hKey, rfl⟩ := hTouch
    apply refuses_of_either
    cases d with
    | account =>
      left
      rw [← hKey] at hEntry
      exact recordFailureKey_refuses hEntry h hLeft
    | ip =>
      right
      rw [← hKey] at hEntry
      exact recordFailureKey_refuses hEntry h hLeft
  | recordSuccess login clientIp => cases hTouch

theorem locked_of_checkState_denied {state : FailureState} {now : Int}
    (h : (checkState config state now).1.allowed = false) : state.lockedUntil > now := by
  by_contra hOver
  unfold checkState at h
  simp only [if_neg hOver] at h
  split at h
  · cases h
  · split at h
    · cases h
    · cases h

theorem locked_of_checkKey_denied {states : FailureStates} {now : Int}
    (h : (checkKey config states key now).1.allowed = false) :
    ∃ state, states.find key = some state ∧ state.lockedUntil > now := by
  unfold checkKey at h
  cases hFind : states.find key with
  | none =>
    rw [hFind] at h
    cases h
  | some state =>
    rw [hFind] at h
    exact ⟨state, rfl, locked_of_checkState_denied h⟩

/-- A check is denied only where an entry is locked. -/
theorem locked_of_check_denied {protector : AuthAbuseProtector} {login clientIp : String} {now : Int}
    (h : (protector.check login clientIp now).1.allowed = false) :
    ∃ d state, (protector.pruneIfNeeded now).entry d (d.key login clientIp) = some state ∧
      state.lockedUntil > now := by
  unfold check at h
  simp only at h
  split at h
  · cases h
  · rename_i hDenied
    rw [Bool.and_eq_true, not_and_or, Bool.not_eq_true, Bool.not_eq_true] at hDenied
    rcases hDenied with hAccount | hIp
    · obtain ⟨state, hState⟩ := locked_of_checkKey_denied hAccount
      exact ⟨.account, state, hState⟩
    · obtain ⟨state, hState⟩ := locked_of_checkKey_denied hIp
      exact ⟨.ip, state, hState⟩

theorem refuses_of_locked (hConfig : config.Accepted) (hOrdered : Ordered calls)
    (hSteady : Steady config calls) (hClock : WithinClock config (times (calls ++ [call])))
    {state : FailureState} (hEntry : (run config calls).entry d key = some state)
    (hSet : state.lockedUntil ≠ 0) {now : Int} (hTouch : call.touchTime d key = some now)
    (hLocked : now < state.lockedUntil) : Refuses (call.decision (run config calls)) := by
  have hTime := time_of_touchTime hTouch
  obtain ⟨hSound, -⟩ := run_sound hConfig hOrdered hSteady hEntry
  have hMeasured : Measured config state now :=
    measured_before hConfig hClock hTime (FailureStates.mem_of_find hEntry)
  have hPruned := pruned_entry hConfig hClock hTime d key
  rw [hEntry] at hPruned
  have hDuring : ∀ t, call.time = some t → t < state.lockedUntil := by
    intro t ht
    rw [hTime] at ht
    cases ht
    exact hLocked
  have hSame := hPruned.of_locked hConfig hSound hSet hDuring
  exact decision_refuses hTouch hSame hLocked hMeasured.left

/-! ## Where a lock comes from -/

theorem Checked.lockedUntil_cases {state after : FailureState} {now : Int}
    {decision : AuthAbuseDecision} (h : Checked config state now decision after) :
    after.lockedUntil = state.lockedUntil ∨ after.lockedUntil = 0 := by
  cases h with
  | locked hLocked => exact .inl rfl
  | forgotten hOver hQuiet => exact .inr rfl
  | restarted hOver hActive hStarted hPassed => exact .inl rfl
  | kept hOver hActive hWindow => exact .inl rfl

theorem Recorded.lockedUntil_cases {state after : FailureState} {limit : Nat} {now : Int}
    {decision : AuthAbuseDecision} (h : Recorded config state limit now decision after) :
    (decision.newlyLocked = true ∧
      after.lockedUntil = now + seconds (lockoutDuration config after.lockoutLevel)) ∨
    (decision.newlyLocked = false ∧
      (after.lockedUntil = state.lockedUntil ∨ after.lockedUntil = 0)) := by
  cases h with
  | locked hLocked => exact .inr ⟨rfl, .inl rfl⟩
  | counted hChecked hWindow hBelow =>
    right
    refine ⟨rfl, ?_⟩
    rw [hWindow]
    simp only [opened_lockedUntil]
    exact hChecked.lockedUntil_cases
  | lockedOut hChecked hWindow hReached hLevel => exact .inl ⟨rfl, rfl⟩

/-- What a call that starts a lockout leaves. -/
theorem lockout_entry (hConfig : config.Accepted) (hOrdered : Ordered (calls ++ [call]))
    (hSteady : Steady config (calls ++ [call])) {duration : Int}
    (hLockout : call.lockout (run config calls) d key = some duration) :
    ∃ now state, call.time = some now ∧ 0 ≤ now ∧ 0 < duration ∧
      (run config (calls ++ [call])).entry d key = some state ∧ state.lockedUntil = now + duration ∧
      duration = seconds (lockoutDuration config state.lockoutLevel) := by
  obtain ⟨pruned, hPruned, hVisited⟩ := run_visited hConfig hSteady d key
  rw [hLockout] at hVisited
  generalize hEntry : (run config (calls ++ [call])).entry d key = entry at hVisited
  generalize hLock : some duration = lock at hVisited
  cases hVisited with
  | idle hTouch hFailure => cases hLock
  | absent hTime hTouch hFailure => cases hLock
  | checked hTime hTouch hFailure hChecked => cases hLock
  | succeeded hSucceeds hTouch hFailure => cases hLock
  | @failed now _ state decision hTime hTouch hFailure hRecorded =>
    rcases hRecorded.lockedUntil_cases with ⟨hNew, hUntil⟩ | ⟨hOld, -⟩
    · rw [if_pos hNew, hUntil] at hLock
      have hDuration : duration = seconds (lockoutDuration config state.lockoutLevel) := by
        have := Option.some.inj hLock
        omega
      have hPositive := lockoutDuration_pos hConfig state.lockoutLevel
      have hNow : 0 ≤ now := by
        have hBefore : Sound config (d.failureLimit config) (pruned.getD .initial) := by
          cases pruned with
          | none => exact initial_sound (failureLimit_bounds hConfig d).1
          | some before => exact (run_sound hConfig hOrdered.prefix hSteady.prefix hPruned.eq_some).1
        cases hRecorded with
        | locked hLocked => cases hNew
        | counted hChecked hWindow hBelow => cases hNew
        | lockedOut hChecked hWindow hReached hLevel => exact (hChecked.over hBefore).2
      refine ⟨now, state, hTime, hNow, ?_, rfl, by rw [hUntil, hDuration], hDuration⟩
      rw [hDuration]
      simp only [seconds]
      omega
    · rw [if_neg (by rw [hOld]; exact Bool.false_ne_true)] at hLock
      cases hLock

/-- Every lock was set by a call that started a lockout. -/
theorem lockout_of_lockedUntil (hConfig : config.Accepted) (hSteady : Steady config calls) {state : FailureState}
    (hEntry : (run config calls).entry d key = some state) (hSet : state.lockedUntil ≠ 0) :
    ∃ earlier lock later now duration, calls = earlier ++ lock :: later ∧ lock.time = some now ∧
      lock.lockout (run config earlier) d key = some duration ∧
      state.lockedUntil = now + duration := by
  induction calls using List.reverseRecOn generalizing state with
  | nil => cases d <;> cases hEntry
  | append_singleton calls call ih =>
    have hEarlier : ∀ before, (run config calls).entry d key = some before →
        before.lockedUntil = state.lockedUntil → ∃ earlier lock later now duration,
          calls ++ [call] = earlier ++ lock :: later ∧ lock.time = some now ∧
          lock.lockout (run config earlier) d key = some duration ∧
          state.lockedUntil = now + duration := by
      intro before hBefore hSame
      obtain ⟨earlier, lock, later, now, duration, hSplit, hTime, hLockout, hUntil⟩ :=
        ih hSteady.prefix hBefore (by rw [hSame]; exact hSet)
      refine ⟨earlier, lock, later ++ [call], now, duration, ?_, hTime, hLockout,
        hSame.symm.trans hUntil⟩
      rw [hSplit, List.append_assoc, List.cons_append]
    obtain ⟨pruned, hPruned, hVisited⟩ := run_visited hConfig hSteady d key
    rw [hEntry] at hVisited
    generalize hLock : call.lockout (run config calls) d key = lock at hVisited
    cases hVisited with
    | idle hTouch hFailure => exact hEarlier state hPruned.eq_some rfl
    | @checked now before _ decision hTime hTouch hFailure hChecked =>
      rcases hChecked.lockedUntil_cases with hSame | hZero
      · exact hEarlier before hPruned.eq_some hSame.symm
      · exact absurd hZero hSet
    | @failed now _ _ decision hTime hTouch hFailure hRecorded =>
      rcases hRecorded.lockedUntil_cases with ⟨hNew, -⟩ | ⟨-, hSame | hZero⟩
      · rw [if_pos hNew] at hLock
        refine ⟨calls, call, [], now, state.lockedUntil - now, rfl, hTime, hLock, ?_⟩
        omega
      · cases pruned with
        | none => exact absurd hSame hSet
        | some before => exact hEarlier before hPruned.eq_some hSame.symm
      · exact absurd hZero hSet

/-! ## A lockout holds -/

def levelOf (protector : AuthAbuseProtector) (d : Dimension) (key : String) : Nat :=
  ((protector.entry d key).map FailureState.lockoutLevel).getD 0

/-- From the call that starts it to its end, a lockout refuses every call for the key,
and no call but a success changes it. What is denied later is denied by another one. -/
theorem lockout_holds (config : AuthAbuseConfig) (hConfig : config.Accepted) (d : Dimension)
    (key : String) (earlier later : List ProtectorCall) (lock : ProtectorCall) (t duration : Int)
    (hOrdered : Ordered (earlier ++ lock :: later))
    (hCapacity : ∀ d, (failureKeys d (earlier ++ lock :: later)).dedup.length ≤ d.capacity config)
    (hClock : WithinClock config (times (earlier ++ lock :: later)))
    (hTime : lock.time = some t) (hLockout : lock.lockout (run config earlier) d key = some duration) :
    0 < duration ∧
      (∀ between call rest now, later = between ++ call :: rest →
        call.touchTime d key = some now → now < t + duration →
        (∀ c ∈ between, ¬c.Succeeds d key) →
        Refuses (call.decision (run config (earlier ++ lock :: between)))) ∧
      (∀ between rest, later = between ++ rest → (∀ c ∈ between, ¬c.Succeeds d key) →
        (∀ c ∈ between, ∀ now, c.time = some now → now < t + duration) →
        ∃ state, (run config (earlier ++ lock :: between)).entry d key = some state ∧
          state.lockedUntil = t + duration ∧
          state.lockoutLevel = levelOf (run config (earlier ++ [lock])) d key) ∧
      (∀ between rest login clientIp, later = between ++ .recordSuccess login clientIp :: rest →
        ∀ k, (run config (earlier ++ lock :: between ++ [.recordSuccess login clientIp])).entry .ip k =
          (run config (earlier ++ lock :: between)).entry .ip k) ∧
      ∀ between rest login clientIp now, later = between ++ .check login clientIp now :: rest →
        t + duration ≤ now →
        ((run config (earlier ++ lock :: between)).check login clientIp now).1.allowed = false →
        ∃ d' earlier' lock' later' t' duration',
          earlier ++ lock :: between = earlier' ++ lock' :: later' ∧ lock'.time = some t' ∧
          lock'.lockout (run config earlier') d' (d'.key login clientIp) = some duration' ∧
          now < t' + duration' := by
  have hSteady : Steady config (earlier ++ lock :: later) := ⟨noEviction_of_capacity hCapacity, hClock⟩
  have hSplit : ∀ between, earlier ++ lock :: between = earlier ++ [lock] ++ between := by
    intro between
    rw [List.append_assoc, List.singleton_append]
  rw [hSplit] at hOrdered hSteady
  obtain ⟨now, state, hNow, hNonneg, hPositive, hEntry, hUntil, -⟩ :=
    lockout_entry hConfig hOrdered.prefix hSteady.prefix hLockout
  rw [hTime] at hNow
  cases hNow
  have hSet : state.lockedUntil ≠ 0 := by omega
  have hLevel : levelOf (run config (earlier ++ [lock])) d key = state.lockoutLevel := by
    unfold levelOf
    rw [hEntry]
    rfl
  have hKept : ∀ between rest, later = between ++ rest → (∀ c ∈ between, ¬c.Succeeds d key) →
      (∀ c ∈ between, ∀ now, c.time = some now → now < t + duration) →
      ∃ state', (run config (earlier ++ [lock] ++ between)).entry d key = some state' ∧
        state'.lockedUntil = state.lockedUntil ∧ state'.lockoutLevel = state.lockoutLevel := by
    intro between rest hLater hNoSuccess hDuring
    rw [hLater, ← List.append_assoc] at hOrdered hSteady
    rw [← hUntil] at hDuring
    exact lock_run hConfig hOrdered.prefix hSteady.prefix hEntry hSet hDuring hNoSuccess
  refine ⟨hPositive, ?_, ?_, ?_, ?_⟩
  · intro between call rest now hLater hTouch hBefore hNoSuccess
    have hCallTime := time_of_touchTime hTouch
    have hDuring : ∀ c ∈ between, ∀ now', c.time = some now' → now' < t + duration := by
      intro c hc now' hc'
      have hLe : now' ≤ now := by
        rw [hLater, ← List.append_assoc] at hOrdered
        exact hOrdered.le (List.mem_append_right _ hc) List.mem_cons_self hc' hCallTime
      omega
    obtain ⟨state', hEntry', hUntil', -⟩ := hKept between _ hLater hNoSuccess hDuring
    rw [hSplit]
    rw [hLater, ← List.append_assoc, List.append_cons] at hOrdered hSteady
    exact refuses_of_locked hConfig hOrdered.prefix.prefix hSteady.prefix.prefix hSteady.prefix.clock hEntry'
      (by omega) hTouch (by omega)
  · intro between rest hLater hNoSuccess hDuring
    obtain ⟨state', hEntry', hUntil', hLevel'⟩ := hKept between rest hLater hNoSuccess hDuring
    rw [hSplit, hLevel]
    exact ⟨state', hEntry', hUntil'.trans hUntil, hLevel'⟩
  · intro between rest login clientIp hLater k
    rw [run_concat]
    rfl
  · intro between rest login clientIp now hLater hAfter hDenied
    obtain ⟨d', state', hEntry', hLocked⟩ := locked_of_check_denied hDenied
    rw [hSplit] at hEntry' ⊢
    rw [hLater, ← List.append_assoc, List.append_cons] at hSteady
    have hPruned : Pruned config (.check login clientIp now) _ _ :=
      pruned_entry hConfig hSteady.prefix.clock rfl d' (d'.key login clientIp)
    rw [hEntry'] at hPruned
    obtain ⟨earlier', lock', later', t', duration', hAt, hTime', hLockout', hUntil'⟩ :=
      lockout_of_lockedUntil hConfig hSteady.prefix.prefix hPruned.eq_some (by omega)
    exact ⟨d', earlier', lock', later', t', duration', hAt, hTime', hLockout', by omega⟩

theorem lockout_holds_sample : 0 < Sample.seconds 10 ∧
    Refuses ((Sample.check 15).decision (run Sample.limits
      [Sample.failure 10, Sample.failure 10, .recordSuccess "bob" "192.0.2.1"])) := by
  have hCapacity : ∀ d : Dimension, (failureKeys d ([Sample.failure 10] ++ Sample.failure 10 ::
      [.recordSuccess "bob" "192.0.2.1", Sample.check 15])).dedup.length ≤
        d.capacity Sample.limits := by
    intro d
    cases d <;> decide +kernel
  obtain ⟨hPositive, hRefuses, -⟩ := lockout_holds Sample.limits Sample.limits_accepted .account "alice"
    [Sample.failure 10] [.recordSuccess "bob" "192.0.2.1", Sample.check 15] (Sample.failure 10)
    (Sample.seconds 10) (Sample.seconds 10) (by unfold Ordered; decide +kernel) hCapacity
    (withinClock_of_nonneg (by decide) (by decide +kernel) (by decide +kernel)) rfl (by decide +kernel)
  refine ⟨hPositive, ?_⟩
  exact hRefuses [.recordSuccess "bob" "192.0.2.1"] (Sample.check 15) [] (Sample.seconds 15) rfl
    (by decide +kernel) (by decide) (by
      intro c hc
      rw [List.mem_singleton.mp hc]
      rintro ⟨-, hKey⟩
      exact absurd hKey (by decide +kernel))

/-- A longest lockout of 10 ^ 10 seconds does not fit into the clock: to the pruning pass of the
256th call every entry is stale, and a lockout of 300 seconds is over after one. -/
theorem lockout_dropped : ¬∀ (config : AuthAbuseConfig), config.Accepted →
    ∀ d key earlier lock between call t duration now,
      Ordered (earlier ++ lock :: between ++ [call]) →
      (∀ d : Dimension, (failureKeys d (earlier ++ lock :: between ++ [call])).dedup.length ≤
        d.capacity config) →
      lock.time = some t → lock.lockout (run config earlier) d key = some duration → 0 < duration →
      call.touchTime d key = some now → t ≤ now → now < t + duration →
      (∀ c ∈ between, ¬c.Succeeds d key) →
      Refuses (call.decision (run config (earlier ++ lock :: between))) := by
  intro h
  have hRefuses := h ⟨1, 100, 10, 300, 10000000000, 10, 10⟩ (by constructor <;> decide) .account "alice" []
    (Sample.failure 10) (List.replicate 254 (.check "bob" "192.0.2.2" (Sample.seconds 10)))
    (Sample.check 20) (Sample.seconds 10) (Sample.seconds 3000) (Sample.seconds 20)
    (by unfold Ordered; decide +kernel) (by intro d; cases d <;> decide +kernel) rfl (by decide +kernel)
    (by decide) (by decide +kernel) (by decide) (by decide) (by
      intro c hc
      rw [List.eq_of_mem_replicate hc]
      exact id)
  exact absurd hRefuses.1 (by decide +kernel)

end AuthAbuseProtector

end SecureCore

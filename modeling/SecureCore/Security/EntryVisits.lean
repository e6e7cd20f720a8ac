import SecureCore.Security.EntryOrigins

/-! # Visits of entries

As long as the times of a run fit into the clock, a call does to an entry what is said
here without a limit to the numbers: a pruning pass, then a visit. -/

namespace SecureCore

set_option autoImplicit false

namespace AuthAbuseProtector

variable {config : AuthAbuseConfig} {d : Dimension} {key : String}
variable {calls later : List ProtectorCall} {call : ProtectorCall} {entry : String × FailureState}
variable {ts us : List Int} {state after : FailureState} {decision : AuthAbuseDecision}
variable {limit : Nat} {now : Int}

/-! ## Within the clock -/

theorem maximumLockout_pos (hConfig : config.Accepted) : 0 < seconds config.maximumLockout := by
  have hBase := hConfig.base
  have hMaximum := hConfig.maximum.1
  unfold seconds
  omega

/-- No count of nanoseconds in calls at these times leaves its 64 bits: not the age at which
an entry is stale, and not the longest lockout, from any reading of the clock to the end
of a lockout that begins at another. Time 0 stands in the entries of the protector. -/
structure WithinClock (config : AuthAbuseConfig) (ts : List Int) : Prop where
  durations : seconds (config.failureWindow + config.maximumLockout) < 2 ^ 63
  spans : ∀ t ∈ 0 :: ts, ∀ begin ∈ 0 :: ts, begin + seconds config.maximumLockout - t < 2 ^ 63

theorem WithinClock.subset (h : WithinClock config ts) (hSubset : us ⊆ ts) : WithinClock config us where
  durations := h.durations
  spans t ht begin hBegin :=
    h.spans t (List.cons_subset_cons 0 hSubset ht) begin (List.cons_subset_cons 0 hSubset hBegin)

/-- The time from one reading to another. -/
theorem WithinClock.since {t : Int} (h : WithinClock config ts) (ht : t ∈ ts) (hNow : now ∈ ts)
    (hConfig : config.Accepted) : now - t < 2 ^ 63 := by
  have hPositive := maximumLockout_pos hConfig
  have hSpan := h.spans t (List.mem_cons_of_mem 0 ht) now (List.mem_cons_of_mem 0 hNow)
  omega

/-- A clock that starts from zero has room until the longest lockout no longer fits. -/
theorem withinClock_of_nonneg (hDurations : seconds (config.failureWindow + config.maximumLockout) < 2 ^ 63)
    (hTimes : ∀ t ∈ ts, 0 ≤ t) (hEnd : ∀ t ∈ 0 :: ts, t + seconds config.maximumLockout < 2 ^ 63) :
    WithinClock config ts where
  durations := hDurations
  spans t ht begin hBegin := by
    have hLast := hEnd begin hBegin
    have hStart : 0 ≤ t := by
      rcases List.mem_cons.mp ht with rfl | ht
      · exact le_refl 0
      · exact hTimes t ht
    omega

/-- The times in an entry are readings of the clock, and its lock ends no later than a
longest lockout after one. -/
structure Stamped (config : AuthAbuseConfig) (ts : List Int) (state : FailureState) : Prop where
  seen : state.lastSeen ∈ 0 :: ts
  window : state.windowStarted ∈ 0 :: ts
  lock : ∃ begin ∈ 0 :: ts, begin ≤ state.lockedUntil ∧
    state.lockedUntil ≤ begin + seconds config.maximumLockout

theorem Stamped.mono (h : Stamped config us state) (hSubset : us ⊆ ts) : Stamped config ts state where
  seen := List.cons_subset_cons 0 hSubset h.seen
  window := List.cons_subset_cons 0 hSubset h.window
  lock := by
    obtain ⟨begin, hBegin, hLock⟩ := h.lock
    exact ⟨begin, List.cons_subset_cons 0 hSubset hBegin, hLock⟩

theorem initial_stamped (hConfig : config.Accepted) : Stamped config ts .initial := by
  have hPositive := maximumLockout_pos hConfig
  refine ⟨List.mem_cons_self, List.mem_cons_self, 0, List.mem_cons_self, le_refl 0, ?_⟩
  change 0 ≤ 0 + seconds config.maximumLockout
  omega

theorem Stamped.measured (hConfig : config.Accepted) (hClock : WithinClock config ts)
    (h : Stamped config ts state) (hNow : now ∈ ts) : Measured config state now := by
  have hPositive := maximumLockout_pos hConfig
  have hReading : now ∈ 0 :: ts := List.mem_cons_of_mem 0 hNow
  have hSince : ∀ t ∈ 0 :: ts, -2 ^ 63 ≤ now - t ∧ now - t < 2 ^ 63 := by
    intro t ht
    have hAfter := hClock.spans t ht now hReading
    have hBefore := hClock.spans now hReading t ht
    omega
  obtain ⟨begin, hBegin, hFrom, hUntil⟩ := h.lock
  have hLockAfter := hClock.spans now hReading begin hBegin
  have hLockBefore := hClock.spans begin hBegin now hReading
  have hEpoch := hClock.spans 0 List.mem_cons_self now hReading
  have hStart := hSince 0 List.mem_cons_self
  exact ⟨hClock.durations, hSince _ h.seen, hSince _ h.window, by omega, by omega, by omega⟩

theorem Checked.stamped (hConfig : config.Accepted) (h : Checked config state now decision after)
    (hBefore : Stamped config ts state) (hNow : now ∈ ts) : Stamped config ts after := by
  have hReading : now ∈ 0 :: ts := List.mem_cons_of_mem 0 hNow
  cases h with
  | locked hLocked => exact ⟨hReading, hBefore.window, hBefore.lock⟩
  | forgotten hOver hQuiet => exact ⟨hReading, hReading, (initial_stamped hConfig).lock⟩
  | restarted hOver hActive hStarted hPassed => exact ⟨hReading, hReading, hBefore.lock⟩
  | kept hOver hActive hWindow => exact ⟨hReading, hBefore.window, hBefore.lock⟩

theorem opened_stamped (hBefore : Stamped config ts state) (hNow : now ∈ ts) :
    Stamped config ts (opened config state now) := by
  unfold opened
  split
  · exact ⟨hBefore.seen, List.mem_cons_of_mem 0 hNow, hBefore.lock⟩
  · exact hBefore

theorem Recorded.stamped (hConfig : config.Accepted) (h : Recorded config state limit now decision after)
    (hBefore : Stamped config ts state) (hNow : now ∈ ts) : Stamped config ts after := by
  have hReading : now ∈ 0 :: ts := List.mem_cons_of_mem 0 hNow
  cases h with
  | locked hLocked => exact ⟨hReading, hBefore.window, hBefore.lock⟩
  | counted hChecked hWindow hBelow =>
    have hOpened := opened_stamped (hChecked.stamped hConfig hBefore hNow) hNow
    rw [← hWindow] at hOpened
    exact ⟨hReading, hOpened.window, hOpened.lock⟩
  | @lockedOut checked window level hChecked hWindow hReached hLevel =>
    have hOpened := opened_stamped (hChecked.stamped hConfig hBefore hNow) hNow
    rw [← hWindow] at hOpened
    have hPositive := maximumLockout_pos hConfig
    have hDuration : seconds (lockoutDuration config level) ≤ seconds config.maximumLockout := by
      have hBound := lockoutDuration_le config level (by unfold seconds at hPositive; omega)
      exact seconds_le_seconds hBound
    refine ⟨hReading, hOpened.window, now, hReading, ?_, ?_⟩
    · simp only [seconds]
      omega
    · simp only
      omega

theorem times_concat (calls : List ProtectorCall) (call : ProtectorCall) :
    times (calls ++ [call]) = times calls ++ call.time.toList := by
  unfold times
  rw [List.filterMap_append]
  cases h : call.time <;> simp [h]

theorem times_subset {others : List ProtectorCall} (h : calls ⊆ others) : times calls ⊆ times others :=
  List.filterMap_subset _ h

theorem mem_times_concat (calls : List ProtectorCall) (hTime : call.time = some now) :
    now ∈ times (calls ++ [call]) := by
  rw [times_concat, hTime]
  exact List.mem_append_right _ (List.mem_singleton_self now)

/-- The entries of a run within the clock are stamped. -/
theorem run_stamped (hConfig : config.Accepted) (hClock : WithinClock config (times calls))
    (h : entry ∈ (run config calls).states d) : Stamped config (times calls) entry.2 := by
  induction calls using List.reverseRecOn generalizing entry with
  | nil => cases d <;> cases h
  | append_singleton calls call ih =>
    have hSubset : times calls ⊆ times (calls ++ [call]) := times_subset (List.subset_append_left _ _)
    have hBefore : ∀ before ∈ (run config calls).states d,
        Stamped config (times (calls ++ [call])) before.2 :=
      fun before hMem => (ih (hClock.subset hSubset) hMem).mono hSubset
    rw [run_concat] at h
    cases after_origin h with
    | kept hKept => exact hBefore entry hKept
    | checked hTouch hKept =>
      have hNow := mem_times_concat calls (time_of_touchTime hTouch)
      have hStamped := hBefore _ hKept
      rw [run_config]
      exact (checkState_checked hConfig (hStamped.measured hConfig hClock hNow)).stamped hConfig
        hStamped hNow
    | @failed _ state _ hFailure hKept =>
      have hNow := mem_times_concat calls (time_of_failureTime hFailure)
      have hStamped : Stamped config (times (calls ++ [call])) state := by
        rcases hKept with rfl | hKept
        · exact initial_stamped hConfig
        · exact hBefore _ hKept
      rw [run_config]
      exact (recordFailureState_recorded hConfig (hStamped.measured hConfig hClock hNow) _).stamped
        hConfig hStamped hNow

theorem run_measured (hConfig : config.Accepted) (hClock : WithinClock config ts) (hTimes : times calls ⊆ ts)
    (hNow : now ∈ ts) (h : entry ∈ (run config calls).states d) : Measured config entry.2 now :=
  ((run_stamped hConfig (hClock.subset hTimes) h).mono hTimes).measured hConfig hClock hNow

theorem initial_measured (hConfig : config.Accepted) (hClock : WithinClock config (times (calls ++ [call])))
    (hTime : call.time = some now) : Measured config .initial now :=
  (initial_stamped hConfig).measured hConfig hClock (mem_times_concat calls hTime)

theorem measured_before (hConfig : config.Accepted) (hClock : WithinClock config (times (calls ++ [call])))
    (hTime : call.time = some now) (h : entry ∈ (run config calls).states d) :
    Measured config entry.2 now :=
  run_measured hConfig hClock (times_subset (List.subset_append_left _ _)) (mem_times_concat calls hTime) h

/-- An entry after the last call of a run, with what that call did to it. -/
inductive Made (config : AuthAbuseConfig) (d : Dimension) (calls : List ProtectorCall)
    (call : ProtectorCall) : String × FailureState → Prop
  | kept {entry : String × FailureState} (hBefore : entry ∈ (run config calls).states d) :
      Made config d calls call entry
  | checked {key : String} {state after : FailureState} {now : Int} {decision : AuthAbuseDecision}
      (hTime : call.time = some now) (hBefore : (key, state) ∈ (run config calls).states d)
      (hChecked : Checked config state now decision after) : Made config d calls call (key, after)
  | failed {key : String} {state after : FailureState} {now : Int} {decision : AuthAbuseDecision}
      (hTime : call.time = some now)
      (hBefore : state = .initial ∨ (key, state) ∈ (run config calls).states d)
      (hRecorded : Recorded config state (d.failureLimit config) now decision after) :
      Made config d calls call (key, after)

theorem run_made (hConfig : config.Accepted) (hClock : WithinClock config (times (calls ++ [call])))
    (h : entry ∈ (run config (calls ++ [call])).states d) : Made config d calls call entry := by
  rw [run_concat] at h
  cases after_origin h with
  | kept hBefore => exact .kept hBefore
  | checked hTouch hBefore =>
    have hTime := time_of_touchTime hTouch
    have hMeasured := measured_before hConfig hClock hTime hBefore
    rw [run_config]
    exact .checked hTime hBefore (checkState_checked hConfig hMeasured)
  | @failed _ state now hFailure hBefore =>
    have hTime := time_of_failureTime hFailure
    have hMeasured : Measured config state now := by
      rcases hBefore with rfl | hBefore
      · exact initial_measured hConfig hClock hTime
      · exact measured_before hConfig hClock hTime hBefore
    rw [run_config]
    exact .failed hTime hBefore (recordFailureState_recorded hConfig hMeasured _)

/-- No entry gives way to another, and no time is out of reach of the clock. -/
structure Steady (config : AuthAbuseConfig) (calls : List ProtectorCall) : Prop where
  room : NoEviction config calls
  clock : WithinClock config (times calls)

theorem Steady.prefix (h : Steady config (calls ++ later)) : Steady config calls where
  room := h.room.prefix
  clock := h.clock.subset (times_subset (List.subset_append_left _ _))

/-! ## What a call does to an entry

The pruning pass comes first, then the call's own visit. -/

/-- The entry is as it was, or it was stale and is gone. -/
def Pruned (config : AuthAbuseConfig) (call : ProtectorCall) (before pruned : Option FailureState) :
    Prop :=
  pruned = before ∨ (pruned = none ∧ ∃ now state, call.time = some now ∧ before = some state ∧
    state.lastSeen ≠ 0 ∧ now - state.lastSeen > seconds (config.failureWindow + config.maximumLockout))

theorem Pruned.eq_some {before : Option FailureState} (h : Pruned config call before (some state)) :
    before = some state := by
  rcases h with hSame | ⟨hGone, -⟩
  · exact hSame.symm
  · cases hGone

/-- The visit of a call, with the lockout it starts. -/
inductive Visited (config : AuthAbuseConfig) (d : Dimension) (key : String) (call : ProtectorCall) :
    Option Int → Option FailureState → Option FailureState → Prop
  | idle {entry : Option FailureState} (hTouch : call.touchTime d key = none)
      (hFailure : call.failureTime d key = none) : Visited config d key call none entry entry
  | absent {now : Int} (hTime : call.time = some now) (hTouch : call.touchTime d key = some now)
      (hFailure : call.failureTime d key = none) : Visited config d key call none none none
  | checked {now : Int} {state after : FailureState} {decision : AuthAbuseDecision}
      (hTime : call.time = some now) (hTouch : call.touchTime d key = some now)
      (hFailure : call.failureTime d key = none)
      (hChecked : Checked config state now decision after) :
      Visited config d key call none (some state) (some after)
  | failed {now : Int} {entry : Option FailureState} {after : FailureState}
      {decision : AuthAbuseDecision} (hTime : call.time = some now)
      (hTouch : call.touchTime d key = some now) (hFailure : call.failureTime d key = some now)
      (hRecorded : Recorded config (entry.getD .initial) (d.failureLimit config) now decision after) :
      Visited config d key call
        (if decision.newlyLocked then some (after.lockedUntil - now) else none) entry (some after)
  | succeeded {entry : Option FailureState} (hSucceeds : call.Succeeds d key)
      (hTouch : call.touchTime d key = none) (hFailure : call.failureTime d key = none) :
      Visited config d key call none entry none

theorem pruned_filter (hConfig : config.Accepted) (hTime : call.time = some now)
    {before : Option FailureState} (hMeasured : ∀ state, before = some state → Measured config state now)
    (prunes : Bool) (limit : Nat) : Pruned config call before ((if prunes then [KeyEvent.pruned now] else []).foldl
      (KeyEvent.apply config limit) before) := by
  cases prunes with
  | false => exact .inl rfl
  | true =>
    rw [if_pos rfl, List.foldl_cons, List.foldl_nil]
    change Pruned config call before (before.filter (fun state => !stale config now state))
    cases before with
    | none => exact .inl rfl
    | some state =>
      rw [Option.filter_some]
      cases hStale : stale config now state with
      | false => exact .inl rfl
      | true =>
        have hState := hMeasured state rfl
        have hOld := (stale_iff hConfig hState.durations hState.seen).mp hStale
        exact .inr ⟨rfl, now, state, hTime, rfl, hOld⟩

theorem pruned_entry (hConfig : config.Accepted) (hClock : WithinClock config (times (calls ++ [call])))
    (hTime : call.time = some now) (d : Dimension) (key : String) : Pruned config call
      ((run config calls).entry d key) (((run config calls).pruneIfNeeded now).entry d key) := by
  rw [pruneIfNeeded_entry (run_keyed config calls), run_config]
  apply pruned_filter hConfig hTime
  intro state hEntry
  exact measured_before hConfig hClock hTime (FailureStates.mem_of_find hEntry)

theorem run_visited (hConfig : config.Accepted) (h : Steady config (calls ++ [call])) (d : Dimension)
    (key : String) : ∃ pruned, Pruned config call ((run config calls).entry d key) pruned ∧
      Visited config d key call (call.lockout (run config calls) d key) pruned
        ((run config (calls ++ [call])).entry d key) := by
  rw [run_entry_concat h.room d key]
  have hKeyed : (run config calls).Keyed := run_keyed config calls
  cases call with
  | check login clientIp now =>
    have hBefore : ∀ state, (run config calls).entry d key = some state → Measured config state now :=
      fun state hEntry => measured_before hConfig h.clock rfl (FailureStates.mem_of_find hEntry)
    generalize (run config calls).entry d key = before at hBefore ⊢
    generalize (run config calls).prunes = prunes
    have hPruned : Pruned config (.check login clientIp now) before _ :=
      pruned_filter hConfig rfl hBefore prunes (d.failureLimit config)
    refine ⟨_, hPruned, ?_⟩
    change Visited config d key _ none _ (List.foldl _ before
      ((if prunes then [KeyEvent.pruned now] else []) ++
        if d.key login clientIp = key then [KeyEvent.checked now] else []))
    rw [List.foldl_append]
    generalize List.foldl _ before _ = pruned at hPruned ⊢
    by_cases hKey : d.key login clientIp = key
    · have hTouch : (ProtectorCall.check login clientIp now).touchTime d key = some now := if_pos hKey
      rw [if_pos hKey, List.foldl_cons, List.foldl_nil]
      cases pruned with
      | none => exact .absent rfl hTouch rfl
      | some state =>
        have hMeasured := hBefore state hPruned.eq_some
        exact .checked rfl hTouch rfl (checkState_checked hConfig hMeasured)
    · rw [if_neg hKey]
      exact .idle (if_neg hKey) rfl
  | recordFailure login clientIp accountOrder ipOrder now =>
    have hEntry := pruneIfNeeded_entry hKeyed now d key
    rw [run_config] at hEntry
    have hLockout : (ProtectorCall.recordFailure login clientIp accountOrder ipOrder now).lockout
        (run config calls) d key = if d.key login clientIp = key then
          let result := recordFailureState (run config calls).config
            ((((run config calls).pruneIfNeeded now).entry d key).getD .initial)
            (d.failureLimit (run config calls).config) now
          if result.1.newlyLocked then some (result.2.lockedUntil - now) else none
        else none := rfl
    rw [hLockout, hEntry, run_config]
    have hInitial : Measured config .initial now := initial_measured hConfig h.clock rfl
    have hBefore : ∀ state, (run config calls).entry d key = some state → Measured config state now :=
      fun state hEntry => measured_before hConfig h.clock rfl (FailureStates.mem_of_find hEntry)
    generalize (run config calls).entry d key = before at hBefore ⊢
    generalize (run config calls).prunes = prunes
    have hPruned : Pruned config (.recordFailure login clientIp accountOrder ipOrder now) before _ :=
      pruned_filter hConfig rfl hBefore prunes (d.failureLimit config)
    refine ⟨_, hPruned, ?_⟩
    change Visited config d key _ _ _ (List.foldl _ before
      ((if prunes then [KeyEvent.pruned now] else []) ++
        if d.key login clientIp = key then [KeyEvent.failed now] else []))
    rw [List.foldl_append]
    generalize List.foldl _ before _ = pruned at hPruned ⊢
    by_cases hKey : d.key login clientIp = key
    · have hMeasured : Measured config (pruned.getD .initial) now := by
        cases pruned with
        | none => exact hInitial
        | some state => exact hBefore state hPruned.eq_some
      rw [if_pos hKey, if_pos hKey, List.foldl_cons, List.foldl_nil]
      exact .failed rfl (if_pos hKey) (if_pos hKey) (recordFailureState_recorded hConfig hMeasured _)
    · rw [if_neg hKey, if_neg hKey]
      exact .idle (if_neg hKey) (if_neg hKey)
  | recordSuccess login clientIp =>
    refine ⟨_, .inl rfl, ?_⟩
    change Visited config d key _ none _ (List.foldl _ _
      (if d = .account ∧ d.key login clientIp = key then [KeyEvent.succeeded] else []))
    by_cases hKey : d = .account ∧ d.key login clientIp = key
    · rw [if_pos hKey]
      exact .succeeded hKey rfl rfl
    · rw [if_neg hKey]
      exact .idle rfl rfl

end AuthAbuseProtector

end SecureCore

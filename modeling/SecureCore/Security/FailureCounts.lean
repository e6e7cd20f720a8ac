import SecureCore.Security.Backoff

/-! # Failures without a lockout

How many failures of a key an interval without a lock can have. -/

namespace SecureCore

set_option autoImplicit false

namespace AuthAbuseProtector

variable {config : AuthAbuseConfig} {d : Dimension} {key : String}
variable {calls earlier later : List ProtectorCall} {call : ProtectorCall}

/-- The number of failures of a key that were recorded from `a` to `b`. -/
def failuresIn (d : Dimension) (key : String) (a b : Int) (calls : List ProtectorCall) : Nat :=
  ((calls.filterMap (fun call => call.failureTime d key)).filter
    (fun t => decide (a ≤ t ∧ t ≤ b))).length

theorem failuresIn_concat (d : Dimension) (key : String) (a b : Int) (calls : List ProtectorCall)
    (call : ProtectorCall) : failuresIn d key a b (calls ++ [call]) = failuresIn d key a b calls +
      ((call.failureTime d key).toList.filter (fun t => decide (a ≤ t ∧ t ≤ b))).length := by
  unfold failuresIn
  rw [List.filterMap_append, List.filter_append, List.length_append]
  cases h : call.failureTime d key <;> simp [h]

/-- No call from `a` to `b` leaves the key locked. -/
def NeverLocked (config : AuthAbuseConfig) (d : Dimension) (key : String) (a b : Int)
    (calls : List ProtectorCall) : Prop :=
  ∀ earlier call later now, calls = earlier ++ call :: later → call.time = some now → a ≤ now →
    now ≤ b → ∀ state, (run config (earlier ++ [call])).entry d key = some state →
      state.lockedUntil ≤ now

/-- The condition on every call that touches the key. -/
def Forgets (config : AuthAbuseConfig) (d : Dimension) (key : String) (calls : List ProtectorCall) :
    Prop :=
  ∀ earlier call later now, calls = earlier ++ call :: later → call.touchTime d key = some now →
    ForgetsWhenQuiet config ((run config earlier).entry d key) now

theorem NeverLocked.prefix {a b : Int} (h : NeverLocked config d key a b (calls ++ later)) :
    NeverLocked config d key a b calls := by
  intro earlier call rest now hSplit
  apply h earlier call (rest ++ later) now
  rw [hSplit, List.append_assoc, List.cons_append]

theorem Forgets.prefix (h : Forgets config d key (calls ++ later)) : Forgets config d key calls := by
  intro earlier call rest now hSplit
  apply h earlier call (rest ++ later) now
  rw [hSplit, List.append_assoc, List.cons_append]

/-- What an entry tells of the failures counted since `a`: they are all in its window,
or the window began since then and those before it are fewer than the limit. -/
structure Tally (limit : Nat) (a : Int) (count : Nat) (state : FailureState) : Prop where
  started : state.windowStarted = 0 → state.failures = 0
  seen : 0 < count → a ≤ state.lastSeen
  within : count ≤ state.failures ∨
    (a ≤ state.windowStarted ∧ count ≤ limit - 1 + state.failures)

section tally

variable {limit count : Nat} {a now : Int} {state after : FailureState}
variable {decision : AuthAbuseDecision}

theorem Tally.of_zero (hStarted : state.windowStarted = 0 → state.failures = 0) :
    Tally limit a 0 state :=
  ⟨hStarted, fun h => absurd h (Nat.lt_irrefl 0), .inl (Nat.zero_le _)⟩

theorem Checked.tally (h : Checked config state now decision after)
    (hTally : Tally limit a count state) (hBelow : state.failures < limit)
    (hForgets : ForgetsWhenQuiet config (some state) now)
    (hNear : now - a ≤ seconds config.failureWindow) (hSeen : 0 < count → a ≤ now) :
    Tally limit a count after := by
  cases h with
  | locked hLocked => exact ⟨hTally.started, hSeen, hTally.within⟩
  | forgotten hOver hQuiet =>
    have hLong : now - state.lastSeen > seconds config.failureWindow := by
      rcases hQuiet with ⟨hSet, hLong⟩ | ⟨-, -, hLong⟩
      · exact hForgets.2 state rfl hSet hLong
      · exact hLong
    -- the key has not been touched since the interval began
    have hZero : count = 0 := by
      by_contra hPositive
      have := hTally.seen (Nat.pos_of_ne_zero hPositive)
      omega
    rw [hZero]
    exact Tally.of_zero (fun hUnset => rfl)
  | restarted hOver hActive hStarted hPassed =>
    refine ⟨fun _ => rfl, hSeen, ?_⟩
    rcases Nat.eq_zero_or_pos count with hZero | hPositive
    · exact .inl hZero.le
    · refine .inr ⟨hSeen hPositive, ?_⟩
      -- the old window began before the interval, so it holds all failures
      rcases hTally.within with hAll | ⟨hLate, -⟩
      · simp only
        omega
      · omega
  | kept hOver hActive hWindow => exact ⟨hTally.started, hSeen, hTally.within⟩

theorem Tally.opened (hTally : Tally limit a count state) (hSeen : 0 < count → a ≤ now)
    (hOpened : after = if state.windowStarted = 0 then
      { state with failures := 0, lockoutLevel := 0, windowStarted := now } else state) :
    count ≤ after.failures ∨ (a ≤ after.windowStarted ∧ count ≤ limit - 1 + after.failures) := by
  rw [hOpened]
  by_cases hUnset : state.windowStarted = 0
  · rw [if_pos hUnset]
    have hFailures := hTally.started hUnset
    rcases Nat.eq_zero_or_pos count with hZero | hPositive
    · exact .inl hZero.le
    · refine .inr ⟨hSeen hPositive, ?_⟩
      rcases hTally.within with hAll | ⟨-, hBound⟩
      · simp only
        omega
      · simp only
        omega
  · rw [if_neg hUnset]
    exact hTally.within

theorem Recorded.tally (hConfig : config.Accepted) (hLimit : 0 < limit ∧ limit < 2 ^ 32)
    (h : Recorded config state limit now decision after)
    (hTally : Tally limit a count state) (hSound : Sound config limit state)
    (hForgets : ForgetsWhenQuiet config (some state) now)
    (hNear : now - a ≤ seconds config.failureWindow) (hSeen : 0 < count → a ≤ now)
    (hLastSeen : state.lockedUntil ≠ 0 → state.lastSeen ≤ now)
    (hUnlocked : a ≤ now → after.lockedUntil ≤ now) :
    Tally limit a (count + if a ≤ now then 1 else 0) after := by
  have hEarly : now < a → count = 0 := by
    intro hBefore
    by_contra hPositive
    have := hSeen (Nat.pos_of_ne_zero hPositive)
    omega
  cases h with
  | locked hLocked =>
    have hBefore : now < a := by
      by_contra hIn
      have hOver : state.lockedUntil ≤ now := hUnlocked (by omega)
      omega
    rw [hEarly hBefore, if_neg (by omega)]
    exact Tally.of_zero hTally.started
  | @counted checked window hChecked hWindow hBelow =>
    have hCheckedTally := hChecked.tally hTally hSound.failures hForgets hNear hSeen
    have hCheckedSound := hChecked.sound hConfig hLimit.1 hSound hLastSeen
    have hOpened := hCheckedTally.opened hSeen (hWindow.trans (opened_of_checked hConfig hChecked))
    have hFailures : window.failures < limit := by
      rw [hWindow]
      exact (opened_sound hLimit.1 hCheckedSound).failures
    have hSum : (window.failures + 1) % 2 ^ 32 = window.failures + 1 := Nat.mod_eq_of_lt (by omega)
    have hStarted : window.windowStarted ≠ 0 := by
      rw [hWindow, opened_of_checked hConfig hChecked]
      by_cases hUnset : checked.windowStarted = 0
      · rw [if_pos hUnset]
        exact hForgets.1
      · rw [if_neg hUnset]
        exact hUnset
    rw [hSum]
    by_cases hIn : a ≤ now
    · rw [if_pos hIn]
      refine ⟨fun hUnset => absurd hUnset hStarted, fun _ => hIn, ?_⟩
      simp only
      omega
    · rw [if_neg hIn, hEarly (by omega)]
      exact Tally.of_zero (fun hUnset => absurd hUnset hStarted)
  | @lockedOut checked window level hChecked hWindow hReached hLevel =>
    have hPositive := lockoutDuration_pos hConfig level
    have hBefore : now < a := by
      by_contra hIn
      have := hUnlocked (by omega)
      simp only [seconds] at this
      omega
    rw [hEarly hBefore, if_neg (by omega)]
    exact Tally.of_zero (fun _ => rfl)

end tally

theorem failuresIn_of_failure {a b now : Int} (h : call.failureTime d key = some now) (hNow : now ≤ b) :
    failuresIn d key a b (calls ++ [call]) =
      failuresIn d key a b calls + if a ≤ now then 1 else 0 := by
  rw [failuresIn_concat, h, Option.toList_some, List.filter_singleton]
  by_cases hIn : a ≤ now
  · simp [hIn, hNow]
  · simp [hIn]

theorem failuresIn_of_none {a b : Int} (h : call.failureTime d key = none) :
    failuresIn d key a b (calls ++ [call]) = failuresIn d key a b calls := by
  rw [failuresIn_concat, h]
  rfl

/-- A counted failure was recorded by a call that touched the key. -/
theorem exists_touch_of_failuresIn {a b : Int} (h : 0 < failuresIn d key a b calls) :
    ∃ t ∈ touchTimes d key calls, a ≤ t := by
  obtain ⟨t, ht⟩ := List.exists_mem_of_length_pos h
  rw [List.mem_filter, List.mem_filterMap, decide_eq_true_eq] at ht
  obtain ⟨⟨call, hCall, hFailure⟩, hIn, -⟩ := ht
  exact ⟨t, List.mem_filterMap.mpr ⟨call, hCall, touchTime_of_failureTime hFailure⟩, hIn⟩

theorem tally_run (hConfig : config.Accepted) (hOrdered : Ordered calls)
    (hSteady : Steady config calls) (hForgets : Forgets config d key calls) {a b : Int}
    (hLength : b - a ≤ seconds config.failureWindow) (hUnlocked : NeverLocked config d key a b calls)
    (hNoSuccess : ∀ call ∈ calls, ¬call.Succeeds d key)
    (hEnd : ∀ call ∈ calls, ∀ now, call.time = some now → now ≤ b) :
    ((run config calls).entry d key = none → failuresIn d key a b calls = 0) ∧
      ∀ state, (run config calls).entry d key = some state →
        Tally (d.failureLimit config) a (failuresIn d key a b calls) state := by
  have hLimit := failureLimit_bounds hConfig d
  induction calls using List.reverseRecOn with
  | nil => exact ⟨fun _ => rfl, fun state hEntry => (by cases d <;> cases hEntry)⟩
  | append_singleton calls call ih =>
    obtain ⟨hNone, hSome⟩ := ih hOrdered.prefix hSteady.prefix hForgets.prefix hUnlocked.prefix
      (fun c hc => hNoSuccess c (List.mem_append_left _ hc))
      (fun c hc => hEnd c (List.mem_append_left _ hc))
    have hCall : call ∈ calls ++ [call] := List.mem_append_right _ (List.mem_singleton_self call)
    have hSound : ∀ state, (run config calls).entry d key = some state → _ := fun state =>
      run_sound hConfig hOrdered.prefix hSteady.prefix
    have hSeen : ∀ now, call.time = some now → 0 < failuresIn d key a b calls → a ≤ now := by
      intro now hTime hPositive
      obtain ⟨t, ht, hIn⟩ := exists_touch_of_failuresIn hPositive
      exact hIn.trans (touch_le hOrdered ht hTime)
    have hLastSeen : ∀ state now, (run config calls).entry d key = some state →
        call.time = some now → state.lastSeen ≤ now := by
      intro state now hEntry hTime
      exact touch_le hOrdered (hSound state hEntry).2.1 hTime
    obtain ⟨pruned, hPruned, hVisited⟩ := run_visited hConfig hSteady d key
    have hPrunedNone : pruned = none → failuresIn d key a b calls = 0 := by
      intro hGone
      rcases hPruned with hSame | ⟨-, now, state, hTime, hEntry, -, hOld⟩
      · exact hNone (hSame ▸ hGone)
      · -- an entry is pruned only after a whole window
        by_contra hPositive
        have hTouched := (hSome state hEntry).seen (Nat.pos_of_ne_zero hPositive)
        have hNow := hEnd call hCall now hTime
        have hBase := hConfig.base
        have hMaximum := hConfig.maximum
        simp only [seconds] at hOld hLength
        omega
    have hPrunedSome : ∀ state, pruned = some state → (run config calls).entry d key = some state := by
      intro state hState
      rw [hState] at hPruned
      exact hPruned.eq_some
    have hAfterUnlocked : ∀ now, call.time = some now → ∀ state,
        (run config (calls ++ [call])).entry d key = some state → a ≤ now →
          state.lockedUntil ≤ now := by
      intro now hTime state hEntry hIn
      exact hUnlocked calls call [] now rfl hTime hIn (hEnd call hCall now hTime) state hEntry
    generalize (run config (calls ++ [call])).entry d key = after at hVisited hAfterUnlocked ⊢
    generalize call.lockout (run config calls) d key = lock at hVisited
    cases hVisited with
    | idle hTouch hFailure =>
      rw [failuresIn_of_none hFailure]
      exact ⟨hPrunedNone, fun state hState => hSome state (hPrunedSome state hState)⟩
    | absent hTime hTouch hFailure =>
      rw [failuresIn_of_none hFailure]
      exact ⟨hPrunedNone, fun state hState => (by cases hState)⟩
    | succeeded hSucceeds hTouch hFailure => exact absurd hSucceeds (hNoSuccess call hCall)
    | @checked now state after decision hTime hTouch hFailure hChecked =>
      rw [failuresIn_of_none hFailure]
      have hEntry := hPrunedSome state rfl
      have hCondition := hForgets calls call [] now rfl hTouch
      rw [hEntry] at hCondition
      have hNow := hEnd call hCall now hTime
      refine ⟨fun h => (by cases h), ?_⟩
      intro state' hState'
      cases hState'
      exact hChecked.tally (hSome state hEntry) (hSound state hEntry).1.failures hCondition
        (by omega) (hSeen now hTime)
    | @failed now _ after decision hTime hTouch hFailure hRecorded =>
      have hNow := hEnd call hCall now hTime
      rw [failuresIn_of_failure hFailure hNow]
      have hCondition := hForgets calls call [] now rfl hTouch
      refine ⟨fun h => (by cases h), ?_⟩
      intro state' hState'
      cases hState'
      cases pruned with
      | none =>
        have hZero := hPrunedNone rfl
        have hInitial : ForgetsWhenQuiet config (some FailureState.initial) now :=
          ⟨hCondition.1, fun s hs hSet => absurd (by rw [← Option.some.inj hs]; rfl) hSet⟩
        rw [hZero]
        exact hRecorded.tally hConfig hLimit (Tally.of_zero (fun _ => rfl)) (initial_sound hLimit.1)
          hInitial (by omega) (fun h => absurd h (Nat.lt_irrefl 0)) (fun h => absurd rfl h)
          (hAfterUnlocked now hTime _ rfl)
      | some state =>
        have hEntry := hPrunedSome state rfl
        rw [hEntry] at hCondition
        exact hRecorded.tally hConfig hLimit (hSome state hEntry) (hSound state hEntry).1 hCondition
          (by omega) (hSeen now hTime) (fun _ => hLastSeen state now hEntry hTime)
          (hAfterUnlocked now hTime _ rfl)

/-- Where no lock is forgotten before the key has been quiet, a key that is never locked
for as long as a window has at most twice as many failures as may go unlocked. -/
theorem failures_bounded (config : AuthAbuseConfig) (hConfig : config.Accepted) (d : Dimension)
    (key : String) (calls : List ProtectorCall) (hOrdered : Ordered calls)
    (hSteady : Steady config calls) (hForgets : Forgets config d key calls)
    (hNoSuccess : ∀ call ∈ calls, ¬call.Succeeds d key) (a b : Int)
    (hLength : b - a ≤ seconds config.failureWindow)
    (hUnlocked : NeverLocked config d key a b calls) :
    failuresIn d key a b calls ≤ 2 * (d.failureLimit config - 1) := by
  induction calls using List.reverseRecOn with
  | nil => exact Nat.zero_le _
  | append_singleton calls call ih =>
    have hBefore := ih hOrdered.prefix hSteady.prefix hForgets.prefix
      (fun c hc => hNoSuccess c (List.mem_append_left _ hc)) hUnlocked.prefix
    cases hFailure : call.failureTime d key with
    | none =>
      rw [failuresIn_of_none hFailure]
      exact hBefore
    | some now =>
      have hTime := time_of_failureTime hFailure
      by_cases hLate : b < now
      · have hOutside : ¬(a ≤ now ∧ now ≤ b) := fun h => absurd h.2 (not_le.mpr hLate)
        rw [failuresIn_concat, hFailure, Option.toList_some, List.filter_singleton]
        rw [decide_eq_false hOutside]
        exact hBefore
      · have hEnd : ∀ c ∈ calls ++ [call], ∀ t, c.time = some t → t ≤ b := by
          intro c hc t ht
          rcases List.mem_append.mp hc with hc | hc
          · have hLe := hOrdered.le hc (List.mem_singleton_self call) ht hTime
            omega
          · rw [List.mem_singleton.mp hc, hTime] at ht
            cases ht
            omega
        obtain ⟨hNone, hSome⟩ := tally_run hConfig hOrdered hSteady hForgets hLength hUnlocked
          hNoSuccess hEnd
        cases hEntry : (run config (calls ++ [call])).entry d key with
        | none =>
          rw [hNone hEntry]
          exact Nat.zero_le _
        | some state =>
          have hBelow := (run_sound hConfig hOrdered hSteady hEntry).1.failures
          rcases (hSome state hEntry).within with hAll | ⟨-, hSum⟩
          · omega
          · omega

theorem neverLocked_of_checked {a b : Int}
    (h : ∀ i : Fin calls.length, ∀ now ∈ (calls.get i).time, a ≤ now → now ≤ b →
      ∀ state ∈ (run config (calls.take i ++ [calls.get i])).entry d key, state.lockedUntil ≤ now) :
    NeverLocked config d key a b calls := by
  have hEach : ∀ earlier call later, calls = earlier ++ call :: later → ∀ now ∈ call.time, a ≤ now →
      now ≤ b → ∀ state ∈ (run config (earlier ++ [call])).entry d key, state.lockedUntil ≤ now :=
    forall_calls (P := fun earlier call => ∀ now ∈ call.time, a ≤ now → now ≤ b →
      ∀ state ∈ (run config (earlier ++ [call])).entry d key, state.lockedUntil ≤ now) h
  intro earlier call later now hSplit hTime
  exact hEach earlier call later hSplit now hTime

theorem failures_bounded_sample :
    failuresIn .account "alice" (Sample.seconds 21) (Sample.seconds 121)
      [Sample.failure 10, Sample.failure 10, Sample.failure 30] ≤ 2 * (2 - 1) := by
  have hRoom : NoEviction Sample.limits [Sample.failure 10, Sample.failure 10, Sample.failure 30] := by
    apply noEviction_of_capacity
    intro d
    cases d <;> decide +kernel
  have hClock : WithinClock Sample.limits
      (times [Sample.failure 10, Sample.failure 10, Sample.failure 30]) :=
    withinClock_of_nonneg (by decide) (by decide +kernel) (by decide +kernel)
  have hForgets : Forgets Sample.limits .account "alice"
      [Sample.failure 10, Sample.failure 10, Sample.failure 30] := by
    have hEach := @forall_calls [Sample.failure 10, Sample.failure 10, Sample.failure 30]
      (fun earlier call => ∀ now ∈ call.touchTime .account "alice",
        now ≠ 0 ∧ ∀ state ∈ (run Sample.limits earlier).entry .account "alice",
          state.lockedUntil ≠ 0 → now - state.lockedUntil > SecureCore.seconds 10 →
            now - state.lastSeen > SecureCore.seconds 10) (by decide +kernel)
    intro earlier call later now hSplit hTouch
    exact hEach earlier call later hSplit now hTouch
  exact failures_bounded Sample.limits Sample.limits_accepted .account "alice"
    [Sample.failure 10, Sample.failure 10, Sample.failure 30] (by unfold Ordered; decide +kernel)
    ⟨hRoom, hClock⟩ hForgets (by
      intro call hCall
      simp only [List.mem_cons, List.not_mem_nil, or_false] at hCall
      rcases hCall with rfl | rfl | rfl <;> exact id)
    (Sample.seconds 21) (Sample.seconds 121) (by decide +kernel)
    (neverLocked_of_checked (by decide +kernel))

/-- Three failures within two seconds, none of them locked, where two is the bound: the
window is restarted at 11.5 seconds because it began long ago, and again at 12.1 seconds
because the lock ended long ago. -/
theorem failures_unbounded :
    Ordered [Sample.failure 10, Sample.failure 10, Sample.failure 110, Sample.failure 115,
      Sample.failure 121] ∧
    NoEviction Sample.limits [Sample.failure 10, Sample.failure 10, Sample.failure 110,
      Sample.failure 115, Sample.failure 121] ∧
    NeverLocked Sample.limits .account "alice" (Sample.seconds 105) (Sample.seconds 125)
      [Sample.failure 10, Sample.failure 10, Sample.failure 110, Sample.failure 115,
        Sample.failure 121] ∧
    Sample.seconds 125 - Sample.seconds 105 ≤ SecureCore.seconds Sample.limits.failureWindow ∧
    ¬failuresIn .account "alice" (Sample.seconds 105) (Sample.seconds 125)
      [Sample.failure 10, Sample.failure 10, Sample.failure 110, Sample.failure 115,
        Sample.failure 121] ≤ 2 * (Sample.limits.accountFailureLimit - 1) := by
  refine ⟨by unfold Ordered; decide +kernel, ?_, neverLocked_of_checked (by decide +kernel),
    by decide +kernel, by decide +kernel⟩
  apply noEviction_of_capacity
  intro d
  cases d <;> decide +kernel

end AuthAbuseProtector

end SecureCore

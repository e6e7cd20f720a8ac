import SecureCore.Security.Lockouts

/-! # The first lockout

From no failure to the lockout of a new key, and what is refused from then on. -/

namespace SecureCore

set_option autoImplicit false

namespace AuthAbuseProtector

variable {config : AuthAbuseConfig} {d : Dimension} {key : String}
variable {calls : List ProtectorCall} {call : ProtectorCall}

section counting

variable {state after : FailureState} {limit : Nat} {now : Int} {decision : AuthAbuseDecision}

/-- An entry that has counted `count` failures since `first` and was never locked. -/
structure Counts (count : Nat) (first : Int) (state : FailureState) : Prop where
  failures : state.failures = count
  level : state.lockoutLevel = 0
  window : state.windowStarted = first
  unlocked : state.lockedUntil = 0
  seen : first ≤ state.lastSeen

theorem Checked.counts {count : Nat} {first : Int} (h : Checked config state now decision after)
    (hCounts : Counts count first state) (hFirst : 0 < first) (hSeen : state.lastSeen ≤ now)
    (hNear : now ≤ first + seconds config.failureWindow) :
    decision = .allow ∧ Counts count first after := by
  have hLast := hCounts.seen
  have hUnlocked := hCounts.unlocked
  have hWindow := hCounts.window
  cases h with
  | locked hLocked => omega
  | forgotten hOver hQuiet =>
    rcases hQuiet with ⟨hSet, -⟩ | ⟨-, -, hLong⟩
    · exact absurd hUnlocked hSet
    · omega
  | restarted hOver hActive hStarted hPassed => omega
  | kept hOver hActive hOpen =>
    exact ⟨rfl, hCounts.failures, hCounts.level, hWindow, hUnlocked, hLast.trans hSeen⟩

/-- One failure more: it is counted, or it starts the first lockout. -/
theorem Recorded.counts {count : Nat} {first : Int} (hConfig : config.Accepted)
    (hLimit : limit < 2 ^ 32) (h : Recorded config state limit now decision after)
    (hOpened : ∀ checked, Checked config state now .allow checked →
      Counts count first (opened config checked now))
    (hAllowed : state.lockedUntil ≤ now) (hFirst : first ≤ now) (hBelow : count < limit) :
    (count + 1 < limit → Counts (count + 1) first after) ∧
      (count + 1 = limit → after.lockedUntil = now + seconds config.baseLockout) := by
  have hSum : (count + 1) % 2 ^ 32 = count + 1 := Nat.mod_eq_of_lt (by omega)
  cases h with
  | locked hLocked => exact absurd hAllowed (not_le.mpr hLocked)
  | @counted checked window hChecked hWindow hFewer =>
    have hCounts := hOpened checked hChecked
    rw [← hWindow] at hCounts
    rw [hCounts.failures, hSum] at hFewer
    constructor
    · intro _
      refine ⟨?_, hCounts.level, hCounts.window, hCounts.unlocked, hFirst⟩
      simp only [hCounts.failures, hSum]
    · intro hReached
      omega
  | @lockedOut checked window level hChecked hWindow hReached hLevel =>
    have hCounts := hOpened checked hChecked
    rw [← hWindow] at hCounts
    rw [hCounts.failures, hSum] at hReached
    rw [hCounts.level] at hLevel
    constructor
    · intro hFewer
      omega
    · intro _
      have hDuration := lockoutDuration_eq hConfig.base hConfig.maximum 0
      have hBase := hConfig.maximum.1
      rw [pow_zero, mul_one, min_eq_right hBase] at hDuration
      rw [hLevel]
      change now + seconds (lockoutDuration config 1 : Nat) = _
      rw [hDuration]

end counting

def failureTimes (d : Dimension) (key : String) (calls : List ProtectorCall) : List Int :=
  calls.filterMap (fun call => call.failureTime d key)

theorem failureTimes_concat (d : Dimension) (key : String) (calls : List ProtectorCall)
    (call : ProtectorCall) : failureTimes d key (calls ++ [call]) =
      failureTimes d key calls ++ (call.failureTime d key).toList := by
  unfold failureTimes
  rw [List.filterMap_append]
  cases h : call.failureTime d key <;> simp [h]

theorem not_succeeds_of_touchTime {now : Int} (h : call.touchTime d key = some now) :
    ¬call.Succeeds d key := by
  cases call with
  | check login clientIp t => exact id
  | recordFailure login clientIp accountOrder ipOrder t => exact id
  | recordSuccess login clientIp => cases h

/-- What a visit makes of the count. -/
structure Counted (config : AuthAbuseConfig) (d : Dimension) (key : String) (call : ProtectorCall)
    (begin now : Int) (count : Nat) (after : Option FailureState) : Prop where
  checked : call.failureTime d key = none → count = 0 ∧ after = none ∨
    ∃ first state, begin ≤ first ∧ after = some state ∧ Counts count first state
  failed : call.failureTime d key = some now → ∃ first state, begin ≤ first ∧ after = some state ∧
    (count + 1 < d.failureLimit config → Counts (count + 1) first state) ∧
    (count + 1 = d.failureLimit config → state.lockedUntil = now + seconds config.baseLockout)

theorem counted_of_none (hConfig : config.Accepted) {lock : Option Int} {after : Option FailureState}
    {begin now : Int} (hTouch : call.touchTime d key = some now) (hBegin : 0 < begin)
    (hNow : begin ≤ now) (h : Visited config d key call lock none after) :
    Counted config d key call begin now 0 after := by
  have hLimit := failureLimit_bounds hConfig d
  have hWindow := hConfig.window
  cases h with
  | idle hNone hFailure =>
    rw [hTouch] at hNone
    cases hNone
  | succeeded hSucceeds hNone hFailure =>
    rw [hTouch] at hNone
    cases hNone
  | absent hTime hTouched hFailure =>
    refine ⟨fun _ => .inl ⟨rfl, rfl⟩, ?_⟩
    intro hSome
    rw [hFailure] at hSome
    cases hSome
  | @failed t _ state decision hTime hTouched hFailure hRecorded =>
    rw [hTouch] at hTouched
    cases hTouched
    constructor
    · intro hNone
      rw [hFailure] at hNone
      cases hNone
    · intro _
      have hOpened : ∀ checked, Checked config FailureState.initial now .allow checked →
          Counts 0 now (opened config checked now) := by
        intro checked hChecked
        rw [opened_of_checked hConfig hChecked]
        cases hChecked with
        | forgotten hOver hQuiet =>
          rcases hQuiet with ⟨hSet, -⟩ | ⟨-, hSeen, -⟩
          · exact absurd rfl hSet
          · exact absurd rfl hSeen
        | restarted hOver hActive hStarted hPassed => exact absurd rfl hStarted
        | kept hOver hActive hOpen => exact ⟨rfl, rfl, rfl, rfl, le_refl now⟩
      have hAllowed : FailureState.initial.lockedUntil ≤ now := hBegin.le.trans hNow
      obtain ⟨hFewer, hReached⟩ := hRecorded.counts hConfig hLimit.2 hOpened hAllowed (le_refl now)
        hLimit.1
      exact ⟨now, state, hNow, rfl, hFewer, hReached⟩

theorem counted_of_counts (hConfig : config.Accepted) {lock : Option Int}
    {after : Option FailureState} {state : FailureState} {begin now first : Int} {count : Nat}
    (hTouch : call.touchTime d key = some now) (hCounts : Counts count first state)
    (hBegin : 0 < begin) (hFirst : begin ≤ first) (hSeen : state.lastSeen ≤ now)
    (hNear : now ≤ first + seconds config.failureWindow) (hBelow : count < d.failureLimit config)
    (h : Visited config d key call lock (some state) after) :
    Counted config d key call begin now count after := by
  have hLimit := failureLimit_bounds hConfig d
  have hBefore := hCounts.seen
  have hPositive : 0 < first := hBegin.trans_le hFirst
  cases h with
  | idle hNone hFailure =>
    rw [hTouch] at hNone
    cases hNone
  | succeeded hSucceeds hNone hFailure =>
    rw [hTouch] at hNone
    cases hNone
  | checked hTime hTouched hFailure hChecked =>
    rw [hTouch] at hTouched
    cases hTouched
    constructor
    · intro _
      exact .inr ⟨first, _, hFirst, rfl, (hChecked.counts hCounts hPositive hSeen hNear).2⟩
    · intro hSome
      rw [hFailure] at hSome
      cases hSome
  | @failed t _ after decision hTime hTouched hFailure hRecorded =>
    rw [hTouch] at hTouched
    cases hTouched
    constructor
    · intro hNone
      rw [hFailure] at hNone
      cases hNone
    · intro _
      have hOpened : ∀ checked, Checked config state now .allow checked →
          Counts count first (opened config checked now) := by
        intro checked hChecked
        have hKept := (hChecked.counts hCounts hPositive hSeen hNear).2
        have hStarted : checked.windowStarted ≠ 0 := by
          rw [hKept.window]
          exact hPositive.ne'
        rw [opened_of_checked hConfig hChecked, if_neg hStarted]
        exact hKept
      have hAllowed : state.lockedUntil ≤ now := by
        rw [hCounts.unlocked]
        omega
      obtain ⟨hFewer, hReached⟩ := hRecorded.counts hConfig hLimit.2 hOpened hAllowed
        (hBefore.trans hSeen) hBelow
      exact ⟨first, after, hFirst, rfl, hFewer, hReached⟩

/-- Within the window an entry that counts is not pruned, so the next call counts on. -/
theorem counted_step (hConfig : config.Accepted) (hOrdered : Ordered (calls ++ [call]))
    (hSteady : Steady config (calls ++ [call])) {begin now : Int} {count : Nat}
    (hTouch : call.touchTime d key = some now) (hBegin : 0 < begin) (hAfterBegin : begin ≤ now)
    (hNear : now ≤ begin + seconds config.failureWindow) (hBelow : count < d.failureLimit config)
    (hCounting : count = 0 ∧ (run config calls).entry d key = none ∨
      ∃ first state, begin ≤ first ∧ (run config calls).entry d key = some state ∧
        Counts count first state) :
    Counted config d key call begin now count ((run config (calls ++ [call])).entry d key) := by
  have hTime := time_of_touchTime hTouch
  obtain ⟨pruned, hPruned, hVisited⟩ := run_visited hConfig hSteady d key
  rcases hCounting with ⟨hNone, hEntry⟩ | ⟨first, state, hFirst, hEntry, hCounts⟩
  · rw [hEntry] at hPruned
    have hGone : pruned = none := by
      rcases hPruned with hSame | ⟨hGone, -⟩
      · exact hSame
      · exact hGone
    rw [hGone] at hVisited
    rw [hNone]
    exact counted_of_none hConfig hTouch hBegin hAfterBegin hVisited
  · obtain ⟨-, hSeen⟩ := run_sound hConfig hOrdered.prefix hSteady.prefix hEntry
    have hBefore := touch_le hOrdered hSeen.1 hTime
    have hLast := hCounts.seen
    rw [hEntry] at hPruned
    have hKept : pruned = some state := by
      rcases hPruned with hSame | ⟨-, t, stale, ht, hStale, -, hOld⟩
      · exact hSame
      · rw [hTime] at ht
        cases ht
        cases hStale
        have hBase := hConfig.base
        have hMaximum := hConfig.maximum
        simp only [seconds] at hOld hNear
        omega
    rw [hKept] at hVisited
    exact counted_of_counts hConfig hTouch hCounts hBegin hFirst hBefore (by omega) hBelow hVisited

/-- The calls for a new key within one window: fewer failures than the limit are
counted, and from the failure that reaches the limit the key is locked for the base
duration. -/
theorem first_lockout (hConfig : config.Accepted) {prior : List ProtectorCall} {begin : Int}
    (hFresh : (run config prior).entry d key = none) (hOrdered : Ordered (prior ++ calls))
    (hSteady : Steady config (prior ++ calls)) (hBegin : 0 < begin)
    (hTouch : ∀ call ∈ calls, ∃ t, call.touchTime d key = some t)
    (hTimes : ∀ call ∈ calls, ∀ t, call.time = some t →
      begin ≤ t ∧ t ≤ begin + seconds config.failureWindow) :
    ((failureTimes d key calls).length < d.failureLimit config →
      (failureTimes d key calls).length = 0 ∧ (run config (prior ++ calls)).entry d key = none ∨
        ∃ first state, begin ≤ first ∧ (run config (prior ++ calls)).entry d key = some state ∧
          Counts (failureTimes d key calls).length first state) ∧
    ((failureTimes d key calls).length = d.failureLimit config →
      ∀ last, (failureTimes d key calls).getLast? = some last →
        (∃ call ∈ calls, ∃ t, call.time = some t ∧ last + seconds config.baseLockout ≤ t) ∨
        ∃ state, (run config (prior ++ calls)).entry d key = some state ∧
          state.lockedUntil = last + seconds config.baseLockout) := by
  have hLimit := failureLimit_bounds hConfig d
  induction calls using List.reverseRecOn with
  | nil =>
    rw [List.append_nil]
    refine ⟨fun _ => .inl ⟨rfl, hFresh⟩, ?_⟩
    intro hReached
    exact absurd hReached.symm hLimit.1.ne'
  | append_singleton calls call ih =>
    rw [← List.append_assoc] at hOrdered hSteady ⊢
    obtain ⟨hCounting, hLocked⟩ := ih hOrdered.prefix hSteady.prefix
      (fun c hc => hTouch c (List.mem_append_left _ hc))
      (fun c hc => hTimes c (List.mem_append_left _ hc))
    have hCall : call ∈ calls ++ [call] := List.mem_append_right _ (List.mem_singleton_self call)
    obtain ⟨now, hNow⟩ := hTouch call hCall
    have hTime := time_of_touchTime hNow
    obtain ⟨hAfterBegin, hNear⟩ := hTimes call hCall now hTime
    have hBegun : 0 < now := by omega
    rcases Nat.lt_trichotomy (failureTimes d key calls).length (d.failureLimit config) with
      hBelow | hEqual | hAbove
    · have hCounted := counted_step hConfig hOrdered hSteady hNow hBegin hAfterBegin hNear hBelow
        (hCounting hBelow)
      rw [failureTimes_concat, List.length_append]
      cases hFailure : call.failureTime d key with
      | none =>
        rw [Option.toList_none, List.length_nil, Nat.add_zero]
        constructor
        · intro _
          exact hCounted.checked hFailure
        · intro hReached
          omega
      | some t =>
        have hTouched := touchTime_of_failureTime hFailure
        rw [hNow] at hTouched
        cases hTouched
        obtain ⟨first, state, hFirst, hEntry, hFewer, hReached⟩ := hCounted.failed hFailure
        rw [Option.toList_some, List.length_singleton]
        constructor
        · intro hLess
          exact .inr ⟨first, state, hFirst, hEntry, hFewer hLess⟩
        · intro hLimit last hLast
          rw [List.getLast?_concat] at hLast
          cases hLast
          exact .inr ⟨state, hEntry, hReached hLimit⟩
    · cases hFailure : call.failureTime d key with
      | some t =>
        rw [failureTimes_concat, hFailure, Option.toList_some, List.length_append,
          List.length_singleton]
        constructor
        · intro hLess
          omega
        · intro hMore
          omega
      | none =>
        rw [failureTimes_concat, hFailure, Option.toList_none, List.append_nil]
        constructor
        · intro hLess
          omega
        · intro hReached last hLast
          rcases hLocked hReached last hLast with ⟨c, hc, hOver⟩ | ⟨state, hEntry, hUntil⟩
          · exact .inl ⟨c, List.mem_append_left _ hc, hOver⟩
          · rcases Int.lt_or_le now (last + seconds config.baseLockout) with hDuring | hOver
            · have hNoSuccess := not_succeeds_of_touchTime hNow
              have hSet : state.lockedUntil ≠ 0 := by
                omega
              obtain ⟨state', hEntry', hSame, -⟩ := lock_step hConfig hOrdered hSteady hEntry hSet
                (fun t ht => by
                  rw [hTime] at ht
                  cases ht
                  omega) hNoSuccess
              exact .inr ⟨state', hEntry', hSame.trans hUntil⟩
            · exact .inl ⟨call, hCall, now, hTime, hOver⟩
    · rw [failureTimes_concat, List.length_append]
      constructor
      · intro hLess
        omega
      · intro hReached
        omega

/-- From the failure that reaches the limit the key is refused for the base duration. -/
theorem refused_after_limit (hConfig : config.Accepted)
    {prior counted between rest : List ProtectorCall} {begin last now : Int}
    (hFresh : (run config prior).entry d key = none)
    (hOrdered : Ordered (prior ++ counted ++ between ++ rest))
    (hSteady : Steady config (prior ++ counted ++ between ++ rest)) (hBegin : 0 < begin)
    (hCounted : ∀ call ∈ counted, ∃ t, call.touchTime d key = some t)
    (hBetween : ∀ call ∈ between, ∃ t, call.touchTime d key = some t)
    (hWindow : ∀ call ∈ counted, ∀ t, call.time = some t →
      begin ≤ t ∧ t ≤ begin + seconds config.failureWindow)
    (hCount : (failureTimes d key counted).length = d.failureLimit config)
    (hLast : (failureTimes d key counted).getLast? = some last)
    (hCall : call ∈ rest) (hTouch : call.touchTime d key = some now)
    (hDuring : now < last + seconds config.baseLockout) :
    Refuses (call.decision (run config (prior ++ counted ++ between))) := by
  have hTime := time_of_touchTime hTouch
  have hBefore : ∀ c ∈ prior ++ counted ++ between, ∀ t, c.time = some t → t ≤ now :=
    fun c hc t ht => hOrdered.le hc hCall ht hTime
  have hSet : begin ≤ last := by
    obtain ⟨c, hc, hFailure⟩ := List.mem_filterMap.mp (List.mem_of_getLast? hLast)
    exact (hWindow c hc last (time_of_failureTime hFailure)).1
  have hBase := hConfig.base
  obtain ⟨-, hLocked⟩ := first_lockout hConfig hFresh hOrdered.prefix.prefix hSteady.prefix.prefix
    hBegin hCounted hWindow
  rcases hLocked hCount last hLast with ⟨c, hc, t, ht, hOver⟩ | ⟨state, hEntry, hUntil⟩
  · have hLe := hBefore c (List.mem_append_left _ (List.mem_append_right _ hc)) t ht
    omega
  · have hHolds : ∀ c ∈ between, ∀ t, c.time = some t → t < state.lockedUntil := by
      intro c hc t ht
      have hLe := hBefore c (List.mem_append_right _ hc) t ht
      omega
    have hNoSuccess : ∀ c ∈ between, ¬c.Succeeds d key := by
      intro c hc
      obtain ⟨t, ht⟩ := hBetween c hc
      exact not_succeeds_of_touchTime ht
    have hNonzero : state.lockedUntil ≠ 0 := by
      rw [hUntil]
      simp only [seconds]
      omega
    obtain ⟨state', hEntry', hSame, -⟩ := lock_run hConfig hOrdered.prefix hSteady.prefix hEntry
      hNonzero hHolds hNoSuccess
    rw [← hSame] at hNonzero hUntil
    have hSubset : prior ++ counted ++ between ++ [call] ⊆ prior ++ counted ++ between ++ rest := by
      rw [List.append_subset]
      exact ⟨List.subset_append_left _ _, List.cons_subset.mpr ⟨List.mem_append_right _ hCall, List.nil_subset _⟩⟩
    exact refuses_of_locked hConfig hOrdered.prefix hSteady.prefix
      (hSteady.clock.subset (times_subset hSubset)) hEntry' hNonzero hTouch (by omega)

end AuthAbuseProtector

end SecureCore

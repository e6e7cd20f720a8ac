import SecureCore.Security.EntryVisits
import Mathlib.Order.Bounds.Basic

/-! # Sound entries

What holds of every entry of a run: no failure too many, no lock before time 0 and none
that is longer than the longest lockout. -/

namespace SecureCore

set_option autoImplicit false

/-! ## Limits small enough to compute with -/

namespace Sample

def limits : AuthAbuseConfig := ⟨2, 100, 10, 1, 8, 10, 10⟩

theorem limits_accepted : limits.Accepted := by
  constructor <;> decide

def seconds (tenths : Int) : Int := tenths * 100000000

def failure (tenths : Int) : ProtectorCall := .recordFailure "alice" "192.0.2.1" [] [] (seconds tenths)

def check (tenths : Int) : ProtectorCall := .check "alice" "192.0.2.2" (seconds tenths)

end Sample

namespace AuthAbuseProtector

variable {config : AuthAbuseConfig} {d : Dimension} {key : String}
variable {calls : List ProtectorCall} {call : ProtectorCall}

def touchTimes (d : Dimension) (key : String) (calls : List ProtectorCall) : List Int :=
  calls.filterMap (fun call => call.touchTime d key)

theorem touchTimes_concat (d : Dimension) (key : String) (calls : List ProtectorCall)
    (call : ProtectorCall) :
    touchTimes d key (calls ++ [call]) = touchTimes d key calls ++ (call.touchTime d key).toList := by
  unfold touchTimes
  rw [List.filterMap_append]
  cases h : call.touchTime d key <;> simp [h]

theorem touch_le {t now : Int} (hOrdered : Ordered (calls ++ [call])) (ht : t ∈ touchTimes d key calls)
    (hTime : call.time = some now) : t ≤ now := by
  obtain ⟨first, hFirst, hTouch⟩ := List.mem_filterMap.mp ht
  exact hOrdered.le hFirst (List.mem_singleton_self call) (time_of_touchTime hTouch) hTime

/-! ## What holds of every entry -/

structure Sound (config : AuthAbuseConfig) (limit : Nat) (state : FailureState) : Prop where
  failures : state.failures < limit
  nonneg : 0 ≤ state.lockedUntil
  unlocked : state.lockedUntil = 0 → state.lockoutLevel = 0
  seen : state.lockedUntil ≠ 0 →
    state.lockedUntil ≤ state.lastSeen + seconds config.maximumLockout

section step

variable {state after : FailureState} {limit : Nat} {now : Int} {decision : AuthAbuseDecision}

theorem initial_sound (hLimit : 0 < limit) : Sound config limit .initial where
  failures := hLimit
  nonneg := le_refl 0
  unlocked _ := rfl
  seen h := absurd rfl h

theorem Checked.lastSeen (h : Checked config state now decision after) : after.lastSeen = now := by
  cases h <;> rfl

theorem Checked.lockedUntil_le (h : Checked config state now .allow after) :
    state.lockedUntil ≤ now := by
  cases h with
  | forgotten hOver hQuiet => exact hOver
  | restarted hOver hActive hStarted hPassed => exact hOver
  | kept hOver hActive hWindow => exact hOver

theorem Checked.sound (hConfig : config.Accepted) (hLimit : 0 < limit)
    (h : Checked config state now decision after) (hSound : Sound config limit state)
    (hSeen : state.lockedUntil ≠ 0 → state.lastSeen ≤ now) : Sound config limit after := by
  have hBase := hConfig.base
  have hMaximum := hConfig.maximum
  cases h with
  | locked hLocked =>
    refine ⟨hSound.failures, hSound.nonneg, hSound.unlocked, ?_⟩
    intro hSet
    have hBound := hSound.seen hSet
    have hBefore := hSeen hSet
    simp only at hSet ⊢
    omega
  | forgotten hOver hQuiet => exact ⟨hLimit, le_refl 0, fun _ => rfl, fun hSet => absurd rfl hSet⟩
  | restarted hOver hActive hStarted hPassed =>
    refine ⟨hLimit, hSound.nonneg, hSound.unlocked, ?_⟩
    intro _
    simp only [seconds]
    omega
  | kept hOver hActive hWindow =>
    refine ⟨hSound.failures, hSound.nonneg, hSound.unlocked, ?_⟩
    intro _
    simp only [seconds]
    omega

theorem opened_lockedUntil (config : AuthAbuseConfig) (state : FailureState) (now : Int) :
    (opened config state now).lockedUntil = state.lockedUntil := by
  unfold opened
  split <;> rfl

theorem opened_sound (hLimit : 0 < limit) (hSound : Sound config limit state) :
    Sound config limit (opened config state now) := by
  unfold opened
  split
  · exact ⟨hLimit, hSound.nonneg, fun _ => rfl, hSound.seen⟩
  · exact hSound

theorem lockoutDuration_pos (hConfig : config.Accepted) (level : Nat) :
    0 < lockoutDuration config level := by
  have hBase := hConfig.base
  have hMaximum := hConfig.maximum.1
  have hPositive : ∀ n, 0 < lockoutDuration config (n + 1) := by
    intro n
    have hDuration := lockoutDuration_eq hConfig.base hConfig.maximum n
    have hProduct : 0 < config.baseLockout * 2 ^ n := by positivity
    omega
  cases level with
  | zero => exact hPositive 0
  | succ n => exact hPositive n

theorem Recorded.lastSeen (h : Recorded config state limit now decision after) :
    after.lastSeen = now := by
  cases h <;> rfl

/-- An allowed check ends with the lock over, and at no negative time. -/
theorem Checked.over (h : Checked config state now .allow after) (hSound : Sound config limit state) :
    after.lockedUntil ≤ now ∧ 0 ≤ now := by
  have hNonneg := hSound.nonneg
  cases h with
  | forgotten hOver hQuiet =>
    have hNow : 0 ≤ now := hNonneg.trans hOver
    exact ⟨hNow, hNow⟩
  | restarted hOver hActive hStarted hPassed => exact ⟨hOver, hNonneg.trans hOver⟩
  | kept hOver hActive hWindow => exact ⟨hOver, hNonneg.trans hOver⟩

theorem Recorded.sound (hConfig : config.Accepted) (hLimit : 0 < limit)
    (h : Recorded config state limit now decision after) (hSound : Sound config limit state)
    (hSeen : state.lockedUntil ≠ 0 → state.lastSeen ≤ now) : Sound config limit after := by
  have hBase := hConfig.base
  have hMaximum := hConfig.maximum
  cases h with
  | locked hLocked => exact (Checked.locked hLocked).sound hConfig hLimit hSound hSeen
  | @counted checked window hChecked hWindow hBelow =>
    have hOpened : Sound config limit window := by
      rw [hWindow]
      exact opened_sound hLimit (hChecked.sound hConfig hLimit hSound hSeen)
    have hUntil : window.lockedUntil = checked.lockedUntil := by
      rw [hWindow]
      exact opened_lockedUntil config checked now
    refine ⟨hBelow, hOpened.nonneg, hOpened.unlocked, ?_⟩
    intro _
    have hOver := (hChecked.over hSound).1
    simp only [seconds]
    omega
  | @lockedOut checked window level hChecked hWindow hReached hLevel =>
    have hNow := (hChecked.over hSound).2
    have hPositive := lockoutDuration_pos hConfig level
    have hBound := lockoutDuration_le config level (by omega)
    refine ⟨hLimit, ?_, ?_, ?_⟩
    · simp only [seconds]
      omega
    · intro hZero
      simp only [seconds] at hZero
      omega
    · intro _
      simp only [seconds]
      omega

theorem Checked.nonneg (h : Checked config state now decision after) (hNonneg : 0 ≤ state.lockedUntil) :
    0 ≤ after.lockedUntil := by
  cases h with
  | locked hLocked => exact hNonneg
  | forgotten hOver hQuiet => exact le_refl 0
  | restarted hOver hActive hStarted hPassed => exact hNonneg
  | kept hOver hActive hWindow => exact hNonneg

theorem Recorded.nonneg (h : Recorded config state limit now decision after) (hNonneg : 0 ≤ state.lockedUntil) :
    0 ≤ after.lockedUntil := by
  cases h with
  | locked hLocked => exact hNonneg
  | @counted checked window hChecked hWindow hBelow =>
    have hOpened := opened_lockedUntil config checked now
    rw [← hWindow] at hOpened
    change 0 ≤ window.lockedUntil
    rw [hOpened]
    exact hChecked.nonneg hNonneg
  | @lockedOut checked window level hChecked hWindow hReached hLevel =>
    -- only an allowed check gets here, so the clock is past the end of the last lock
    have hOver := hChecked.lockedUntil_le
    simp only [seconds]
    omega

end step

theorem failureLimit_bounds (hConfig : config.Accepted) (d : Dimension) :
    0 < d.failureLimit config ∧ d.failureLimit config < 2 ^ 32 := by
  cases d with
  | account => exact hConfig.accountLimit
  | ip => exact hConfig.ipLimit

section entries

variable {entry : String × FailureState} {now : Int}

/-- No lock ends before time 0, in whatever order the calls come. -/
theorem run_nonneg (hConfig : config.Accepted) (hClock : WithinClock config (times calls))
    (h : entry ∈ (run config calls).states d) : 0 ≤ entry.2.lockedUntil := by
  induction calls using List.reverseRecOn generalizing entry with
  | nil => cases d <;> cases h
  | append_singleton calls call ih =>
    have hBefore := hClock.subset (times_subset (List.subset_append_left calls [call]))
    cases run_made hConfig hClock h with
    | kept hKept => exact ih hBefore hKept
    | checked hTime hKept hChecked => exact hChecked.nonneg (ih hBefore hKept)
    | failed hTime hKept hRecorded =>
      rcases hKept with rfl | hKept
      · exact hRecorded.nonneg (le_refl 0)
      · exact hRecorded.nonneg (ih hBefore hKept)

/-- Every entry is sound, and was last seen by one of the calls. -/
theorem run_entries (hConfig : config.Accepted) (hOrdered : Ordered calls)
    (hClock : WithinClock config (times calls)) (h : entry ∈ (run config calls).states d) :
    Sound config (d.failureLimit config) entry.2 ∧
      ∃ call ∈ calls, call.time = some entry.2.lastSeen := by
  have hLimit := (failureLimit_bounds hConfig d).1
  induction calls using List.reverseRecOn generalizing entry with
  | nil => cases d <;> cases h
  | append_singleton calls call ih =>
    have hBefore := hClock.subset (times_subset (List.subset_append_left calls [call]))
    have hLast : call ∈ calls ++ [call] := List.mem_append_right _ (List.mem_singleton_self call)
    have hSeen : ∀ before ∈ (run config calls).states d, ∀ now, call.time = some now →
        before.2.lastSeen ≤ now := by
      intro before hKept now hTime
      obtain ⟨-, earlier, hEarlier, hAt⟩ := ih hOrdered.prefix hBefore hKept
      exact hOrdered.le hEarlier (List.mem_singleton_self call) hAt hTime
    cases run_made hConfig hClock h with
    | kept hKept =>
      obtain ⟨hSound, earlier, hEarlier, hAt⟩ := ih hOrdered.prefix hBefore hKept
      exact ⟨hSound, earlier, List.mem_append_left _ hEarlier, hAt⟩
    | checked hTime hKept hChecked =>
      constructor
      · exact hChecked.sound hConfig hLimit (ih hOrdered.prefix hBefore hKept).1
          fun _ => hSeen _ hKept _ hTime
      · exact ⟨call, hLast, hTime.trans (congrArg some hChecked.lastSeen.symm)⟩
    | failed hTime hKept hRecorded =>
      constructor
      · rcases hKept with rfl | hKept
        · exact hRecorded.sound hConfig hLimit (initial_sound hLimit) fun hSet => absurd rfl hSet
        · exact hRecorded.sound hConfig hLimit (ih hOrdered.prefix hBefore hKept).1
            fun _ => hSeen _ hKept _ hTime
      · exact ⟨call, hLast, hTime.trans (congrArg some hRecorded.lastSeen.symm)⟩

end entries

/-- Every entry of a run is sound, and was last seen by the last call that touched it. -/
theorem run_sound (hConfig : config.Accepted) (hOrdered : Ordered calls)
    (hSteady : Steady config calls) {state : FailureState}
    (hEntry : (run config calls).entry d key = some state) :
    Sound config (d.failureLimit config) state ∧
      IsGreatest {t | t ∈ touchTimes d key calls} state.lastSeen := by
  refine ⟨(run_entries hConfig hOrdered hSteady.clock (FailureStates.mem_of_find hEntry)).1, ?_⟩
  induction calls using List.reverseRecOn generalizing state with
  | nil => cases d <;> cases hEntry
  | append_singleton calls call ih =>
    obtain ⟨pruned, hPruned, hVisited⟩ := run_visited hConfig hSteady d key
    rw [hEntry] at hVisited
    have hLast : ∀ now, call.touchTime d key = some now →
        IsGreatest {t | t ∈ touchTimes d key (calls ++ [call])} now := by
      intro now hTouch
      rw [touchTimes_concat, hTouch]
      constructor
      · simp
      · intro t ht
        rcases List.mem_append.mp ht with ht | ht
        · exact touch_le hOrdered ht (time_of_touchTime hTouch)
        · simp at ht
          exact ht.le
    generalize hLock : call.lockout (run config calls) d key = lock at hVisited
    cases hVisited with
    | idle hTouch hFailure =>
      have hKept := ih hOrdered.prefix hSteady.prefix hPruned.eq_some
      rw [touchTimes_concat, hTouch, Option.toList_none, List.append_nil]
      exact hKept
    | checked hTime hTouch hFailure hChecked =>
      rw [hChecked.lastSeen]
      exact hLast _ hTouch
    | failed hTime hTouch hFailure hRecorded =>
      rw [hRecorded.lastSeen]
      exact hLast _ hTouch

end AuthAbuseProtector

end SecureCore

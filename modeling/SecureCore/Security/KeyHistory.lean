import SecureCore.Model.Records
import SecureCore.Security.AuthAbuseProtector
import Mathlib.Tactic.Ring
import Mathlib.Tactic.Linarith

/-! # The history of one key

What the calls of a protector do to the state of one account or of one address, and
what holds of that state after any of them. -/

namespace SecureCore

set_option autoImplicit false

/-- What the constructor demands of the values of the fields' types. -/
structure AuthAbuseConfig.Accepted (config : AuthAbuseConfig) : Prop where
  accountLimit : 0 < config.accountFailureLimit ∧ config.accountFailureLimit < 2 ^ 32
  ipLimit : 0 < config.ipFailureLimit ∧ config.ipFailureLimit < 2 ^ 32
  window : 0 < config.failureWindow
  base : 0 < config.baseLockout
  maximum : config.baseLockout ≤ config.maximumLockout ∧ config.maximumLockout < 2 ^ 63
  accounts : 0 < config.maximumTrackedAccounts
  ips : 0 < config.maximumTrackedIps

namespace AuthAbuseProtector

def make (config : AuthAbuseConfig) : Except Exception AuthAbuseProtector :=
  if config.accountFailureLimit = 0 ∨ config.ipFailureLimit = 0 then
    .error (.invalidArgument "Authentication failure limits must be positive")
  else if config.failureWindow ≤ 0 ∨ config.baseLockout ≤ 0 ∨
      config.maximumLockout < config.baseLockout then
    .error (.invalidArgument "Authentication lockout durations are invalid")
  else if config.maximumTrackedAccounts = 0 ∨ config.maximumTrackedIps = 0 then
    .error (.invalidArgument "Authentication tracking capacities must be positive")
  else .ok ⟨config, [], [], 0⟩

variable {config : AuthAbuseConfig} {state : FailureState} {limit : Nat} {now : Int}

/-- The limits are of type `std::uint32_t`, the durations of a signed 64-bit type. -/
theorem accepted_of_make {protector : AuthAbuseProtector} (h : make config = .ok protector)
    (hAccounts : config.accountFailureLimit < 2 ^ 32) (hIps : config.ipFailureLimit < 2 ^ 32)
    (hMaximum : config.maximumLockout < 2 ^ 63) : config.Accepted := by
  unfold make at h
  split at h
  · cases h
  · split at h
    · cases h
    · split at h
      · cases h
      · constructor <;> omega

/-! ## The clock -/

/-- What the protector computes from the times of an entry stays within the clock. -/
structure Measured (config : AuthAbuseConfig) (state : FailureState) (now : Int) : Prop where
  durations : seconds (config.failureWindow + config.maximumLockout) < 2 ^ 63
  seen : -2 ^ 63 ≤ now - state.lastSeen ∧ now - state.lastSeen < 2 ^ 63
  window : -2 ^ 63 ≤ now - state.windowStarted ∧ now - state.windowStarted < 2 ^ 63
  since : -2 ^ 63 ≤ now - state.lockedUntil ∧ now - state.lockedUntil < 2 ^ 63
  left : state.lockedUntil - now < 2 ^ 63
  lockout : -2 ^ 63 ≤ now ∧ now + seconds config.maximumLockout < 2 ^ 63

theorem nanoseconds_failureWindow (hConfig : config.Accepted)
    (hDurations : seconds (config.failureWindow + config.maximumLockout) < 2 ^ 63) :
    nanoseconds config.failureWindow = seconds config.failureWindow := by
  have hWindow := hConfig.window
  have hBase := hConfig.base
  have hMaximum := hConfig.maximum.1
  apply nanoseconds_of_fits hWindow.le
  unfold seconds at hDurations ⊢
  omega

theorem nanoseconds_staleAfter (hConfig : config.Accepted)
    (hDurations : seconds (config.failureWindow + config.maximumLockout) < 2 ^ 63) :
    nanoseconds (int64 (config.failureWindow + config.maximumLockout)) =
      seconds (config.failureWindow + config.maximumLockout) := by
  have hWindow := hConfig.window
  have hBase := hConfig.base
  have hMaximum := hConfig.maximum.1
  have hSum : int64 (config.failureWindow + config.maximumLockout) =
      config.failureWindow + config.maximumLockout := by
    unfold seconds at hDurations
    exact int64_of_fits (by omega) (by omega)
  rw [hSum]
  exact nanoseconds_of_fits (by omega) hDurations

theorem stale_iff (hConfig : config.Accepted)
    (hDurations : seconds (config.failureWindow + config.maximumLockout) < 2 ^ 63)
    (hSeen : -2 ^ 63 ≤ now - state.lastSeen ∧ now - state.lastSeen < 2 ^ 63) :
    stale config now state = true ↔ state.lastSeen ≠ 0 ∧
      now - state.lastSeen > seconds (config.failureWindow + config.maximumLockout) := by
  unfold stale
  rw [Bool.and_eq_true, bne_iff_ne, decide_eq_true_eq, int64_of_fits hSeen.1 hSeen.2,
    nanoseconds_staleAfter hConfig hDurations]

/-! ## check_state -/

/-- The two rules that forget everything. -/
def Quiet (config : AuthAbuseConfig) (state : FailureState) (now : Int) : Prop :=
  (state.lockedUntil ≠ 0 ∧ now - state.lockedUntil > seconds config.failureWindow) ∨
    (state.lockedUntil = 0 ∧ state.lastSeen ≠ 0 ∧
      now - state.lastSeen > seconds config.failureWindow)

inductive Checked (config : AuthAbuseConfig) (state : FailureState) (now : Int) :
    AuthAbuseDecision → FailureState → Prop
  | locked (hLocked : state.lockedUntil > now) :
      Checked config state now ⟨false, ceilSeconds (state.lockedUntil - now), false⟩
        { state with lastSeen := now }
  | forgotten (hOver : state.lockedUntil ≤ now) (hQuiet : Quiet config state now) :
      Checked config state now .allow ⟨0, 0, now, 0, now⟩
  | restarted (hOver : state.lockedUntil ≤ now) (hActive : ¬Quiet config state now)
      (hStarted : state.windowStarted ≠ 0)
      (hPassed : now - state.windowStarted > seconds config.failureWindow) :
      Checked config state now .allow ⟨0, state.lockoutLevel, now, state.lockedUntil, now⟩
  | kept (hOver : state.lockedUntil ≤ now) (hActive : ¬Quiet config state now)
      (hWindow : state.windowStarted = 0 ∨
        now - state.windowStarted ≤ seconds config.failureWindow) :
      Checked config state now .allow { state with lastSeen := now }

theorem checkState_checked (hConfig : config.Accepted) (h : Measured config state now) :
    Checked config state now (checkState config state now).1 (checkState config state now).2 := by
  unfold checkState
  simp only
  by_cases hLocked : state.lockedUntil > now
  · have hBegun := h.since.2
    have hLeft : int64 (state.lockedUntil - now) = state.lockedUntil - now :=
      int64_of_fits (by omega) h.left
    rw [if_pos hLocked, hLeft]
    exact .locked hLocked
  · rw [if_neg hLocked, nanoseconds_failureWindow hConfig h.durations, int64_of_fits h.seen.1 h.seen.2,
      int64_of_fits h.window.1 h.window.2, int64_of_fits h.since.1 h.since.2]
    have hOver : state.lockedUntil ≤ now := by omega
    split
    · rename_i hQuiet
      exact .forgotten hOver hQuiet
    · rename_i hActive
      split
      · rename_i hPassed
        exact .restarted hOver hActive hPassed.1 hPassed.2
      · rename_i hWithin
        apply Checked.kept hOver hActive
        by_cases hStarted : state.windowStarted = 0
        · exact .inl hStarted
        · right
          by_contra hLater
          exact hWithin ⟨hStarted, by omega⟩

/-! ## lockout_duration -/

theorem toUint64_of_nonneg {n : Int} (h : 0 ≤ n) (hSmall : n < 2 ^ 63) : (toUint64 n : Int) = n := by
  unfold toUint64
  omega

/-- The loop doubles until it has made all its rounds or has reached the maximum. -/
theorem lockoutMultiplier_spec {maximum : Nat} (hSmall : maximum < 2 ^ 63) (steps : Nat) :
    ∀ multiplier, lockoutMultiplier maximum steps multiplier = multiplier * 2 ^ steps ∨
      (maximum ≤ lockoutMultiplier maximum steps multiplier ∧
        maximum ≤ multiplier * 2 ^ steps) := by
  induction steps with
  | zero =>
    intro multiplier
    left
    rw [lockoutMultiplier, Nat.pow_zero, Nat.mul_one]
  | succ steps ih =>
    intro multiplier
    unfold lockoutMultiplier
    by_cases hReached : multiplier ≥ maximum
    · rw [if_pos hReached]
      right
      exact ⟨hReached, hReached.trans (Nat.le_mul_of_pos_right _ (Nat.two_pow_pos _))⟩
    · rw [if_neg hReached]
      have hDouble : multiplier * 2 % 2 ^ 64 = multiplier * 2 := by omega
      have hPower : multiplier * 2 ^ (steps + 1) = multiplier * 2 * 2 ^ steps := by ring
      rw [hDouble, hPower]
      exact ih (multiplier * 2)

/-- The n-th lockout takes the base duration doubled n - 1 times, up to the maximum. -/
theorem lockoutDuration_eq (hBase : 0 < config.baseLockout)
    (hMaximum : config.baseLockout ≤ config.maximumLockout ∧ config.maximumLockout < 2 ^ 63) (n : Nat) :
    (lockoutDuration config (n + 1) : Int) = min config.maximumLockout (config.baseLockout * 2 ^ n) := by
  have hBaseWord : (toUint64 config.baseLockout : Int) = config.baseLockout :=
    toUint64_of_nonneg (by omega) (by omega)
  have hMaximumWord : (toUint64 config.maximumLockout : Int) = config.maximumLockout :=
    toUint64_of_nonneg (by omega) hMaximum.2
  have hSmall : toUint64 config.maximumLockout < 2 ^ 63 := by omega
  have hPositive : 0 < toUint64 config.baseLockout := by omega
  rw [← hBaseWord, ← hMaximumWord]
  unfold lockoutDuration
  simp only [Nat.add_sub_cancel]
  generalize toUint64 config.baseLockout = base at hPositive
  generalize toUint64 config.maximumLockout = maximum at hSmall
  have hGoal : min maximum (if base > maximum / lockoutMultiplier maximum n 1 then maximum
      else base * lockoutMultiplier maximum n 1 % 2 ^ 64) = min maximum (base * 2 ^ n) := by
    have hLoop := lockoutMultiplier_spec hSmall n 1
    rw [Nat.one_mul] at hLoop
    generalize hMultiplier : lockoutMultiplier maximum n 1 = multiplier at hLoop ⊢
    split
    · rename_i hAbove
      -- either the maximum was reached or the product exceeds it
      have hLarge : maximum ≤ base * 2 ^ n := by
        rcases hLoop with hPower | ⟨-, hPower⟩
        · rw [hPower] at hAbove
          exact ((Nat.div_lt_iff_lt_mul (Nat.two_pow_pos n)).mp hAbove).le
        · exact hPower.trans (Nat.le_mul_of_pos_left _ hPositive)
      rw [Nat.min_self, Nat.min_eq_left hLarge]
    · rename_i hWithin
      have hProduct : base * multiplier ≤ maximum :=
        Nat.mul_le_of_le_div _ _ _ (Nat.not_lt.mp hWithin)
      have hNoWrap : base * multiplier % 2 ^ 64 = base * multiplier :=
        Nat.mod_eq_of_lt (by omega)
      rw [hNoWrap, Nat.min_eq_right hProduct]
      rcases hLoop with hPower | ⟨hReached, hPower⟩
      · rw [← hPower, Nat.min_eq_right hProduct]
      · -- the base is one and the multiplier the maximum
        have hEqual : base * multiplier = maximum :=
          Nat.le_antisymm hProduct (hReached.trans (Nat.le_mul_of_pos_left _ hPositive))
        rw [hEqual, Nat.min_eq_left (hPower.trans (Nat.le_mul_of_pos_left _ hPositive))]
  rw [hGoal]
  push_cast
  rfl

theorem lockoutDuration_le (config : AuthAbuseConfig) (level : Nat) (h : 0 ≤ config.maximumLockout) :
    (lockoutDuration config level : Int) ≤ config.maximumLockout := by
  have hMaximum : lockoutDuration config level ≤ toUint64 config.maximumLockout := Nat.min_le_left _ _
  have hReduced : (toUint64 config.maximumLockout : Int) ≤ config.maximumLockout := by
    unfold toUint64
    omega
  omega

/-! ## record_failure_state -/

/-- The state in which a failure is counted. -/
def opened (config : AuthAbuseConfig) (state : FailureState) (now : Int) : FailureState :=
  if state.windowStarted = 0 ∨ now - state.windowStarted > seconds config.failureWindow then
    { state with failures := 0, lockoutLevel := 0, windowStarted := now }
  else state

inductive Recorded (config : AuthAbuseConfig) (state : FailureState) (limit : Nat) (now : Int) :
    AuthAbuseDecision → FailureState → Prop
  | locked (hLocked : state.lockedUntil > now) :
      Recorded config state limit now ⟨false, ceilSeconds (state.lockedUntil - now), false⟩
        { state with lastSeen := now }
  | counted {checked window : FailureState} (hChecked : Checked config state now .allow checked)
      (hWindow : window = opened config checked now)
      (hBelow : (window.failures + 1) % 2 ^ 32 < limit) :
      Recorded config state limit now .allow
        { window with failures := (window.failures + 1) % 2 ^ 32, lastSeen := now }
  | lockedOut {checked window : FailureState} {level : Nat}
      (hChecked : Checked config state now .allow checked)
      (hWindow : window = opened config checked now)
      (hReached : limit ≤ (window.failures + 1) % 2 ^ 32)
      (hLevel : level = (window.lockoutLevel + 1) % 2 ^ 32) :
      Recorded config state limit now ⟨false, lockoutDuration config level % 2 ^ 32, true⟩
        ⟨0, level, window.windowStarted, now + seconds (lockoutDuration config level), now⟩

theorem Checked.windowStarted {after : FailureState} {decision : AuthAbuseDecision}
    (h : Checked config state now decision after) :
    after.windowStarted = state.windowStarted ∨ after.windowStarted = now := by
  cases h with
  | locked hLocked => exact .inl rfl
  | forgotten hOver hQuiet => exact .inr rfl
  | restarted hOver hActive hStarted hPassed => exact .inr rfl
  | kept hOver hActive hWindow => exact .inl rfl

theorem int64_lockedUntil (hConfig : config.Accepted) (h : Measured config state now) (level : Nat) :
    int64 (now + nanoseconds (lockoutDuration config level)) =
      now + seconds (lockoutDuration config level) := by
  have hWindow := hConfig.window
  have hBase := hConfig.base
  have hMaximum := hConfig.maximum.1
  have hDuration := lockoutDuration_le config level (by omega)
  obtain ⟨hNow, hEnd⟩ := h.lockout
  have hDurations := h.durations
  have hWord : nanoseconds (lockoutDuration config level) = seconds (lockoutDuration config level) := by
    apply nanoseconds_of_fits (Int.natCast_nonneg _)
    unfold seconds at hDurations ⊢
    omega
  rw [hWord]
  unfold seconds at hEnd ⊢
  exact int64_of_fits (by omega) (by omega)

theorem recordFailureState_recorded (hConfig : config.Accepted) (h : Measured config state now)
    (limit : Nat) : Recorded config state limit now (recordFailureState config state limit now).1
      (recordFailureState config state limit now).2 := by
  have hChecked := checkState_checked hConfig h
  unfold recordFailureState
  generalize checkState config state now = result at hChecked ⊢
  obtain ⟨decision, checked⟩ := result
  simp only at hChecked ⊢
  by_cases hAllowed : decision.allowed = true
  · have hAllow : decision = .allow := by
      cases hChecked with
      | locked hLocked => cases hAllowed
      | forgotten hOver hQuiet => rfl
      | restarted hOver hActive hStarted hPassed => rfl
      | kept hOver hActive hWindow => rfl
    subst hAllow
    have hSince : int64 (now - checked.windowStarted) = now - checked.windowStarted := by
      rcases hChecked.windowStarted with hSame | hNow
      · rw [hSame]
        exact int64_of_fits h.window.1 h.window.2
      · rw [hNow]
        exact int64_of_fits (by omega) (by omega)
    have hOpened : (if checked.windowStarted = 0 ∨
        int64 (now - checked.windowStarted) > nanoseconds config.failureWindow then
        { checked with failures := 0, lockoutLevel := 0, windowStarted := now } else checked) =
        opened config checked now := by
      unfold opened
      rw [hSince, nanoseconds_failureWindow hConfig h.durations]
    simp only [AuthAbuseDecision.allow, Bool.not_true, Bool.false_eq_true, if_false]
    rw [hOpened]
    split
    · rename_i hBelow
      exact .counted hChecked rfl hBelow
    · rename_i hReached
      rw [int64_lockedUntil hConfig h]
      exact .lockedOut hChecked rfl (Nat.not_lt.mp hReached) rfl
  · cases hChecked with
    | locked hLocked => exact .locked hLocked
    | forgotten hOver hQuiet => exact absurd rfl hAllowed
    | restarted hOver hActive hStarted hPassed => exact absurd rfl hAllowed
    | kept hOver hActive hWindow => exact absurd rfl hAllowed

theorem Checked.window_le {after : FailureState} (hConfig : config.Accepted)
    (h : Checked config state now .allow after) :
    after.windowStarted = 0 ∨ now - after.windowStarted ≤ seconds config.failureWindow := by
  have hWindow := hConfig.window
  cases h with
  | forgotten hOver hQuiet =>
    right
    simp only [seconds]
    omega
  | restarted hOver hActive hStarted hPassed =>
    right
    simp only [seconds]
    omega
  | kept hOver hActive hWindow => exact hWindow

/-- After an allowed check only a key without a window is reopened. -/
theorem opened_of_checked {checked : FailureState} (hConfig : config.Accepted)
    (h : Checked config state now .allow checked) : opened config checked now =
      if checked.windowStarted = 0 then
        { checked with failures := 0, lockoutLevel := 0, windowStarted := now }
      else checked := by
  unfold opened
  by_cases hZero : checked.windowStarted = 0
  · rw [if_pos (.inl hZero), if_pos hZero]
  · rw [if_neg hZero, if_neg]
    rintro (hUnset | hLate)
    · exact hZero hUnset
    · rcases h.window_le hConfig with hUnset | hWithin
      · exact hZero hUnset
      · omega

end AuthAbuseProtector

end SecureCore

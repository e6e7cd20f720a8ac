import SecureCore.Security.Pruning
import SecureCore.Units.Rounding

/-! # The time a denied check names

A check is denied for the time left of the longer of two locks, in whole seconds. -/

namespace SecureCore

set_option autoImplicit false

namespace AuthAbuseProtector

open Rounding

variable {config : AuthAbuseConfig} {d : Dimension} {key : String} {protector : AuthAbuseProtector}
variable {calls : List ProtectorCall} {login clientIp : String} {now later left : Int}

/-! ## ceil_seconds -/

theorem millisecond_pos : (0 : Int) < 1000000 := by decide

theorem ratio_pos : (0 : Int) < 1000 := by decide

theorem ceilSeconds_of_nonpos (h : left ≤ 0) : ceilSeconds left = 0 := if_pos h

theorem ceilSeconds_eq (h : 0 < left) : (ceilSeconds left : Int) =
    min 4294967295 (max 1 (downUp 1000000 1000 left)) := by
  have hMilliseconds : left.tdiv 1000000 = left / 1000000 := Int.tdiv_eq_ediv_of_nonneg h.le
  have hSum : 0 ≤ left / 1000000 + 999 := by omega
  unfold ceilSeconds downUp
  rw [if_neg (by omega)]
  simp only [hMilliseconds, Int.tdiv_eq_ediv_of_nonneg hSum]
  split <;> omega

theorem ceilSeconds_mono {a b : Int} (h : a ≤ b) : ceilSeconds a ≤ ceilSeconds b := by
  by_cases hPositive : 0 < a
  · have hRounded := downUp_mono millisecond_pos ratio_pos h
    have hFirst := ceilSeconds_eq hPositive
    have hSecond := ceilSeconds_eq (hPositive.trans_le h)
    omega
  · rw [ceilSeconds_of_nonpos (by omega)]
    exact Nat.zero_le _

/-- The truncation to milliseconds loses what is left after the whole seconds. A time
below a second is safe: what is rounded to no second at all becomes one. -/
def Shortened (left : Int) : Prop := seconds 1 ≤ left ∧ Lost 1000000 1000 left

theorem seconds_eq (n : Int) : seconds n = 1000000 * 1000 * n := by
  unfold seconds
  ring

theorem le_seconds_ceilSeconds_iff (h : 0 < left) (hBelow : ceilSeconds left < 2 ^ 32 - 1) :
    left ≤ seconds (ceilSeconds left) ↔ ¬Shortened left := by
  have hCeil := ceilSeconds_eq h
  have hCovered := le_downUp_iff millisecond_pos ratio_pos left
  have hClose := downUp_lt millisecond_pos ratio_pos left
  have hCapped : (ceilSeconds left : Int) = max 1 (downUp 1000000 1000 left) := by omega
  rw [seconds_eq, hCapped, Shortened, seconds_eq, not_and]
  constructor
  · intro hWithin hSecond
    have hOne : 1 ≤ downUp 1000000 1000 left := downUp_mono millisecond_pos ratio_pos hSecond
    rw [← hCovered]
    omega
  · intro hKept
    by_cases hSecond : 1000000 * 1000 * 1 ≤ left
    · have hWithin := hCovered.mpr (hKept hSecond)
      omega
    · omega

theorem seconds_ceilSeconds_lt (h : 0 < left) : seconds (ceilSeconds left) < left + seconds 1 := by
  have hCeil := ceilSeconds_eq h
  have hClose := downUp_lt millisecond_pos ratio_pos left
  rw [seconds_eq, seconds_eq]
  omega

theorem ceilSeconds_of_shortened (h : Shortened left) (hBelow : ceilSeconds left < 2 ^ 32 - 1) :
    (ceilSeconds left : Int) = left / seconds 1 := by
  obtain ⟨hSecond, hLost⟩ := h
  have hPositive : 0 < left := by
    simp only [seconds] at hSecond
    omega
  have hCeil := ceilSeconds_eq hPositive
  rw [downUp_of_lost millisecond_pos ratio_pos hLost] at hCeil
  simp only [seconds] at hSecond ⊢
  omega

/-! ## check -/

/-- The time left of the lock of an entry. -/
def lockLeft (entry : Option FailureState) (now : Int) : Int :=
  match entry with
  | none => 0
  | some state => max 0 (state.lockedUntil - now)

/-- What the protector computes from its entries at the time stays within the clock. -/
def WithinReach (protector : AuthAbuseProtector) (now : Int) : Prop :=
  ∀ d, ∀ entry ∈ protector.states d, Measured protector.config entry.2 now

/-- The longer of the two times. -/
def remainingLock (protector : AuthAbuseProtector) (login clientIp : String) (now : Int) : Int :=
  max (lockLeft (protector.entry .account (normalizeLogin login)) now)
    (lockLeft (protector.entry .ip (normalizeIp clientIp)) now)

def lockDecision (left : Int) : AuthAbuseDecision :=
  if 0 < left then ⟨false, ceilSeconds left, false⟩ else .allow

theorem run_withinReach {ts : List Int} (hConfig : config.Accepted) (hClock : WithinClock config ts)
    (hTimes : times calls ⊆ ts) (hNow : now ∈ ts) : (run config calls).WithinReach now := by
  intro d entry hEntry
  rw [run_config]
  exact run_measured hConfig hClock hTimes hNow hEntry

theorem lockDecision_allowed (left : Int) : (lockDecision left).allowed = true ↔ left ≤ 0 := by
  unfold lockDecision
  split
  · simpa
  · rename_i hOver
    exact ⟨fun _ => Int.not_lt.mp hOver, fun _ => rfl⟩

theorem lockDecision_retryAfterSeconds (left : Int) :
    (lockDecision left).retryAfterSeconds = ceilSeconds left := by
  unfold lockDecision
  split
  · rfl
  · rename_i hOver
    exact (ceilSeconds_of_nonpos (Int.not_lt.mp hOver)).symm

theorem Checked.decision {state after : FailureState} {decision : AuthAbuseDecision}
    (h : Checked config state now decision after) :
    decision = lockDecision (lockLeft (some state) now) := by
  unfold lockDecision lockLeft
  cases h with
  | locked hLocked =>
    have hLeft : max 0 (state.lockedUntil - now) = state.lockedUntil - now := by omega
    simp only [hLeft]
    rw [if_pos (by omega)]
  | forgotten hOver hQuiet => exact (if_neg (by simp only; omega)).symm
  | restarted hOver hActive hStarted hPassed => exact (if_neg (by simp only; omega)).symm
  | kept hOver hActive hWindow => exact (if_neg (by simp only; omega)).symm

theorem checkKey_decision (hConfig : config.Accepted) {states : FailureStates}
    (hMeasured : ∀ entry ∈ states, Measured config entry.2 now) (key : String) :
    (checkKey config states key now).1 = lockDecision (lockLeft (states.find key) now) := by
  unfold checkKey
  cases hFind : states.find key with
  | none => rfl
  | some state =>
    exact (checkState_checked hConfig (hMeasured _ (FailureStates.mem_of_find hFind))).decision

/-- Of two locks the longer decides. -/
theorem lockDecision_max (a b : Int) :
    (if (lockDecision a).allowed && (lockDecision b).allowed then AuthAbuseDecision.allow
      else ⟨false, max (lockDecision a).retryAfterSeconds (lockDecision b).retryAfterSeconds, false⟩) =
      lockDecision (max a b) := by
  have hRetry : max (ceilSeconds a) (ceilSeconds b) = ceilSeconds (max a b) := by
    rcases le_total a b with hLess | hLess
    · rw [max_eq_right hLess, max_eq_right (ceilSeconds_mono hLess)]
    · rw [max_eq_left hLess, max_eq_left (ceilSeconds_mono hLess)]
  have hAllowed : ((lockDecision a).allowed && (lockDecision b).allowed) = true ↔ ¬0 < max a b := by
    rw [Bool.and_eq_true, lockDecision_allowed, lockDecision_allowed, Int.not_lt, max_le_iff]
  rw [lockDecision_retryAfterSeconds, lockDecision_retryAfterSeconds, hRetry]
  unfold lockDecision at hAllowed ⊢
  by_cases hLocked : 0 < max a b
  · rw [if_neg (fun h => hAllowed.mp h hLocked), if_pos hLocked]
  · rw [if_pos (hAllowed.mpr hLocked), if_neg hLocked]

theorem check_decision (hConfig : protector.config.Accepted) (hMeasured : protector.WithinReach now)
    (login clientIp : String) : (protector.check login clientIp now).1 =
      lockDecision (remainingLock (protector.pruneIfNeeded now) login clientIp now) := by
  have hPruned : ∀ d, ∀ entry ∈ (protector.pruneIfNeeded now).states d,
      Measured (protector.pruneIfNeeded now).config entry.2 now := by
    intro d entry hEntry
    rw [pruneIfNeeded_config]
    exact hMeasured d entry (mem_of_pruned hEntry)
  rw [← pruneIfNeeded_config protector now] at hConfig
  unfold remainingLock
  rw [← lockDecision_max]
  unfold entry
  rw [← checkKey_decision hConfig (hPruned .account), ← checkKey_decision hConfig (hPruned .ip)]
  rfl

/-! ## The next check -/

theorem Checked.lockLeft_eq {state after : FailureState} {decision : AuthAbuseDecision}
    (h : Checked config state now decision after) (hNonneg : 0 ≤ state.lockedUntil)
    (hLater : now ≤ later) :
    lockLeft (some after) later = max 0 (lockLeft (some state) now - (later - now)) := by
  unfold lockLeft
  cases h <;> simp only <;> omega

/-- The entry a check leaves behind. -/
theorem check_entry (protector : AuthAbuseProtector) (login clientIp : String) (now : Int)
    (d : Dimension) : (protector.check login clientIp now).2.entry d (d.key login clientIp) =
      ((protector.pruneIfNeeded now).entry d (d.key login clientIp)).map
        (fun state => (checkState protector.config state now).2) := by
  unfold entry
  rw [check_states, checkKey_find, if_pos rfl]

theorem check_prunes (protector : AuthAbuseProtector) (login clientIp : String) (now : Int) :
    (protector.check login clientIp now).2.prunes = true ↔ (protector.operationCount + 2) % 256 = 0 := by
  have hCount : (protector.check login clientIp now).2.operationCount =
      (protector.operationCount + 1) % 2 ^ 64 := by
    change (protector.pruneIfNeeded now).operationCount = _
    unfold pruneIfNeeded
    simp only
    split <;> rfl
  unfold prunes
  rw [hCount, beq_iff_eq]
  omega

/-- The next check of the two keys makes the pruning pass, and by then their entries have
been left alone for too long. -/
def Dropped (protector : AuthAbuseProtector) (now later : Int) : Prop :=
  (protector.operationCount + 2) % 256 = 0 ∧ now ≠ 0 ∧
    later - now > seconds (protector.config.failureWindow + protector.config.maximumLockout)

instance (protector : AuthAbuseProtector) (now later : Int) :
    Decidable (Dropped protector now later) := inferInstanceAs (Decidable (_ ∧ _ ∧ _))

theorem check_prunes_stale (hConfig : protector.config.Accepted) (login clientIp : String)
    {state : FailureState}
    (hDurations : seconds (protector.config.failureWindow + protector.config.maximumLockout) < 2 ^ 63)
    (hSpan : -2 ^ 63 ≤ later - now ∧ later - now < 2 ^ 63) (hSeen : state.lastSeen = now) :
    ((protector.check login clientIp now).2.prunes && stale protector.config later state) =
      decide (Dropped protector now later) := by
  rw [← hSeen] at hSpan
  rw [Bool.eq_iff_iff, Bool.and_eq_true, check_prunes, decide_eq_true_eq,
    stale_iff hConfig hDurations hSpan, hSeen]
  rfl

theorem pruned_entry_filter (hKeyed : protector.Keyed) (now : Int) (d : Dimension) (key : String) :
    (protector.pruneIfNeeded now).entry d key = (protector.entry d key).filter
      (fun state => !(protector.prunes && stale protector.config now state)) := by
  rw [pruneIfNeeded_entry hKeyed]
  cases protector.prunes with
  | false => cases protector.entry d key <;> rfl
  | true => rfl

theorem lockLeft_next (hConfig : protector.config.Accepted) (hKeyed : protector.Keyed)
    (hMeasured : protector.WithinReach now) (login clientIp : String) (d : Dimension)
    (hNonneg : ∀ entry ∈ protector.states d, 0 ≤ entry.2.lockedUntil) (hLater : now ≤ later)
    (hSpan : later - now < 2 ^ 63) :
    lockLeft (((protector.check login clientIp now).2.pruneIfNeeded later).entry d
        (d.key login clientIp)) later =
      if Dropped protector now later then 0
      else max 0 (lockLeft ((protector.pruneIfNeeded now).entry d (d.key login clientIp)) now -
        (later - now)) := by
  have hSame : (protector.check login clientIp now).2.config = protector.config :=
    after_config protector (.check login clientIp now)
  have hAfter : (protector.check login clientIp now).2.Keyed := hKeyed.after (.check login clientIp now)
  rw [pruned_entry_filter hAfter, check_entry, hSame]
  cases hEntry : (protector.pruneIfNeeded now).entry d (d.key login clientIp) with
  | none =>
    have hOver : max 0 (lockLeft none now - (later - now)) = 0 := by
      change max 0 (0 - (later - now)) = 0
      omega
    rw [hOver, ite_self]
    rfl
  | some state =>
    have hMem := mem_of_pruned (FailureStates.mem_of_find hEntry)
    have hState := hMeasured d _ hMem
    have hChecked := checkState_checked hConfig hState
    rw [← hChecked.lockLeft_eq (hNonneg _ hMem) hLater, Option.map_some, Option.filter_some,
      check_prunes_stale hConfig login clientIp hState.durations ⟨by omega, hSpan⟩ hChecked.lastSeen]
    by_cases hDropped : Dropped protector now later
    · rw [decide_eq_true hDropped, if_pos hDropped]
      rfl
    · rw [decide_eq_false hDropped, if_neg hDropped]
      rfl

/-- A second check finds the longer lock shorter by the time in between, or finds none. -/
theorem remainingLock_next (hConfig : config.Accepted)
    (hClock : WithinClock config (times calls ++ [now, later])) (login clientIp : String)
    (hLater : now ≤ later) :
    remainingLock (((run config calls).check login clientIp now).2.pruneIfNeeded later)
        login clientIp later =
      if Dropped (run config calls) now later then 0
      else max 0 (remainingLock ((run config calls).pruneIfNeeded now) login clientIp now -
        (later - now)) := by
  have hKeyed := run_keyed config calls
  have hAccepted : (run config calls).config.Accepted := (run_config config calls).symm ▸ hConfig
  have hReach := run_withinReach hConfig hClock (List.subset_append_left _ _)
    (List.mem_append_right _ List.mem_cons_self)
  have hNonneg : ∀ d, ∀ entry ∈ (run config calls).states d, 0 ≤ entry.2.lockedUntil :=
    fun d entry hEntry => run_nonneg hConfig (hClock.subset (List.subset_append_left _ _)) hEntry
  have hSpan := hClock.since (List.mem_append_right _ List.mem_cons_self)
    (List.mem_append_right _ (List.mem_cons_of_mem _ List.mem_cons_self)) hConfig
  have hAccount := lockLeft_next hAccepted hKeyed hReach login clientIp .account (hNonneg .account) hLater hSpan
  have hIp := lockLeft_next hAccepted hKeyed hReach login clientIp .ip (hNonneg .ip) hLater hSpan
  simp only [Dimension.key] at hAccount hIp
  unfold remainingLock
  rw [hAccount, hIp]
  split
  · rfl
  · omega

theorem next_allowed (hConfig : config.Accepted)
    (hClock : WithinClock config (times calls ++ [now, later])) (login clientIp : String)
    (hLater : now ≤ later) :
    (((run config calls).check login clientIp now).2.check login clientIp later).1.allowed = true ↔
      Dropped (run config calls) now later ∨
        remainingLock ((run config calls).pruneIfNeeded now) login clientIp now ≤ later - now := by
  have hRun : ((run config calls).check login clientIp now).2 =
      run config (calls ++ [.check login clientIp now]) :=
    (run_concat config calls (.check login clientIp now)).symm
  have hAccepted : ((run config calls).check login clientIp now).2.config.Accepted := by
    rw [hRun, run_config]
    exact hConfig
  have hReach : ((run config calls).check login clientIp now).2.WithinReach later := by
    rw [hRun]
    apply run_withinReach hConfig hClock
    · rw [times_concat]
      exact List.append_subset.mpr ⟨List.subset_append_left _ _, by simp [ProtectorCall.time]⟩
    · simp
  rw [check_decision hAccepted hReach, lockDecision_allowed,
    remainingLock_next hConfig hClock login clientIp hLater]
  split
  · rename_i hDropped
    exact ⟨fun _ => .inl hDropped, fun _ => le_refl 0⟩
  · rename_i hKept
    rw [or_iff_right hKept]
    omega

/-- In a run in order, and from time 0 on, no lock has longer to go than the longest
lockout takes. -/
theorem lockLeft_le (hConfig : config.Accepted) (hClock : WithinClock config (times calls))
    (hOrdered : Ordered (calls ++ [.check login clientIp now])) (hNow : 0 ≤ now) (d : Dimension)
    (key : String) : lockLeft (((run config calls).pruneIfNeeded now).entry d key) now ≤
      seconds config.maximumLockout := by
  have hBase := hConfig.base
  have hMaximum := hConfig.maximum
  cases hEntry : ((run config calls).pruneIfNeeded now).entry d key with
  | none =>
    simp only [lockLeft, seconds]
    omega
  | some state =>
    obtain ⟨hSound, earlier, hEarlier, hAt⟩ := run_entries hConfig hOrdered.prefix hClock
      (mem_of_pruned (FailureStates.mem_of_find hEntry))
    have hSeen : state.lastSeen ≤ now := hOrdered.le hEarlier (List.mem_singleton_self _) hAt rfl
    have hUntil := hSound.seen
    simp only [lockLeft, seconds] at hUntil ⊢
    omega

/-- Then no entry is dropped while its lock lasts. -/
theorem not_dropped_of_ordered (hConfig : config.Accepted) (hClock : WithinClock config (times calls))
    (hOrdered : Ordered (calls ++ [.check login clientIp now])) (hNow : 0 ≤ now)
    (hWait : later - now ≤ remainingLock ((run config calls).pruneIfNeeded now) login clientIp now) :
    ¬Dropped (run config calls) now later := by
  rintro ⟨-, -, hOld⟩
  have hWindow := hConfig.window
  have hAccount := lockLeft_le hConfig hClock hOrdered hNow .account (normalizeLogin login)
  have hIp := lockLeft_le hConfig hClock hOrdered hNow .ip (normalizeIp clientIp)
  rw [run_config] at hOld
  simp only [remainingLock, seconds] at hWait hOld hAccount hIp
  omega

/-! ## Retry-After -/

/-- A denied check that comes again after the time it was given is allowed, and that time is
less than a second too long. -/
def Honest (protector : AuthAbuseProtector) (login clientIp : String) (now : Int) : Prop :=
  let denied := protector.check login clientIp now
  let wait := seconds denied.1.retryAfterSeconds
  (denied.2.check login clientIp (now + wait)).1.allowed = true ∧
    wait - remainingLock (protector.pruneIfNeeded now) login clientIp now < seconds 1

/-- The time is honest unless it was shortened, and even then if the entries are dropped
before it has passed. With a clock that starts at 0 and a run in order they are not. -/
theorem retry_after (config : AuthAbuseConfig) (hConfig : config.Accepted) (calls : List ProtectorCall)
    (login clientIp : String) (now : Int) (hClock : WithinClock config (times calls ++
      [now, now + seconds ((run config calls).check login clientIp now).1.retryAfterSeconds]))
    (hDenied : ((run config calls).check login clientIp now).1.allowed = false)
    (hBelow : ((run config calls).check login clientIp now).1.retryAfterSeconds < 2 ^ 32 - 1) :
    let left := remainingLock ((run config calls).pruneIfNeeded now) login clientIp now
    (Honest (run config calls) login clientIp now ↔
        (Shortened left → Dropped (run config calls) now (now + seconds (left / seconds 1)))) ∧
      (Ordered (calls ++ [.check login clientIp now]) → 0 ≤ now →
        ¬Dropped (run config calls) now (now + seconds (left / seconds 1))) := by
  have hAccepted : (run config calls).config.Accepted := (run_config config calls).symm ▸ hConfig
  have hReach := run_withinReach hConfig hClock (List.subset_append_left _ _)
    (List.mem_append_right _ List.mem_cons_self)
  constructor
  · have hDecision := check_decision hAccepted hReach login clientIp
    have hNext := next_allowed hConfig hClock login clientIp
    unfold Honest
    generalize remainingLock ((run config calls).pruneIfNeeded now) login clientIp now = left
      at hDecision hNext ⊢
    have hRetry : ((run config calls).check login clientIp now).1.retryAfterSeconds =
        ceilSeconds left := by
      rw [hDecision, lockDecision_retryAfterSeconds]
    have hPositive : 0 < left := by
      by_contra hOver
      rw [hDecision, (lockDecision_allowed left).mpr (Int.not_lt.mp hOver)] at hDenied
      cases hDenied
    have hClose := seconds_ceilSeconds_lt hPositive
    have hLater : now ≤ now + seconds (ceilSeconds left) := by
      unfold seconds
      omega
    simp only [hRetry] at hBelow hNext ⊢
    rw [hNext hLater, add_sub_cancel_left]
    constructor
    · rintro ⟨hDropped | hCovered, -⟩ hShortened
      · rw [ceilSeconds_of_shortened hShortened hBelow] at hDropped
        exact hDropped
      · exact absurd hShortened ((le_seconds_ceilSeconds_iff hPositive hBelow).mp hCovered)
    · intro hUnless
      constructor
      · by_cases hShortened : Shortened left
        · left
          rw [ceilSeconds_of_shortened hShortened hBelow]
          exact hUnless hShortened
        · right
          exact (le_seconds_ceilSeconds_iff hPositive hBelow).mpr hShortened
      · omega
  · intro hOrdered hNow
    apply not_dropped_of_ordered hConfig (hClock.subset (List.subset_append_left _ _)) hOrdered hNow
    simp only [seconds]
    omega

theorem retry_after_sample :
    Honest (run Sample.limits [Sample.failure 10, Sample.failure 10]) "alice" "192.0.2.2"
      (Sample.seconds 15) :=
  (retry_after Sample.limits Sample.limits_accepted [Sample.failure 10, Sample.failure 10] "alice" "192.0.2.2"
    (Sample.seconds 15) (withinClock_of_nonneg (by decide) (by decide +kernel) (by decide +kernel))
    (by decide +kernel) (by decide +kernel)).1.mpr fun hShortened =>
      absurd hShortened.1 (by decide +kernel)

/-- With 1.0005 seconds to go the check names one second. -/
theorem retry_after_shortened : ¬∀ (config : AuthAbuseConfig), config.Accepted →
    ∀ calls login clientIp now, Ordered (calls ++ [.check login clientIp now]) →
      ((run config calls).check login clientIp now).1.allowed = false →
      ((run config calls).check login clientIp now).1.retryAfterSeconds < 2 ^ 32 - 1 →
      Honest (run config calls) login clientIp now := by
  intro h
  have hHonest := h ⟨5, 20, 300, 300, 3600, 65536, 65536⟩ (by constructor <;> decide)
    (List.replicate 5 (.recordFailure "alice" "192.0.2.1" [] [] (seconds 1000))) "alice" "192.0.2.2"
    (seconds 1300 - 1000500000) (by unfold Ordered; decide +kernel) (by decide +kernel)
    (by decide +kernel)
  exact absurd hHonest.1 (by decide +kernel)

end AuthAbuseProtector

end SecureCore

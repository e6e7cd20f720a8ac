import SecureCore.Security.SoundEntries

/-! # Pruning

What the pruning pass takes out of the maps, whether entries were evicted from them or not. -/

namespace SecureCore

set_option autoImplicit false

/-- A failure and 254 checks of another login: the next call makes the pruning pass. -/
def Sample.manyCalls (tenths : Int) : List ProtectorCall :=
  failure tenths :: List.replicate 254 (.check "bob" "192.0.2.2" (seconds tenths))

namespace AuthAbuseProtector

variable {config : AuthAbuseConfig} {d : Dimension} {protector : AuthAbuseProtector}
variable {entry : String × FailureState} {now : Int}

theorem stale_of_removed (hEntry : entry ∈ protector.states d)
    (hRemoved : entry ∉ (protector.pruneIfNeeded now).states d) :
    stale protector.config now entry.2 = true := by
  rw [pruneIfNeeded_states] at hRemoved
  split at hRemoved
  · by_contra hFresh
    apply hRemoved
    rw [List.mem_filter, Bool.not_eq_true']
    exact ⟨hEntry, Bool.eq_false_of_not_eq_true hFresh⟩
  · exact absurd hEntry hRemoved

/-- A stale entry is quiet: its lock ended a window ago, or it has none and was left
alone for a window. -/
theorem Sound.quiet {state : FailureState} {limit : Nat} (hConfig : config.Accepted)
    (hSound : Sound config limit state) (hMeasured : Measured config state now)
    (hStale : stale config now state = true) : Quiet config state now := by
  have hBase := hConfig.base
  have hMaximum := hConfig.maximum
  obtain ⟨hSeen, hOld⟩ := (stale_iff hConfig hMeasured.durations hMeasured.seen).mp hStale
  by_cases hSet : state.lockedUntil = 0
  · right
    simp only [seconds] at hOld ⊢
    exact ⟨hSet, hSeen, by omega⟩
  · left
    have hBound := hSound.seen hSet
    simp only [seconds] at hOld hBound ⊢
    exact ⟨hSet, by omega⟩

/-- What a pruning pass takes out, a check at the same time would have reset, unless the
clock shows a time before 0, where an entry without a lock counts as locked. -/
theorem pruned_entries_expired (config : AuthAbuseConfig) (hConfig : config.Accepted)
    (calls : List ProtectorCall) (hOrdered : Ordered calls) (now : Int)
    (hClock : WithinClock config (times calls ++ [now])) (d : Dimension)
    (entry : String × FailureState) (hEntry : entry ∈ (run config calls).states d)
    (hRemoved : entry ∉ ((run config calls).pruneIfNeeded now).states d) :
    checkState config entry.2 now = (.allow, ⟨0, 0, now, 0, now⟩) ↔ 0 ≤ now := by
  have hTimes : times calls ⊆ times calls ++ [now] := List.subset_append_left _ _
  have hSound := (run_entries hConfig hOrdered (hClock.subset hTimes) hEntry).1
  have hMeasured : Measured config entry.2 now :=
    run_measured hConfig hClock hTimes (List.mem_append_right _ (List.mem_singleton_self now)) hEntry
  have hStale := stale_of_removed hEntry hRemoved
  rw [run_config] at hStale
  have hQuiet := hSound.quiet hConfig hMeasured hStale
  have hWindow := hConfig.window
  have hNonneg := hSound.nonneg
  have hChecked := checkState_checked hConfig hMeasured
  generalize checkState config entry.2 now = result at hChecked ⊢
  obtain ⟨decision, after⟩ := result
  cases hChecked with
  | locked hLocked =>
    have hEarly : now < 0 := by
      rcases hQuiet with ⟨-, hOver⟩ | ⟨hUnset, -⟩
      · simp only [seconds] at hOver
        omega
      · omega
    constructor
    · intro hAllowed
      cases hAllowed
    · intro hNow
      omega
  | forgotten hOver _ => exact ⟨fun _ => hNonneg.trans hOver, fun _ => rfl⟩
  | restarted _ hActive _ _ => exact absurd hQuiet hActive
  | kept _ hActive _ => exact absurd hQuiet hActive

theorem pruned_entries_expired_sample :
    checkState Sample.limits ⟨1, 0, Sample.seconds 10, 0, Sample.seconds 10⟩ (Sample.seconds 200) =
      (.allow, ⟨0, 0, Sample.seconds 200, 0, Sample.seconds 200⟩) ↔ 0 ≤ Sample.seconds 200 :=
  pruned_entries_expired Sample.limits Sample.limits_accepted (Sample.manyCalls 10)
    (by unfold Ordered; decide +kernel) (Sample.seconds 200)
    (withinClock_of_nonneg (by decide) (by decide +kernel) (by decide +kernel)) .account
    ("alice", ⟨1, 0, Sample.seconds 10, 0, Sample.seconds 10⟩) (by decide +kernel) (by decide +kernel)

theorem pruned_entries_locked : ¬∀ (config : AuthAbuseConfig), config.Accepted →
    ∀ calls, Ordered calls → ∀ call now, Ordered (calls ++ [call]) → call.time = some now →
      ∀ d, ∀ entry ∈ (run config calls).states d,
        entry ∉ ((run config calls).pruneIfNeeded now).states d →
        (checkState config entry.2 now).1.allowed = true ∧
          (checkState config entry.2 now).2.failures = 0 ∧
          (checkState config entry.2 now).2.lockoutLevel = 0 ∧
          (checkState config entry.2 now).2.lockedUntil = 0 := by
  intro h
  have hAllowed := (h Sample.limits Sample.limits_accepted (Sample.manyCalls (-1000))
    (by unfold Ordered; decide +kernel) (.check "bob" "192.0.2.2" (Sample.seconds (-10)))
    (Sample.seconds (-10)) (by unfold Ordered; decide +kernel) rfl .account
    ("alice", ⟨0, 0, 0, 0, Sample.seconds (-1000)⟩) (by decide +kernel)
    (by decide +kernel)).1
  exact absurd hAllowed (by decide)

end AuthAbuseProtector

end SecureCore

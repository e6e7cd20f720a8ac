import SecureCore.Security.Lockouts
import Mathlib.Data.List.Chain

/-! # Exponential backoff

The level of a key and the durations of its lockouts. -/

namespace SecureCore

set_option autoImplicit false

namespace AuthAbuseProtector

variable {config : AuthAbuseConfig} {d : Dimension} {key : String}
variable {calls earlier later : List ProtectorCall} {call : ProtectorCall}

/-- A lock that ended more than a window ago is only forgotten if the key was left alone
for as long. Time 0 stands for "never" in the entries, so no call may come at it. -/
def ForgetsWhenQuiet (config : AuthAbuseConfig) (entry : Option FailureState) (now : Int) : Prop :=
  now ≠ 0 ∧ ∀ state, entry = some state → state.lockedUntil ≠ 0 →
    now - state.lockedUntil > seconds config.failureWindow →
    now - state.lastSeen > seconds config.failureWindow

/-- The durations of the lockouts of a key, in their order. -/
def lockouts (config : AuthAbuseConfig) (d : Dimension) (key : String) (calls : List ProtectorCall) :
    List Int :=
  (calls.foldl (fun (protector, found) call =>
    (call.after protector, found ++ (call.lockout protector d key).toList)) (start config, [])).2

theorem lockouts_concat (config : AuthAbuseConfig) (d : Dimension) (key : String)
    (calls : List ProtectorCall) (call : ProtectorCall) : lockouts config d key (calls ++ [call]) =
      lockouts config d key calls ++ (call.lockout (run config calls) d key).toList := by
  have hState : ∀ calls : List ProtectorCall, (calls.foldl (fun (protector, found) call =>
      (call.after protector, found ++ (call.lockout protector d key).toList))
      (start config, ([] : List Int))).1 = run config calls := by
    intro calls
    induction calls using List.reverseRecOn with
    | nil => rfl
    | append_singleton calls call ih => rw [List.foldl_concat, run_concat, ← ih]
  unfold lockouts
  rw [List.foldl_concat, ← hState]

/-- The key has a level, and was left alone for a window after its lock and its last call. -/
structure Abandoned (config : AuthAbuseConfig) (state : FailureState) (now : Int) : Prop where
  level : 0 < state.lockoutLevel
  lock : now - state.lockedUntil > seconds config.failureWindow
  seen : now - state.lastSeen > seconds config.failureWindow

/-- A visit keeps the level, unless the key has been left alone for a window. -/
theorem Checked.level {state after : FailureState} {now : Int} {decision : AuthAbuseDecision}
    (h : Checked config state now decision after)
    (hForgets : ForgetsWhenQuiet config (some state) now)
    (hUnlocked : state.lockedUntil = 0 → state.lockoutLevel = 0)
    (hStarted : state.windowStarted = 0 → state.lockoutLevel = 0) :
    (after.windowStarted = 0 → after.lockoutLevel = 0) ∧
      (after.lockoutLevel = state.lockoutLevel ∨ Abandoned config state now) := by
  cases h with
  | locked hLocked => exact ⟨hStarted, .inl rfl⟩
  | forgotten hOver hQuiet =>
    refine ⟨fun _ => rfl, ?_⟩
    by_cases hZero : state.lockoutLevel = 0
    · exact .inl hZero.symm
    · rcases hQuiet with ⟨hSet, hLong⟩ | ⟨hUnset, -, -⟩
      · exact .inr ⟨Nat.pos_of_ne_zero hZero, hLong, hForgets.2 state rfl hSet hLong⟩
      · exact absurd (hUnlocked hUnset) hZero
  | restarted hOver hActive hOpen hPassed =>
    exact ⟨fun hZero => absurd hZero hForgets.1, .inl rfl⟩
  | kept hOver hActive hWindow => exact ⟨hStarted, .inl rfl⟩

theorem Recorded.level {state after : FailureState} {limit : Nat} {now : Int}
    {decision : AuthAbuseDecision} (hConfig : config.Accepted)
    (h : Recorded config state limit now decision after)
    (hForgets : ForgetsWhenQuiet config (some state) now)
    (hUnlocked : state.lockedUntil = 0 → state.lockoutLevel = 0)
    (hStarted : state.windowStarted = 0 → state.lockoutLevel = 0)
    (hLevel : state.lockoutLevel < 2 ^ 32 - 1) :
    (after.windowStarted = 0 → after.lockoutLevel = 0) ∧
      (after.lockoutLevel = state.lockoutLevel + (if decision.newlyLocked then 1 else 0) ∨
        Abandoned config state now) := by
  have hOpened : ∀ checked, Checked config state now .allow checked →
      (opened config checked now).windowStarted ≠ 0 ∧
      ((opened config checked now).lockoutLevel = state.lockoutLevel ∨
        Abandoned config state now) := by
    intro checked hChecked
    obtain ⟨hZero, hKept⟩ := hChecked.level hForgets hUnlocked hStarted
    rw [opened_of_checked hConfig hChecked]
    by_cases hUnset : checked.windowStarted = 0
    · rw [if_pos hUnset]
      rw [hZero hUnset] at hKept
      exact ⟨hForgets.1, hKept⟩
    · rw [if_neg hUnset]
      exact ⟨hUnset, hKept⟩
  cases h with
  | locked hLocked => exact ⟨hStarted, .inl rfl⟩
  | counted hChecked hWindow hBelow =>
    obtain ⟨hOpen, hKept⟩ := hOpened _ hChecked
    rw [← hWindow] at hOpen hKept
    exact ⟨fun hZero => absurd hZero hOpen, hKept⟩
  | lockedOut hChecked hWindow hReached hRaised =>
    obtain ⟨hOpen, hKept⟩ := hOpened _ hChecked
    rw [← hWindow] at hOpen hKept
    refine ⟨fun hZero => absurd hZero hOpen, ?_⟩
    rcases hKept with hSame | hLong
    · left
      simp only [if_true]
      omega
    · exact .inr hLong

/-- For longer than a window before the call, and from the end of its lock on, no call
has touched the key. -/
def LeftAlone (config : AuthAbuseConfig) (d : Dimension) (key : String)
    (calls : List ProtectorCall) (call : ProtectorCall) : Prop :=
  ∃ now quietFrom, call.time = some now ∧ now - quietFrom > seconds config.failureWindow ∧
    (∀ t ∈ touchTimes d key calls, t ≤ quietFrom) ∧
    ∀ state, (run config calls).entry d key = some state → state.lockedUntil ≤ quietFrom

/-- The condition on every call that touches the key. -/
def Remembers (config : AuthAbuseConfig) (d : Dimension) (key : String)
    (calls : List ProtectorCall) : Prop :=
  ∀ earlier call later now, calls = earlier ++ call :: later → call.touchTime d key = some now →
    ForgetsWhenQuiet config ((run config earlier).entry d key) now ∧
      levelOf (run config earlier) d key < 2 ^ 32 - 1

theorem Remembers.prefix (h : Remembers config d key (calls ++ later)) :
    Remembers config d key calls := by
  intro earlier call rest now hSplit
  apply h earlier call (rest ++ later) now
  rw [hSplit, List.append_assoc, List.cons_append]

theorem levelOf_eq {protector : AuthAbuseProtector} {entry : Option FailureState}
    (h : protector.entry d key = entry) :
    levelOf protector d key = (entry.map FailureState.lockoutLevel).getD 0 := by
  unfold levelOf
  rw [h]

/-- A key without an entry starts from nothing. -/
theorem Visited.level_of_none {lock : Option Int} {after : Option FailureState}
    (hConfig : config.Accepted) (h : Visited config d key call lock none after)
    (hTimes : ∀ now, call.touchTime d key = some now → now ≠ 0) :
    (∀ state, after = some state → state.windowStarted = 0 → state.lockoutLevel = 0) ∧
      (after.map FailureState.lockoutLevel).getD 0 = lock.toList.length := by
  cases h with
  | idle hTouch hFailure => exact ⟨fun _ hState => (by cases hState), rfl⟩
  | absent hTime hTouch hFailure => exact ⟨fun _ hState => (by cases hState), rfl⟩
  | succeeded hSucceeds hTouch hFailure => exact ⟨fun _ hState => (by cases hState), rfl⟩
  | @failed now _ state decision hTime hTouch hFailure hRecorded =>
    have hForgets : ForgetsWhenQuiet config (some FailureState.initial) now :=
      ⟨hTimes now hTouch, fun s hs hSet => absurd (by rw [← Option.some.inj hs]; rfl) hSet⟩
    obtain ⟨hOpen, hKept⟩ := hRecorded.level hConfig hForgets (fun _ => rfl) (fun _ => rfl)
      (by decide)
    refine ⟨fun s hs => Option.some.inj hs ▸ hOpen, ?_⟩
    rcases hKept with hSame | hLong
    · change state.lockoutLevel = _
      rw [hSame]
      cases decision.newlyLocked <;> rfl
    · exact absurd hLong.level (Nat.lt_irrefl 0)

/-- An entry that the pruning pass erases has been left alone. -/
theorem leftAlone_of_stale (hConfig : config.Accepted) {state : FailureState} {now : Int}
    (hEntry : (run config calls).entry d key = some state)
    (hSound : Sound config (d.failureLimit config) state)
    (hSeen : IsGreatest {t | t ∈ touchTimes d key calls} state.lastSeen) (hLevel : 0 < state.lockoutLevel)
    (hTime : call.time = some now)
    (hOld : now - state.lastSeen > seconds (config.failureWindow + config.maximumLockout)) :
    LeftAlone config d key calls call := by
  have hBase := hConfig.base
  have hMaximum := hConfig.maximum
  have hLocked : state.lockedUntil ≠ 0 := fun hUnset => hLevel.ne' (hSound.unlocked hUnset)
  have hUntil := hSound.seen hLocked
  simp only [seconds] at hOld hUntil
  refine ⟨now, state.lastSeen + seconds config.maximumLockout, hTime, ?_, ?_, ?_⟩
  · simp only [seconds]
    omega
  · intro t ht
    have hLe := hSeen.2 ht
    simp only [seconds]
    omega
  · intro state' hEntry'
    rw [hEntry] at hEntry'
    cases hEntry'
    exact hUntil

/-- What a call makes of the level. -/
theorem level_step (hConfig : config.Accepted) (hOrdered : Ordered (calls ++ [call]))
    (hSteady : Steady config (calls ++ [call])) (hRemembers : Remembers config d key (calls ++ [call]))
    (hStarted : ∀ state, (run config calls).entry d key = some state →
      state.windowStarted = 0 → state.lockoutLevel = 0) :
    (∀ state, (run config (calls ++ [call])).entry d key = some state →
      state.windowStarted = 0 → state.lockoutLevel = 0) ∧
    (levelOf (run config (calls ++ [call])) d key = levelOf (run config calls) d key +
        (call.lockout (run config calls) d key).toList.length ∨
      0 < levelOf (run config calls) d key ∧
        (call.Succeeds d key ∨ LeftAlone config d key calls call)) := by
  have hSound : ∀ state, (run config calls).entry d key = some state → _ := fun state =>
    run_sound hConfig hOrdered.prefix hSteady.prefix
  have hAbandoned : ∀ state now, (run config calls).entry d key = some state →
      call.time = some now → Abandoned config state now → LeftAlone config d key calls call := by
    intro state now hEntry hTime hLong
    have hLock := hLong.lock
    have hSeen := hLong.seen
    refine ⟨now, max state.lastSeen state.lockedUntil, hTime, by omega, ?_, ?_⟩
    · intro t ht
      exact ((hSound state hEntry).2.2 ht).trans (le_max_left _ _)
    · intro state' hEntry'
      rw [hEntry] at hEntry'
      cases hEntry'
      exact le_max_right _ _
  obtain ⟨pruned, hPruned, hVisited⟩ := run_visited hConfig hSteady d key
  rcases hPruned with hSame | ⟨hGone, now, state, hTime, hEntry, -, hOld⟩
  · -- the pruning pass left the entry as it was
    subst hSame
    generalize hBefore : (run config calls).entry d key = before at hVisited hStarted hSound hAbandoned
    generalize hAfter : (run config (calls ++ [call])).entry d key = after at hVisited ⊢
    generalize call.lockout (run config calls) d key = lock at hVisited ⊢
    rw [levelOf_eq hBefore, levelOf_eq hAfter]
    have hCondition : ∀ now, call.touchTime d key = some now → _ := fun now =>
      hRemembers calls call [] now rfl
    rw [hBefore, levelOf_eq hBefore] at hCondition
    cases hVisited with
    | idle hTouch hFailure => exact ⟨hStarted, .inl rfl⟩
    | absent hTime hTouch hFailure => exact ⟨hStarted, .inl rfl⟩
    | @checked now state after decision hTime hTouch hFailure hChecked =>
      obtain ⟨hOpen, hKept⟩ := hChecked.level (hCondition now hTouch).1 (hSound state rfl).1.unlocked
        (hStarted state rfl)
      refine ⟨fun s hs => Option.some.inj hs ▸ hOpen, ?_⟩
      rcases hKept with hSame | hLong
      · exact .inl hSame
      · exact .inr ⟨hLong.level, .inr (hAbandoned state now rfl hTime hLong)⟩
    | @failed now _ after decision hTime hTouch hFailure hRecorded =>
      have hLock : (if decision.newlyLocked then some (after.lockedUntil - now) else none).toList.length =
          if decision.newlyLocked then 1 else 0 := by
        cases decision.newlyLocked <;> rfl
      rw [hLock]
      obtain ⟨hForgets, hLevel⟩ := hCondition now hTouch
      cases before with
      | none =>
        have hNone := Visited.level_of_none hConfig (.failed hTime hTouch hFailure hRecorded)
          (fun now' hTouch' => (hCondition now' hTouch').1.1)
        rw [hLock] at hNone
        exact ⟨hNone.1, .inl (hNone.2.trans (Nat.zero_add _).symm)⟩
      | some state =>
        obtain ⟨hOpen, hKept⟩ := hRecorded.level hConfig hForgets (hSound state rfl).1.unlocked
          (hStarted state rfl) hLevel
        refine ⟨fun s hs => Option.some.inj hs ▸ hOpen, ?_⟩
        rcases hKept with hSame | hLong
        · exact .inl hSame
        · exact .inr ⟨hLong.level, .inr (hAbandoned state now rfl hTime hLong)⟩
    | succeeded hSucceeds hTouch hFailure =>
      refine ⟨fun s hs => (by cases hs), ?_⟩
      rcases Nat.eq_zero_or_pos ((before.map FailureState.lockoutLevel).getD 0) with hZero | hPositive
      · left
        rw [hZero]
        rfl
      · exact .inr ⟨hPositive, .inl hSucceeds⟩
  · -- the pruning pass erased the entry
    subst hGone
    obtain ⟨hOpen, hLevel⟩ := hVisited.level_of_none hConfig
      (fun now' hTouch => (hRemembers calls call [] now' rfl hTouch).1.1)
    refine ⟨hOpen, ?_⟩
    rw [levelOf_eq hEntry, levelOf_eq rfl, hLevel]
    rcases Nat.eq_zero_or_pos state.lockoutLevel with hZero | hPositive
    · left
      change _ = state.lockoutLevel + _
      rw [hZero, Nat.zero_add]
    · obtain ⟨hStateSound, hSeen⟩ := hSound state hEntry
      exact .inr ⟨hPositive, .inr (leftAlone_of_stale hConfig hEntry hStateSound hSeen hPositive hTime hOld)⟩

theorem run_started (hConfig : config.Accepted) (hOrdered : Ordered calls)
    (hSteady : Steady config calls) (hRemembers : Remembers config d key calls) :
    ∀ state, (run config calls).entry d key = some state →
      state.windowStarted = 0 → state.lockoutLevel = 0 := by
  induction calls using List.reverseRecOn with
  | nil =>
    intro state hEntry
    cases d <;> cases hEntry
  | append_singleton calls call ih =>
    exact (level_step hConfig hOrdered hSteady hRemembers
      (ih hOrdered.prefix hSteady.prefix hRemembers.prefix)).1

/-- If no two calls for the key are more than a window apart, none comes after a longer
time. -/
theorem no_touch_of_quiet {quietFrom : Int} (hTouched : touchTimes d key calls ≠ [])
    (hChain : (touchTimes d key (calls ++ [call])).IsChain
      (fun s t => t - s ≤ seconds config.failureWindow))
    (hQuiet : ∀ t ∈ touchTimes d key calls, t ≤ quietFrom)
    (hLong : ∀ now, call.time = some now → now - quietFrom > seconds config.failureWindow) :
    call.touchTime d key = none := by
  cases hTouch : call.touchTime d key with
  | none => rfl
  | some now =>
    rw [touchTimes_concat, hTouch] at hChain
    have hGap := (List.isChain_append.mp hChain).2.2 _ (List.getLast?_eq_some_getLast hTouched) now rfl
    have hLast := hQuiet _ (List.getLast_mem hTouched)
    have hNow := hLong now (time_of_touchTime hTouch)
    omega

theorem lockout_of_no_touch {protector : AuthAbuseProtector} (h : call.touchTime d key = none) :
    call.lockout protector d key = none := by
  cases call with
  | check login clientIp now => rfl
  | recordSuccess login clientIp => rfl
  | recordFailure login clientIp accountOrder ipOrder now =>
    have hKey : ¬d.key login clientIp = key := by
      intro hKey
      have hTouch : (ProtectorCall.recordFailure login clientIp accountOrder ipOrder now).touchTime d key =
          some now := if_pos hKey
      rw [hTouch] at h
      cases h
    exact if_neg hKey

/-- The key has not been touched for a window, up to some call of the run. -/
def Dormant (config : AuthAbuseConfig) (d : Dimension) (key : String) (calls : List ProtectorCall) :
    Prop :=
  touchTimes d key calls ≠ [] ∧ ∃ call ∈ calls, ∃ now quietFrom, call.time = some now ∧
    now - quietFrom > seconds config.failureWindow ∧ ∀ t ∈ touchTimes d key calls, t ≤ quietFrom

/-- If the level counts the lockouts, the next one is as long as the backoff says. -/
theorem durations_step (hConfig : config.Accepted) (hOrdered : Ordered (calls ++ [call]))
    (hSteady : Steady config (calls ++ [call]))
    (hBefore : ∀ i duration, (lockouts config d key calls)[i]? = some duration →
      duration = seconds (min config.maximumLockout (config.baseLockout * 2 ^ i)))
    (hRaised : levelOf (run config (calls ++ [call])) d key = (lockouts config d key calls).length +
      (call.lockout (run config calls) d key).toList.length) :
    ∀ i duration, (lockouts config d key (calls ++ [call]))[i]? = some duration →
      duration = seconds (min config.maximumLockout (config.baseLockout * 2 ^ i)) := by
  intro i duration h
  rw [lockouts_concat] at h
  rcases Nat.lt_or_ge i (lockouts config d key calls).length with hOld | hNew
  · rw [List.getElem?_append_left hOld] at h
    exact hBefore i duration h
  · rw [List.getElem?_append_right hNew] at h
    -- the lockout that this call starts
    cases hLockout : call.lockout (run config calls) d key with
    | none =>
      rw [hLockout] at h
      cases h
    | some started =>
      rw [hLockout] at h hRaised
      obtain ⟨now, state, -, -, -, hEntry, -, hDuration⟩ := lockout_entry hConfig hOrdered hSteady hLockout
      have hFirst : i - (lockouts config d key calls).length = 0 ∧ started = duration := by
        rw [Option.toList_some, List.getElem?_singleton] at h
        split at h
        · rename_i hZero
          exact ⟨hZero, Option.some.inj h⟩
        · cases h
      obtain ⟨hIndex, rfl⟩ := hFirst
      have hStateLevel : state.lockoutLevel = i + 1 := by
        rw [levelOf_eq hEntry] at hRaised
        simp only [Option.map_some, Option.getD_some, Option.toList_some, List.length_singleton] at hRaised
        omega
      rw [hDuration, hStateLevel, lockoutDuration_eq hConfig.base hConfig.maximum]

/-- The number of lockouts and the level agree, or the key is left alone for good. -/
theorem lockouts_spec (hConfig : config.Accepted) (hOrdered : Ordered calls)
    (hSteady : Steady config calls) (hRemembers : Remembers config d key calls)
    (hChain : (touchTimes d key calls).IsChain (fun s t => t - s ≤ seconds config.failureWindow))
    (hNoSuccess : ∀ call ∈ calls, ¬call.Succeeds d key) :
    (∀ i duration, (lockouts config d key calls)[i]? = some duration →
      duration = seconds (min config.maximumLockout (config.baseLockout * 2 ^ i))) ∧
    (levelOf (run config calls) d key = (lockouts config d key calls).length ∨
      Dormant config d key calls) := by
  induction calls using List.reverseRecOn with
  | nil =>
    constructor
    · intro i duration h
      cases h
    · left
      cases d <;> rfl
  | append_singleton calls call ih =>
    have hChainBefore := hChain
    rw [touchTimes_concat] at hChainBefore
    obtain ⟨hBefore, hAgree⟩ := ih hOrdered.prefix hSteady.prefix hRemembers.prefix
      hChainBefore.left_of_append (fun c hc => hNoSuccess c (List.mem_append_left _ hc))
    have hUntouched : touchTimes d key calls ≠ [] → ∀ now quietFrom,
        (∀ now', call.time = some now' → now ≤ now') →
        now - quietFrom > seconds config.failureWindow →
        (∀ t ∈ touchTimes d key calls, t ≤ quietFrom) →
        (∃ c ∈ calls ++ [call], c.time = some now) →
        (∀ i duration, (lockouts config d key (calls ++ [call]))[i]? = some duration →
          duration = seconds (min config.maximumLockout (config.baseLockout * 2 ^ i))) ∧
        Dormant config d key (calls ++ [call]) := by
      intro hTouched now quietFrom hLater hLong hQuiet ⟨c, hc, hTime⟩
      have hNoTouch := no_touch_of_quiet hTouched hChain hQuiet
        (fun now' hNow' => by have := hLater now' hNow'; omega)
      constructor
      · rw [lockouts_concat, lockout_of_no_touch hNoTouch, Option.toList_none, List.append_nil]
        exact hBefore
      · unfold Dormant
        rw [touchTimes_concat, hNoTouch, Option.toList_none, List.append_nil]
        exact ⟨hTouched, c, hc, now, quietFrom, hTime, hLong, hQuiet⟩
    rcases hAgree with hLevel | ⟨hTouched, c, hc, now, quietFrom, hTime, hLong, hQuiet⟩
    · have hStep := (level_step hConfig hOrdered hSteady hRemembers
        (run_started hConfig hOrdered.prefix hSteady.prefix hRemembers.prefix)).2
      rcases hStep with hRaised | ⟨hPositive, hSuccess | hAlone⟩
      · rw [hLevel] at hRaised
        refine ⟨durations_step hConfig hOrdered hSteady hBefore hRaised, .inl ?_⟩
        rw [hRaised, lockouts_concat, List.length_append]
      · exact absurd hSuccess (hNoSuccess call (by simp))
      · obtain ⟨now, quietFrom, hTime, hLong, hQuiet, -⟩ := hAlone
        have hTouched : touchTimes d key calls ≠ [] := by
          cases hEntry : (run config calls).entry d key with
          | none =>
            rw [levelOf_eq hEntry] at hPositive
            exact absurd hPositive (Nat.lt_irrefl 0)
          | some state =>
            have hMem := (run_sound hConfig hOrdered.prefix hSteady.prefix hEntry).2.1
            exact List.ne_nil_of_mem hMem
        obtain ⟨hDurations, hDormant⟩ := hUntouched hTouched now quietFrom
          (fun now' hNow' => by rw [hTime] at hNow'; exact (Option.some.inj hNow').le)
          hLong hQuiet ⟨call, by simp, hTime⟩
        exact ⟨hDurations, .inr hDormant⟩
    · obtain ⟨hDurations, hDormant⟩ := hUntouched hTouched now quietFrom
        (fun now' hNow' => hOrdered.le hc (List.mem_singleton_self call) hTime hNow')
        hLong hQuiet ⟨c, List.mem_append_left _ hc, hTime⟩
      exact ⟨hDurations, .inr hDormant⟩

/-- Where no lock is forgotten before the key has been quiet, the level of a key falls
only by a success or after a window in which the key was left alone, and the lockouts
of a key that is never left alone double up to the maximum. -/
theorem lockout_level_remembered (config : AuthAbuseConfig) (hConfig : config.Accepted) (d : Dimension)
    (key : String) (calls : List ProtectorCall) (hOrdered : Ordered calls)
    (hSteady : Steady config calls) (hRemembers : Remembers config d key calls) :
    (∀ earlier call later, calls = earlier ++ call :: later →
      levelOf (run config (earlier ++ [call])) d key = levelOf (run config earlier) d key +
          (call.lockout (run config earlier) d key).toList.length ∨
        call.Succeeds d key ∨ LeftAlone config d key earlier call) ∧
      ((touchTimes d key calls).IsChain (fun s t => t - s ≤ seconds config.failureWindow) →
        (∀ call ∈ calls, ¬call.Succeeds d key) →
        ∀ i duration, (lockouts config d key calls)[i]? = some duration →
          duration = seconds (min config.maximumLockout (config.baseLockout * 2 ^ i))) := by
  constructor
  · intro earlier call later hSplit
    rw [hSplit, List.append_cons] at hOrdered hSteady hRemembers
    have hStarted := run_started hConfig hOrdered.prefix.prefix hSteady.prefix.prefix
      hRemembers.prefix.prefix
    rcases (level_step hConfig hOrdered.prefix hSteady.prefix hRemembers.prefix hStarted).2 with
      hKept | ⟨-, hReset⟩
    · exact .inl hKept
    · exact .inr hReset
  · intro hChain hNoSuccess
    exact (lockouts_spec hConfig hOrdered hSteady hRemembers hChain hNoSuccess).1

/-- A property of every call of a run can be checked call by call. -/
theorem forall_calls {P : List ProtectorCall → ProtectorCall → Prop}
    (h : ∀ i : Fin calls.length, P (calls.take i) (calls.get i)) :
    ∀ earlier call later, calls = earlier ++ call :: later → P earlier call := by
  intro earlier call later hSplit
  subst hSplit
  have hAt := h ⟨earlier.length, by simp⟩
  simpa using hAt

theorem lockout_level_remembered_sample :
    lockouts Sample.limits .account "alice"
      [Sample.failure 10, Sample.failure 10, Sample.failure 30, Sample.failure 30] =
        [Sample.seconds 10, Sample.seconds 20] ∧
    ∀ i duration, (lockouts Sample.limits .account "alice"
      [Sample.failure 10, Sample.failure 10, Sample.failure 30, Sample.failure 30])[i]? =
        some duration → duration = SecureCore.seconds (min 8 (1 * 2 ^ i)) := by
  refine ⟨by decide +kernel, ?_⟩
  have hRoom : NoEviction Sample.limits
      [Sample.failure 10, Sample.failure 10, Sample.failure 30, Sample.failure 30] := by
    apply noEviction_of_capacity
    intro d
    cases d <;> decide +kernel
  have hClock : WithinClock Sample.limits (times
      [Sample.failure 10, Sample.failure 10, Sample.failure 30, Sample.failure 30]) :=
    withinClock_of_nonneg (by decide) (by decide +kernel) (by decide +kernel)
  have hRemembers : Remembers Sample.limits .account "alice"
      [Sample.failure 10, Sample.failure 10, Sample.failure 30, Sample.failure 30] := by
    have hEach := @forall_calls
      [Sample.failure 10, Sample.failure 10, Sample.failure 30, Sample.failure 30]
      (fun earlier call => ∀ now ∈ call.touchTime .account "alice",
        (now ≠ 0 ∧ ∀ state ∈ (run Sample.limits earlier).entry .account "alice",
          state.lockedUntil ≠ 0 → now - state.lockedUntil > SecureCore.seconds 10 →
            now - state.lastSeen > SecureCore.seconds 10) ∧
        levelOf (run Sample.limits earlier) .account "alice" < 2 ^ 32 - 1) (by decide +kernel)
    intro earlier call later now hSplit hTouch
    exact hEach earlier call later hSplit now hTouch
  exact (lockout_level_remembered Sample.limits Sample.limits_accepted .account "alice"
    [Sample.failure 10, Sample.failure 10, Sample.failure 30, Sample.failure 30]
    (by unfold Ordered; decide +kernel) ⟨hRoom, hClock⟩ hRemembers).2 (by decide +kernel) (by
      intro call hCall
      simp only [List.mem_cons, List.not_mem_nil, or_false] at hCall
      rcases hCall with rfl | rfl | rfl | rfl <;> exact id)

/-- Alice is checked five seconds after her lock ended and again six seconds later, with
a window of ten seconds: her level is forgotten, and her second lockout is as short as
her first. -/
theorem lockout_level_forgotten :
    Ordered [Sample.failure 10, Sample.failure 10, Sample.check 70, Sample.failure 130,
      Sample.failure 130] ∧
    NoEviction Sample.limits [Sample.failure 10, Sample.failure 10, Sample.check 70,
      Sample.failure 130, Sample.failure 130] ∧
    (touchTimes .account "alice" [Sample.failure 10, Sample.failure 10, Sample.check 70,
      Sample.failure 130, Sample.failure 130]).IsChain
        (fun s t => t - s ≤ SecureCore.seconds Sample.limits.failureWindow) ∧
    levelOf (run Sample.limits [Sample.failure 10, Sample.failure 10, Sample.check 70])
      .account "alice" = 1 ∧
    levelOf (run Sample.limits [Sample.failure 10, Sample.failure 10, Sample.check 70,
      Sample.failure 130]) .account "alice" = 0 ∧
    ¬LeftAlone Sample.limits .account "alice" [Sample.failure 10, Sample.failure 10, Sample.check 70]
      (Sample.failure 130) ∧
    lockouts Sample.limits .account "alice" [Sample.failure 10, Sample.failure 10, Sample.check 70,
      Sample.failure 130, Sample.failure 130] = [Sample.seconds 10, Sample.seconds 10] := by
  refine ⟨by unfold Ordered; decide +kernel, ?_, by decide +kernel, by decide +kernel,
    by decide +kernel, ?_, by decide +kernel⟩
  · apply noEviction_of_capacity
    intro d
    cases d <;> decide +kernel
  · rintro ⟨now, quietFrom, hTime, hLong, hQuiet, -⟩
    cases hTime
    have hTouched := hQuiet (Sample.seconds 70) (by decide +kernel)
    simp only [Sample.limits, Sample.seconds, SecureCore.seconds] at hLong hTouched
    omega

end AuthAbuseProtector

end SecureCore

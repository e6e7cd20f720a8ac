import SecureCore.Http.RateLimiterRuns

/-! # What the rate limiter guarantees a client

How many of its requests are allowed in an interval, and what the numbers in a decision
mean. -/

namespace SecureCore.RateLimiter

set_option autoImplicit false

open FixedWindow

variable {limiter : RateLimiter} {clientIp : String} {calls earlier later : List ClientCall}
variable {call : ClientCall} {bucket : Bucket}

/-! ## Allowed checks -/

/-- The times of the allowed checks of a client in a run. -/
def grantedTimes (limiter : RateLimiter) (clientIp : String) : List ClientCall → List Int
  | [] => []
  | call :: calls =>
    let (decision, next) := limiter.check call.clientIp call.begin call.now
    (if call.clientIp = clientIp ∧ decision.allowed = true then [call.now] else []) ++
      next.grantedTimes clientIp calls

theorem grantedTimes_concat (limiter : RateLimiter) (clientIp : String) (calls : List ClientCall)
    (call : ClientCall) : limiter.grantedTimes clientIp (calls ++ [call]) =
      limiter.grantedTimes clientIp calls ++
        if call.clientIp = clientIp ∧ (limiter.decision calls call).allowed = true then [call.now]
        else [] := by
  induction calls generalizing limiter with
  | nil => exact List.append_nil _
  | cons first calls ih =>
    rw [List.cons_append, grantedTimes, grantedTimes]
    simp only
    rw [ih, List.append_assoc]
    rfl

theorem idealAnswer_allowed (maxRequests : Nat) (width : Int) (window : Window) (now : Int) :
    (idealAnswer maxRequests width window now).allowed = true ↔ window.used < maxRequests := by
  unfold idealAnswer
  split
  · rename_i hFree
    exact iff_of_true rfl hFree
  · rename_i hFull
    exact iff_of_false Bool.false_ne_true hFull

/-- The window counter of a client. -/
def clientLedger (limiter : RateLimiter) (clientIp : String) (calls : List ClientCall) : Ledger :=
  ledger limiter.maxRequests limiter.width (timesOf clientIp (calls.map ClientCall.visit))

theorem clientLedger_concat (limiter : RateLimiter) (clientIp : String) (calls : List ClientCall)
    (call : ClientCall) : limiter.clientLedger clientIp (calls ++ [call]) =
      if call.clientIp = clientIp then
        (limiter.clientLedger clientIp calls).visit limiter.maxRequests limiter.width call.now
      else limiter.clientLedger clientIp calls := by
  have hVisit : call.visit = (call.clientIp, call.now) := rfl
  unfold clientLedger
  rw [List.map_append, List.map_singleton, timesOf_append, timesOf_singleton, hVisit]
  simp only
  by_cases hOwn : call.clientIp = clientIp
  · rw [if_pos hOwn, if_pos hOwn, ledger_concat]
  · rw [if_neg hOwn, if_neg hOwn, List.append_nil]

theorem timesOf_ordered (hOrdered : Ordered calls) (clientIp : String) :
    (timesOf clientIp (calls.map ClientCall.visit)).Pairwise (· ≤ ·) := by
  rw [timesOf_visits]
  exact List.Pairwise.sublist (List.filter_sublist.map _) hOrdered

theorem ceilSeconds_bounds (duration : Int) : duration ≤ seconds (ceilSeconds duration) ∧
    seconds (ceilSeconds duration) < duration + 1000000000 := by
  unfold seconds ceilSeconds
  constructor <;> omega

theorem clientLedger_others (limiter : RateLimiter) (calls : List ClientCall) {between : List ClientCall}
    (hOthers : ∀ other ∈ between, other.clientIp ≠ clientIp) :
    limiter.clientLedger clientIp (calls ++ between) = limiter.clientLedger clientIp calls := by
  induction between using List.reverseRecOn with
  | nil => rw [List.append_nil]
  | append_singleton between other ih =>
    rw [← List.append_assoc, clientLedger_concat, if_neg (hOthers other (by simp))]
    exact ih (fun o ho => hOthers o (List.mem_append_left _ ho))

section room

variable (hEmpty : limiter.buckets = ∅) (hLimit : limiter.maxRequests ≠ 0)
include hEmpty hLimit

theorem grantedTimes_eq (hCalls : Undisturbed limiter calls) (clientIp : String) :
    limiter.grantedTimes clientIp calls = (limiter.clientLedger clientIp calls).granted := by
  induction calls using List.reverseRecOn with
  | nil => rfl
  | append_singleton calls call ih =>
    rw [grantedTimes_concat, clientLedger_concat, ih hCalls.prefix, decision_eq hEmpty hLimit hCalls]
    simp only [idealAnswer_allowed]
    by_cases hOwn : call.clientIp = clientIp
    · rw [if_pos hOwn]
      unfold Ledger.visit clientLedger
      rw [hOwn]
      simp only [true_and]
      split <;> simp_all
    · rw [if_neg hOwn, if_neg (fun h => hOwn h.1), List.append_nil]

/-- The bucket of a client is the window of its counter. -/
theorem kept_of_lookup (hCalls : Undisturbed limiter calls)
    (hBucket : (limiter.after calls).buckets.lookup clientIp = some bucket) :
    (limiter.clientLedger clientIp calls).kept = some bucket.toWindow := by
  cases calls using List.reverseRecOn with
  | nil =>
    change limiter.buckets.lookup clientIp = some bucket at hBucket
    rw [hEmpty, AList.lookup_empty] at hBucket
    cases hBucket
  | append_singleton calls call =>
    obtain ⟨-, -, hAccurate⟩ := (accurate_after hEmpty hLimit hCalls).check hLimit hCalls
    unfold clientLedger
    rw [← Journal.run_apply]
    rcases hAccurate.tracks clientIp with hSame | ⟨hGone, -⟩
    · rw [← hSame, hBucket]
      rfl
    · rw [hGone] at hBucket
      cases hBucket

/-- The bucket of a client after one of its checks. -/
theorem lookup_of_check (hCalls : Undisturbed limiter (calls ++ [call])) :
    ∃ bucket, (limiter.after (calls ++ [call])).buckets.lookup call.clientIp = some bucket ∧
      bucket.toWindow = FixedWindow.visit limiter.maxRequests limiter.width
        (limiter.clientLedger call.clientIp calls).kept call.now := by
  obtain ⟨-, ⟨bucket, hBucket, hWindow⟩, -⟩ := (accurate_after hEmpty hLimit hCalls).check hLimit hCalls
  refine ⟨bucket, hBucket, ?_⟩
  rw [hWindow, Journal.run_apply]
  rfl

/-! ## Bounds -/

theorem sliding_window (hCalls : Undisturbed limiter calls) {a b : Int} (hShort : b - a < limiter.width) :
    (limiter.grantedTimes clientIp calls).countP (fun t => a ≤ t ∧ t ≤ b) ≤ 2 * limiter.maxRequests := by
  rw [grantedTimes_eq hEmpty hLimit hCalls]
  have hBound : countFrom (limiter.clientLedger clientIp calls).granted a (b + 1) ≤
      2 * limiter.maxRequests :=
    sliding_bound limiter.width_pos (timesOf_ordered hCalls.ordered clientIp) (by omega)
  refine le_trans (List.countP_mono_left ?_) hBound
  intro t _ hInside
  rw [decide_eq_true_eq] at hInside ⊢
  omega

theorem bucket_window (hCalls : Undisturbed limiter (earlier ++ later))
    (hBucket : (limiter.after earlier).buckets.lookup clientIp = some bucket) :
    countFrom (limiter.grantedTimes clientIp (earlier ++ later)) bucket.windowStart
      (bucket.windowStart + limiter.width) ≤ limiter.maxRequests := by
  have hTimes := timesOf_ordered hCalls.ordered clientIp
  rw [List.map_append, timesOf_append] at hTimes
  rw [grantedTimes_eq hEmpty hLimit hCalls]
  unfold clientLedger
  rw [List.map_append, timesOf_append]
  exact (window_bound limiter.width_pos hTimes
    (kept_of_lookup hEmpty hLimit hCalls.prefix hBucket)).1

/-- The numbers in a decision are those of the bucket. -/
theorem decision_remaining (hCalls : Undisturbed limiter (calls ++ [call])) :
    ∃ bucket, (limiter.after (calls ++ [call])).buckets.lookup call.clientIp = some bucket ∧
      bucket.windowStart ≤ call.now ∧ call.now < bucket.windowStart + limiter.width ∧
      (limiter.decision calls call).remaining +
        countFrom (limiter.grantedTimes call.clientIp (calls ++ [call])) bucket.windowStart
          (bucket.windowStart + limiter.width) = limiter.maxRequests := by
  obtain ⟨bucket, hBucket, hWindow⟩ := lookup_of_check hEmpty hLimit hCalls
  have hTimes := timesOf_ordered hCalls.ordered call.clientIp
  have hVisit : call.visit = (call.clientIp, call.now) := rfl
  rw [List.map_append, List.map_singleton, timesOf_append, timesOf_singleton, hVisit, if_pos rfl] at hTimes
  have hAccounts : Accounts limiter.maxRequests limiter.width
      (limiter.clientLedger call.clientIp calls).granted
      (current limiter.width (limiter.clientLedger call.clientIp calls).kept call.now) call.now :=
    accounts_current limiter.width_pos hTimes
  have hTaken := hAccounts.take
  have hGranted : (limiter.clientLedger call.clientIp (calls ++ [call])).granted =
      if (current limiter.width (limiter.clientLedger call.clientIp calls).kept call.now).used <
          limiter.maxRequests then
        (limiter.clientLedger call.clientIp calls).granted ++ [call.now]
      else (limiter.clientLedger call.clientIp calls).granted := by
    rw [clientLedger_concat, if_pos rfl]
    rfl
  have hStart : bucket.windowStart = ((current limiter.width
      (limiter.clientLedger call.clientIp calls).kept call.now).take limiter.maxRequests).start :=
    congrArg Window.start hWindow
  rw [← hGranted, ← grantedTimes_eq hEmpty hLimit hCalls] at hTaken
  refine ⟨bucket, hBucket, ?_, ?_, ?_⟩
  · rw [hStart]
    exact hTaken.begun
  · rw [hStart]
    exact hTaken.within
  · rw [hStart, hTaken.used, decision_eq hEmpty hLimit hCalls]
    have hLimited := hAccounts.limited
    unfold clientLedger at hLimited
    unfold idealAnswer Window.take clientLedger
    split
    · simp only
      omega
    · simp only
      omega

/-! ## Retrying -/

/-- The retry time of a denied check is within the window, and after it the client is
allowed again. -/
theorem decision_retry (hCalls : Undisturbed limiter (calls ++ [call]))
    (hDenied : (limiter.decision calls call).allowed = false) :
    1 ≤ (limiter.decision calls call).retryAfter ∧
    (limiter.decision calls call).retryAfter ≤ limiter.window ∧
    ∀ between again, again.clientIp = call.clientIp →
      again.now = call.now + seconds (limiter.decision calls call).retryAfter →
      (∀ other ∈ between, other.clientIp ≠ call.clientIp) →
      Undisturbed limiter (calls ++ [call] ++ between ++ [again]) →
      (limiter.decision (calls ++ [call] ++ between) again).allowed = true := by
  have hTimes := timesOf_ordered hCalls.ordered call.clientIp
  have hVisit : call.visit = (call.clientIp, call.now) := rfl
  rw [List.map_append, List.map_singleton, timesOf_append, timesOf_singleton, hVisit, if_pos rfl] at hTimes
  have hAccounts : Accounts limiter.maxRequests limiter.width
      (limiter.clientLedger call.clientIp calls).granted
      (current limiter.width (limiter.clientLedger call.clientIp calls).kept call.now) call.now :=
    accounts_current limiter.width_pos hTimes
  have hBegun := hAccounts.begun
  have hWithin := hAccounts.within
  have hDecision : limiter.decision calls call = idealAnswer limiter.maxRequests limiter.width
      (current limiter.width (limiter.clientLedger call.clientIp calls).kept call.now) call.now :=
    decision_eq hEmpty hLimit hCalls
  have hFull : ¬(current limiter.width (limiter.clientLedger call.clientIp calls).kept call.now).used <
      limiter.maxRequests := by
    rw [← idealAnswer_allowed _ limiter.width _ call.now, ← hDecision, hDenied]
    exact Bool.false_ne_true
  have hKept : (limiter.clientLedger call.clientIp (calls ++ [call])).kept =
      some (current limiter.width (limiter.clientLedger call.clientIp calls).kept call.now) := by
    rw [clientLedger_concat, if_pos rfl]
    unfold Ledger.visit FixedWindow.visit Window.take
    rw [if_neg hFull]
  rw [hDecision]
  unfold idealAnswer
  rw [if_neg hFull]
  simp only
  generalize current limiter.width (limiter.clientLedger call.clientIp calls).kept call.now = window
    at hBegun hWithin hKept
  have hRetry := ceilSeconds_bounds (limiter.width - (call.now - window.start))
  have hWidth : limiter.width = limiter.window * 1000000000 := rfl
  unfold seconds at hRetry ⊢
  refine ⟨le_max_left _ _, by omega, ?_⟩
  intro between again hAgain hLater hOthers hCalls'
  have hPassed : limiter.width ≤ again.now - window.start := by omega
  rw [decision_eq hEmpty hLimit hCalls', idealAnswer_allowed]
  have hSame : (limiter.clientLedger again.clientIp (calls ++ [call] ++ between)).kept = some window := by
    rw [hAgain, clientLedger_others _ _ hOthers]
    exact hKept
  unfold clientLedger at hSame
  rw [hSame, current_of_passed hPassed]
  exact Nat.pos_of_ne_zero hLimit

end room

/-! ## Guarantees -/

/-- What a client gets of a limiter with room for all of its clients, as long as its times fit
into the clock. -/
theorem rate_limits {maxRequests : Nat} {window : Int} {maxBuckets : Nat}
    (hMake : make maxRequests window maxBuckets = .ok limiter) (hRequests : 1 ≤ maxRequests) :
    (∀ clientIp calls a b, Ordered calls → (clients calls).card ≤ maxBuckets → WithinClock window calls →
      b - a < seconds window →
      (limiter.grantedTimes clientIp calls).countP (fun t => a ≤ t ∧ t ≤ b) ≤ 2 * maxRequests) ∧
    (∀ clientIp earlier later bucket, Ordered (earlier ++ later) →
      (clients (earlier ++ later)).card ≤ maxBuckets → WithinClock window (earlier ++ later) →
      (limiter.after earlier).buckets.lookup clientIp = some bucket →
      countFrom (limiter.grantedTimes clientIp (earlier ++ later)) bucket.windowStart
        (bucket.windowStart + seconds window) ≤ maxRequests) ∧
    (∀ calls call, Ordered (calls ++ [call]) → (clients (calls ++ [call])).card ≤ maxBuckets →
      WithinClock window (calls ++ [call]) →
      ∃ bucket, (limiter.after (calls ++ [call])).buckets.lookup call.clientIp = some bucket ∧
        bucket.windowStart ≤ call.now ∧ call.now < bucket.windowStart + seconds window ∧
        (limiter.decision calls call).remaining +
          countFrom (limiter.grantedTimes call.clientIp (calls ++ [call])) bucket.windowStart
            (bucket.windowStart + seconds window) = maxRequests) ∧
    ∀ calls call, Ordered (calls ++ [call]) → (clients (calls ++ [call])).card ≤ maxBuckets →
      WithinClock window (calls ++ [call]) → (limiter.decision calls call).allowed = false →
      1 ≤ (limiter.decision calls call).retryAfter ∧
      (limiter.decision calls call).retryAfter ≤ window ∧
      ∀ between again, again.clientIp = call.clientIp →
        again.now = call.now + seconds (limiter.decision calls call).retryAfter →
        (∀ other ∈ between, other.clientIp ≠ call.clientIp) →
        Ordered (calls ++ [call] ++ between ++ [again]) →
        (clients (calls ++ [call] ++ between ++ [again])).card ≤ maxBuckets →
        WithinClock window (calls ++ [call] ++ between ++ [again]) →
        (limiter.decision (calls ++ [call] ++ between) again).allowed = true := by
  obtain ⟨rfl, rfl, rfl, hEmpty⟩ := make_ok hMake
  have hLimit : limiter.maxRequests ≠ 0 := Nat.one_le_iff_ne_zero.mp hRequests
  refine ⟨?_, ?_, ?_, ?_⟩
  · intro clientIp calls a b hOrdered hClients hClock hShort
    exact sliding_window hEmpty hLimit ⟨hOrdered, hClients, hClock⟩ hShort
  · intro clientIp earlier later bucket hOrdered hClients hClock hBucket
    exact bucket_window hEmpty hLimit ⟨hOrdered, hClients, hClock⟩ hBucket
  · intro calls call hOrdered hClients hClock
    exact decision_remaining hEmpty hLimit ⟨hOrdered, hClients, hClock⟩
  · intro calls call hOrdered hClients hClock hDenied
    obtain ⟨hPositive, hWindow, hRetry⟩ := decision_retry hEmpty hLimit ⟨hOrdered, hClients, hClock⟩ hDenied
    refine ⟨hPositive, hWindow, ?_⟩
    intro between again hAgain hLater hOthers hOrdered' hClients' hClock'
    exact hRetry between again hAgain hLater hOthers ⟨hOrdered', hClients', hClock'⟩

/-- One request a minute: the second one is told to wait. -/
theorem rate_limits_sample : ∃ limiter, make 1 60 2 = .ok limiter ∧
    (limiter.decision [⟨"192.0.2.1", 0, 0⟩] ⟨"192.0.2.1", 0, 500⟩).allowed = false ∧
    (limiter.decision [⟨"192.0.2.1", 0, 0⟩] ⟨"192.0.2.1", 0, 500⟩).retryAfter ≤ 60 := by
  refine ⟨_, rfl, by decide +kernel, ?_⟩
  have hDenied := (rate_limits (rfl : make 1 60 2 = .ok _) (le_refl 1)).2.2.2
    [⟨"192.0.2.1", 0, 0⟩] ⟨"192.0.2.1", 0, 500⟩ (by unfold Ordered; decide) (by decide)
    (withinClock_of_nonneg (by decide) (by decide)) (by decide +kernel)
  exact hDenied.2.1

/-- With a window of 10^10 seconds three checks at once are allowed where the limit is one. -/
theorem rate_limits_overflow :
    ¬∀ (maxRequests : Nat) (window : Int) (maxBuckets : Nat) (limiter : RateLimiter),
      make maxRequests window maxBuckets = .ok limiter → 1 ≤ maxRequests →
        ∀ clientIp calls a b, Ordered calls → (clients calls).card ≤ maxBuckets → b - a < seconds window →
          (limiter.grantedTimes clientIp calls).countP (fun t => a ≤ t ∧ t ≤ b) ≤ 2 * maxRequests := by
  intro h
  have hBound := h 1 10000000000 1 _ rfl (le_refl 1) "192.0.2.1" (List.replicate 3 firstCall) 0 0
    (by unfold Ordered; decide) (by decide) (by decide)
  revert hBound
  decide +kernel

end SecureCore.RateLimiter

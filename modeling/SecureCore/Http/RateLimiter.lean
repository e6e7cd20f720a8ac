import Mathlib.Data.List.AList
import SecureCore.Http.Middleware
import SecureCore.Model.Records
import SecureCore.Model.SteadyClock

/-! # RateLimiter

Time points and durations of the steady clock are in nanoseconds, the window and the
retry time are in seconds. -/

namespace SecureCore

set_option autoImplicit false

structure Bucket where
  windowStart : Int
  requestCount : Nat
  deriving DecidableEq, Repr

/-- The std::unordered_map of buckets. -/
abbrev Buckets := AList (fun _ : String => Bucket)

namespace Buckets

def size (buckets : Buckets) : Nat := buckets.entries.length

/-- The iteration order is not specified, so `begin` says which entry comes first. -/
def eraseBegin (buckets : Buckets) (begin : Nat) : Buckets :=
  match buckets.entries[begin % buckets.size]? with
  | none => buckets
  | some entry => buckets.erase entry.1

def eraseIf (buckets : Buckets) (erased : Bucket → Bool) : Buckets where
  entries := buckets.entries.filter (fun entry => !erased entry.2)
  nodupKeys := buckets.nodupKeys.sublist List.filter_sublist

end Buckets

structure RateLimiter where
  maxRequests : Nat
  window : Int
  maxBuckets : Nat
  windowPositive : 0 < window
  bucketsPositive : 0 < maxBuckets
  buckets : Buckets
  checkCount : Nat

namespace RateLimiter

def make (maxRequests : Nat) (window : Int) (maxBuckets : Nat) : Except Exception RateLimiter :=
  if hWindow : window ≤ 0 then .error (.invalidArgument "Rate-limit window must be positive")
  else if hBuckets : maxBuckets = 0 then
    .error (.invalidArgument "Rate-limit bucket capacity must be positive")
  else .ok ⟨maxRequests, window, maxBuckets, Int.not_le.mp hWindow, Nat.pos_of_ne_zero hBuckets, ∅, 0⟩

/-- std::chrono::ceil. -/
def ceilSeconds (duration : Int) : Int := -(-duration / 1000000000)

def cleanupLocked (limiter : RateLimiter) (now : Int) : RateLimiter :=
  let checkCount := (limiter.checkCount + 1) % 2 ^ 64
  if checkCount % 1024 ≠ 0 then { limiter with checkCount := checkCount }
  else
    let staleBefore := int64 (now - nanoseconds (int64 (limiter.window * 2)))
    { limiter with
      checkCount := checkCount
      buckets := limiter.buckets.eraseIf (fun bucket => decide (bucket.windowStart < staleBefore)) }

def check (limiter : RateLimiter) (clientIp : String) (begin : Nat) (now : Int) :
    RateLimitDecision × RateLimiter :=
  if limiter.maxRequests = 0 then (⟨true, 0, 0, 0⟩, limiter)
  else
    let limiter := limiter.cleanupLocked now
    let buckets := if clientIp ∉ limiter.buckets ∧ limiter.maxBuckets ≤ limiter.buckets.size then
        limiter.buckets.eraseBegin begin
      else limiter.buckets
    let (bucket, inserted) := match buckets.lookup clientIp with
      | some bucket => (bucket, false)
      | none => (⟨now, 0⟩, true)
    let bucket :=
      if !inserted && decide (nanoseconds limiter.window ≤ int64 (now - bucket.windowStart)) then ⟨now, 0⟩
      else bucket
    if limiter.maxRequests ≤ bucket.requestCount then
      let remainingTime := int64 (nanoseconds limiter.window - int64 (now - bucket.windowStart))
      let retryAfter := max 1 (ceilSeconds remainingTime)
      (⟨false, limiter.maxRequests, 0, retryAfter⟩,
        { limiter with buckets := buckets.insert clientIp bucket })
    else
      let bucket := { bucket with requestCount := bucket.requestCount + 1 }
      (⟨true, limiter.maxRequests, limiter.maxRequests - bucket.requestCount, 0⟩,
        { limiter with buckets := buckets.insert clientIp bucket })

end RateLimiter

end SecureCore

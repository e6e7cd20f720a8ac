import SecureCore.Bounded.Contents
import SecureCore.Http.RateLimiterRuns

/-! # The capacity of the rate limiter

Whatever bucket is evicted for a new client, there are never more than max_buckets, and
the decision on a client comes from its own bucket. -/

namespace SecureCore

set_option autoImplicit false

open Bounded FixedWindow

namespace Buckets

variable {buckets : Buckets}

def contents (buckets : Buckets) : Contents String Bucket where
  find clientIp := buckets.lookup clientIp
  keys := buckets.keys.toFinset
  mem_keys clientIp := by
    rw [List.mem_toFinset, ← AList.mem_keys, AList.lookup_isSome]

@[simp] theorem contents_find (buckets : Buckets) (clientIp : String) :
    buckets.contents.find clientIp = buckets.lookup clientIp := rfl

@[simp] theorem contents_size (buckets : Buckets) : buckets.contents.size = buckets.size :=
  card_keys buckets

theorem mem_contents {clientIp : String} : clientIp ∈ buckets.contents.keys ↔ clientIp ∈ buckets := by
  rw [Contents.mem_keys, contents_find, AList.lookup_isSome]

/-- The entry that comes first is one of the map. -/
theorem eraseBegin_eq (h : 0 < buckets.size) (begin : Nat) :
    ∃ victim ∈ buckets, buckets.eraseBegin begin = buckets.erase victim := by
  have hIndex : begin % buckets.size < buckets.entries.length := Nat.mod_lt _ h
  refine ⟨buckets.entries[begin % buckets.size].1, ?_, ?_⟩
  · exact List.mem_map_of_mem (List.getElem_mem hIndex)
  · rw [eraseBegin, List.getElem?_eq_getElem hIndex]

theorem drops_eraseIf (buckets : Buckets) (erased : Bucket → Bool) :
    Drops buckets.contents (buckets.eraseIf erased).contents := by
  intro clientIp
  rw [contents_find, contents_find, lookup_eraseIf]
  cases buckets.lookup clientIp with
  | none => exact .inl rfl
  | some bucket =>
    rw [Option.filter_some]
    split
    · exact .inl rfl
    · exact .inr rfl

end Buckets

namespace RateLimiter

variable {limiter other : RateLimiter} {clientIp : String} {begin : Nat} {now : Int}

theorem drops_cleanupLocked (limiter : RateLimiter) (now : Int) :
    Drops limiter.buckets.contents (limiter.cleanupLocked now).buckets.contents := by
  rcases cleanupLocked_buckets limiter now with hSame | hErased
  · rw [hSame]
    exact Drops.refl _
  · rw [hErased]
    exact Buckets.drops_eraseIf _ _

/-- No client loses its bucket to itself. -/
theorem lookup_makeRoom (limiter : RateLimiter) (clientIp : String) (begin : Nat) :
    (limiter.makeRoom clientIp begin).lookup clientIp = limiter.buckets.lookup clientIp := by
  rw [makeRoom]
  split
  · rename_i hFull
    obtain ⟨victim, hVictim, hErased⟩ :=
      Buckets.eraseBegin_eq (limiter.bucketsPositive.trans_le hFull.2) begin
    rw [hErased, AList.lookup_erase_ne]
    rintro rfl
    exact hFull.1 hVictim
  · rfl

theorem visit_makeRoom (limiter : RateLimiter) (clientIp : String) (begin : Nat) (bucket : Bucket) :
    ∃ evicted, Visit limiter.maxBuckets clientIp evicted limiter.buckets.contents
      (Buckets.contents ((limiter.makeRoom clientIp begin).insert clientIp bucket)) := by
  by_cases hFull : clientIp ∉ limiter.buckets ∧ limiter.maxBuckets ≤ limiter.buckets.size
  · obtain ⟨victim, hVictim, hErased⟩ :=
      Buckets.eraseBegin_eq (limiter.bucketsPositive.trans_le hFull.2) begin
    have hOther : victim ≠ clientIp := by
      rintro rfl
      exact hFull.1 hVictim
    refine ⟨some victim, ?_, ?_, (fun hNone => nomatch hNone)⟩
    · intro k hk
      rw [Buckets.contents_find, Buckets.contents_find, AList.lookup_insert_ne hk, makeRoom, if_pos hFull,
        hErased]
      by_cases hEvicted : victim = k
      · rw [if_pos (congrArg some hEvicted), ← hEvicted, AList.lookup_erase]
      · rw [if_neg (fun h => hEvicted (Option.some.inj h)),
          AList.lookup_erase_ne (fun h => hEvicted h.symm)]
    · intro k hk
      cases hk
      refine ⟨hOther, Buckets.mem_contents.mpr hVictim, ?_, ?_⟩
      · exact fun hMem => hFull.1 (Buckets.mem_contents.mp hMem)
      · rw [Buckets.contents_size]
        exact hFull.2
  · refine ⟨none, ?_, (fun _ hNone => nomatch hNone), ?_⟩
    · intro k hk
      rw [Buckets.contents_find, Buckets.contents_find, AList.lookup_insert_ne hk, makeRoom, if_neg hFull]
      rfl
    · intro _
      rw [Buckets.mem_contents, Buckets.contents_size]
      by_cases hMem : clientIp ∈ limiter.buckets
      · exact .inl hMem
      · right
        left
        by_contra hNoRoom
        exact hFull ⟨hMem, Nat.not_lt.mp hNoRoom⟩

/-- The buckets from which a check takes that of its client. -/
def kept (limiter : RateLimiter) (now : Int) : Buckets :=
  if limiter.maxRequests = 0 then limiter.buckets else (limiter.cleanupLocked now).buckets

theorem check_step (limiter : RateLimiter) (clientIp : String) (begin : Nat) (now : Int) :
    Step limiter.maxBuckets clientIp limiter.buckets.contents (limiter.kept now).contents
      (limiter.check clientIp begin now).2.buckets.contents := by
  by_cases hLimit : limiter.maxRequests = 0
  · rw [kept, if_pos hLimit, check, if_pos hLimit]
    exact ⟨Drops.refl _, none, Visit.of_others (fun _ _ => rfl) id⟩
  · rw [kept, if_neg hLimit, check_eq hLimit rfl rfl]
    have hVisit := visit_makeRoom (limiter.cleanupLocked now) clientIp begin
    rw [cleanupLocked_maxBuckets] at hVisit
    exact ⟨drops_cleanupLocked limiter now, hVisit _⟩

/-- The decision and the bucket afterwards, from the client's own bucket. -/
theorem check_own (hLimit : limiter.maxRequests ≠ 0) {bucket : Bucket}
    (hBucket : bucket = opened (nanoseconds limiter.window) ((limiter.kept now).lookup clientIp) now) :
    (limiter.check clientIp begin now).1 =
        answer limiter.maxRequests (nanoseconds limiter.window) bucket now ∧
      (limiter.check clientIp begin now).2.buckets.lookup clientIp =
        some (bucket.take limiter.maxRequests) := by
  rw [kept, if_neg hLimit, ← lookup_makeRoom _ clientIp begin] at hBucket
  rw [check_eq hLimit rfl hBucket]
  exact ⟨rfl, AList.lookup_insert _⟩

/-- Two limiters that keep the same bucket for a client decide the same on it. -/
theorem check_congr (hRequests : other.maxRequests = limiter.maxRequests)
    (hWindow : other.window = limiter.window)
    (hOwn : (other.kept now).lookup clientIp = (limiter.kept now).lookup clientIp) (begin' : Nat) :
    (other.check clientIp begin' now).1 = (limiter.check clientIp begin now).1 ∧
      (other.check clientIp begin' now).2.buckets.lookup clientIp =
        (limiter.check clientIp begin now).2.buckets.lookup clientIp := by
  by_cases hLimit : limiter.maxRequests = 0
  · have hOtherLimit := hRequests.trans hLimit
    rw [kept, kept, if_pos hLimit, if_pos hOtherLimit] at hOwn
    rw [check, check, if_pos hLimit, if_pos hOtherLimit]
    exact ⟨rfl, hOwn⟩
  · have hOtherLimit : other.maxRequests ≠ 0 := by rwa [hRequests]
    obtain ⟨hDecision, hBucket⟩ := @check_own limiter clientIp begin now hLimit _ rfl
    obtain ⟨hOtherDecision, hOtherBucket⟩ := @check_own other clientIp begin' now hOtherLimit _ rfl
    rw [hDecision, hBucket, hOtherDecision, hOtherBucket, hOwn, hRequests, hWindow]
    exact ⟨rfl, rfl⟩

theorem after_size_le (hStart : limiter.buckets.size ≤ limiter.maxBuckets) (calls : List ClientCall) :
    (limiter.after calls).buckets.size ≤ limiter.maxBuckets := by
  induction calls using List.reverseRecOn with
  | nil => exact hStart
  | append_singleton calls call ih =>
    have hStep := check_step (limiter.after calls) call.clientIp call.begin call.now
    rw [(after_settings limiter calls).2.2] at hStep
    rw [after_concat, ← Buckets.contents_size]
    apply hStep.size_le
    rw [Buckets.contents_size]
    exact ih

end RateLimiter

end SecureCore

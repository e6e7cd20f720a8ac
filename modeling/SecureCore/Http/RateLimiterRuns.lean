import Mathlib.Data.Finset.Card
import SecureCore.Http.RateLimiter
import SecureCore.Windows.Counter

/-! # Runs of the rate limiter

A limiter with room for all of its clients decides like one that keeps a window for every
client for ever. -/

namespace SecureCore

set_option autoImplicit false

open FixedWindow

/-! ## The map of buckets -/

def Bucket.toWindow (bucket : Bucket) : Window := ⟨bucket.windowStart, bucket.requestCount⟩

/-- One more request, if the limit has one left. -/
def Bucket.take (limit : Nat) (bucket : Bucket) : Bucket :=
  if bucket.requestCount < limit then { bucket with requestCount := bucket.requestCount + 1 } else bucket

@[simp] theorem Bucket.toWindow_take (limit : Nat) (bucket : Bucket) :
    (bucket.take limit).toWindow = bucket.toWindow.take limit := by
  unfold Bucket.take Window.take Bucket.toWindow
  split
  · rfl
  · rfl

@[simp] theorem Bucket.take_windowStart (limit : Nat) (bucket : Bucket) :
    (bucket.take limit).windowStart = bucket.windowStart := by
  unfold Bucket.take
  split
  · rfl
  · rfl

namespace Buckets

variable {buckets : Buckets} {clientIp : String}

theorem lookup_eraseIf (buckets : Buckets) (erased : Bucket → Bool) (clientIp : String) :
    (buckets.eraseIf erased).lookup clientIp =
      (buckets.lookup clientIp).filter (fun bucket => !erased bucket) := by
  apply Option.ext
  intro bucket
  rw [Option.filter_eq_some_iff, ← Option.mem_def, ← Option.mem_def, AList.mem_lookup_iff,
    AList.mem_lookup_iff]
  exact List.mem_filter

theorem card_keys (buckets : Buckets) : buckets.keys.toFinset.card = buckets.size := by
  rw [List.toFinset_card_of_nodup buckets.keys_nodup]
  exact List.length_map _

/-- A new client has room if there are no more clients than buckets. -/
theorem size_lt {seen : Finset String} (hSeen : ∀ other ∈ buckets, other ∈ seen)
    (hNew : clientIp ∉ buckets) : buckets.size < (insert clientIp seen).card := by
  have hSubset : insert clientIp buckets.keys.toFinset ⊆ insert clientIp seen := by
    apply Finset.insert_subset_insert
    intro other hOther
    exact hSeen other (AList.mem_keys.mpr (List.mem_toFinset.mp hOther))
  have hCard := Finset.card_le_card hSubset
  rw [Finset.card_insert_of_notMem, card_keys] at hCard
  · exact hCard
  · intro hMem
    exact hNew (AList.mem_keys.mpr (List.mem_toFinset.mp hMem))

end Buckets

namespace RateLimiter

variable {limiter : RateLimiter} {clientIp : String} {begin : Nat} {now : Int}

/-! ## One check -/

/-- The bucket that a check finds or begins. -/
def opened (width : Int) (kept : Option Bucket) (now : Int) : Bucket :=
  match kept with
  | none => ⟨now, 0⟩
  | some bucket => if width ≤ int64 (now - bucket.windowStart) then ⟨now, 0⟩ else bucket

/-- The decision on a check of a bucket. -/
def answer (maxRequests : Nat) (width : Int) (bucket : Bucket) (now : Int) : RateLimitDecision :=
  if bucket.requestCount < maxRequests then ⟨true, maxRequests, maxRequests - (bucket.requestCount + 1), 0⟩
  else ⟨false, maxRequests, 0, max 1 (ceilSeconds (int64 (width - int64 (now - bucket.windowStart))))⟩

@[simp] theorem cleanupLocked_maxRequests (limiter : RateLimiter) (now : Int) :
    (limiter.cleanupLocked now).maxRequests = limiter.maxRequests := by
  unfold cleanupLocked
  simp only
  split <;> rfl

@[simp] theorem cleanupLocked_window (limiter : RateLimiter) (now : Int) :
    (limiter.cleanupLocked now).window = limiter.window := by
  unfold cleanupLocked
  simp only
  split <;> rfl

@[simp] theorem cleanupLocked_maxBuckets (limiter : RateLimiter) (now : Int) :
    (limiter.cleanupLocked now).maxBuckets = limiter.maxBuckets := by
  unfold cleanupLocked
  simp only
  split <;> rfl

theorem cleanupLocked_checkCount (limiter : RateLimiter) (now : Int) :
    (limiter.cleanupLocked now).checkCount = (limiter.checkCount + 1) % 2 ^ 64 := by
  unfold cleanupLocked
  simp only
  split <;> rfl

/-- A cleanup leaves the buckets as they are, or drops those of two windows ago. -/
theorem cleanupLocked_buckets (limiter : RateLimiter) (now : Int) :
    (limiter.cleanupLocked now).buckets = limiter.buckets ∨
      (limiter.cleanupLocked now).buckets = limiter.buckets.eraseIf
        (fun bucket => decide
          (bucket.windowStart < int64 (now - nanoseconds (int64 (limiter.window * 2))))) := by
  unfold cleanupLocked
  simp only
  split
  · exact .inl rfl
  · exact .inr rfl

/-- The buckets with room for a client; `begin` says which one goes if need be. -/
def makeRoom (limiter : RateLimiter) (clientIp : String) (begin : Nat) : Buckets :=
  if clientIp ∉ limiter.buckets ∧ limiter.maxBuckets ≤ limiter.buckets.size then
    limiter.buckets.eraseBegin begin
  else limiter.buckets

/-- A check is a cleanup, room for the client and one request of its bucket. -/
theorem check_eq (hLimit : limiter.maxRequests ≠ 0) {room : Buckets}
    (hRoom : room = (limiter.cleanupLocked now).makeRoom clientIp begin) {bucket : Bucket}
    (hBucket : bucket = opened (nanoseconds limiter.window) (room.lookup clientIp) now) :
    limiter.check clientIp begin now =
      (answer limiter.maxRequests (nanoseconds limiter.window) bucket now,
        { limiter.cleanupLocked now with
          buckets := room.insert clientIp (bucket.take limiter.maxRequests) }) := by
  unfold check answer Bucket.take
  rw [if_neg hLimit]
  unfold makeRoom at hRoom
  simp only [← hRoom, cleanupLocked_maxRequests, cleanupLocked_window]
  unfold opened at hBucket
  cases hFound : room.lookup clientIp with
  | none =>
    rw [hFound] at hBucket
    subst hBucket
    simp only [Bool.not_true, Bool.false_and, Bool.false_eq_true, if_false]
    rcases Nat.lt_or_ge 0 limiter.maxRequests with hFree | hFull
    · rw [if_neg (Nat.not_le.mpr hFree), if_pos hFree, if_pos hFree]
    · rw [if_pos hFull, if_neg (Nat.not_lt.mpr hFull), if_neg (Nat.not_lt.mpr hFull)]
  | some kept =>
    rw [hFound] at hBucket
    have hSame : (if (!false && decide (nanoseconds limiter.window ≤ int64 (now - kept.windowStart))) = true
        then ⟨now, 0⟩ else kept) = bucket := by
      rw [hBucket]
      simp only [Bool.not_false, Bool.true_and, decide_eq_true_eq]
    simp only [hSame]
    rcases Nat.lt_or_ge bucket.requestCount limiter.maxRequests with hFree | hFull
    · rw [if_neg (Nat.not_le.mpr hFree), if_pos hFree, if_pos hFree]
    · rw [if_pos hFull, if_neg (Nat.not_lt.mpr hFull), if_neg (Nat.not_lt.mpr hFull)]

/-- A check without an eviction. -/
theorem check_of_room (hLimit : limiter.maxRequests ≠ 0)
    (hRoom : clientIp ∉ (limiter.cleanupLocked now).buckets →
      (limiter.cleanupLocked now).buckets.size < limiter.maxBuckets) {bucket : Bucket}
    (hBucket : bucket = opened (nanoseconds limiter.window)
      ((limiter.cleanupLocked now).buckets.lookup clientIp) now) :
    limiter.check clientIp begin now =
      (answer limiter.maxRequests (nanoseconds limiter.window) bucket now,
        { limiter.cleanupLocked now with
          buckets := (limiter.cleanupLocked now).buckets.insert clientIp
            (bucket.take limiter.maxRequests) }) := by
  apply check_eq hLimit _ hBucket
  apply (if_neg _).symm
  rw [cleanupLocked_maxBuckets]
  exact fun h => absurd (hRoom h.1) (Nat.not_lt.mpr h.2)

/-! ## The ideal limiter -/

/-- The window in nanoseconds. -/
def width (limiter : RateLimiter) : Int := seconds limiter.window

theorem width_pos (limiter : RateLimiter) : 0 < limiter.width := by
  have hWindow := limiter.windowPositive
  unfold width seconds
  omega

/-- The decision on a visit in a window. -/
def idealAnswer (maxRequests : Nat) (width : Int) (window : Window) (now : Int) : RateLimitDecision :=
  if window.used < maxRequests then ⟨true, maxRequests, maxRequests - (window.used + 1), 0⟩
  else ⟨false, maxRequests, 0, max 1 (ceilSeconds (width - (now - window.start)))⟩

/-- One window for every client, never cleaned up and never evicted, and a clock without a limit. -/
def idealCheck (maxRequests : Nat) (window : Int) (journal : Journal String) (clientIp : String) (now : Int) :
    RateLimitDecision × Journal String :=
  if maxRequests = 0 then (⟨true, 0, 0, 0⟩, journal)
  else (idealAnswer maxRequests (seconds window) (current (seconds window) (journal clientIp) now) now,
    journal.visit maxRequests (seconds window) clientIp now)

/-- The buckets are those of the journal, but for windows that have passed. -/
def Tracks (width : Int) (buckets : Buckets) (journal : Journal String) (now : Int) : Prop :=
  ∀ clientIp, (buckets.lookup clientIp).map Bucket.toWindow = journal clientIp ∨
    buckets.lookup clientIp = none ∧ ∃ window, journal clientIp = some window ∧ width ≤ now - window.start

variable {width : Int} {buckets : Buckets} {journal : Journal String} {later : Int}

theorem Tracks.mono (h : Tracks width buckets journal now) (hLater : now ≤ later) :
    Tracks width buckets journal later := by
  intro clientIp
  rcases h clientIp with hSame | ⟨hGone, window, hWindow, hPassed⟩
  · exact .inl hSame
  · exact .inr ⟨hGone, window, hWindow, by omega⟩

/-- A window that has passed is as good as none. -/
theorem Tracks.current (h : Tracks width buckets journal now) (clientIp : String) :
    current width ((buckets.lookup clientIp).map Bucket.toWindow) now =
      current width (journal clientIp) now := by
  rcases h clientIp with hSame | ⟨hGone, window, hWindow, hPassed⟩
  · rw [hSame]
  · rw [hGone, hWindow, current_of_passed hPassed]
    rfl

theorem Tracks.eraseIf (h : Tracks width buckets journal now) {erased : Bucket → Bool}
    (hErased : ∀ bucket, erased bucket = true → width ≤ now - bucket.windowStart) :
    Tracks width (buckets.eraseIf erased) journal now := by
  intro clientIp
  rw [Buckets.lookup_eraseIf]
  rcases h clientIp with hSame | ⟨hGone, hWindow⟩
  · cases hFound : buckets.lookup clientIp with
    | none =>
      rw [hFound] at hSame
      exact .inl hSame
    | some bucket =>
      rw [hFound] at hSame
      cases hKept : erased bucket with
      | false =>
        left
        rw [Option.filter_some, hKept]
        exact hSame
      | true =>
        right
        rw [Option.filter_some, hKept]
        exact ⟨rfl, bucket.toWindow, hSame.symm, hErased bucket hKept⟩
  · right
    rw [hGone]
    exact ⟨rfl, hWindow⟩

theorem Tracks.insert (h : Tracks width buckets journal now) (clientIp : String) (bucket : Bucket) :
    Tracks width (buckets.insert clientIp bucket)
      (Function.update journal clientIp (some bucket.toWindow)) now := by
  intro other
  by_cases hOther : other = clientIp
  · subst hOther
    left
    rw [AList.lookup_insert, Function.update_self]
    rfl
  · rw [AList.lookup_insert_ne hOther, Function.update_of_ne hOther]
    exact h other

/-! ## Runs -/

structure ClientCall where
  clientIp : String
  begin : Nat
  now : Int
  deriving DecidableEq, Repr

def ClientCall.visit (call : ClientCall) : String × Int := (call.clientIp, call.now)

def after (limiter : RateLimiter) (calls : List ClientCall) : RateLimiter :=
  calls.foldl (fun limiter call => (limiter.check call.clientIp call.begin call.now).2) limiter

/-- The decision on a call after some others. -/
def decision (limiter : RateLimiter) (earlier : List ClientCall) (call : ClientCall) : RateLimitDecision :=
  ((limiter.after earlier).check call.clientIp call.begin call.now).1

def idealAfter (maxRequests : Nat) (window : Int) (calls : List ClientCall) : Journal String :=
  calls.foldl (fun journal call => (idealCheck maxRequests window journal call.clientIp call.now).2) .blank

def idealDecision (maxRequests : Nat) (window : Int) (earlier : List ClientCall) (call : ClientCall) :
    RateLimitDecision :=
  (idealCheck maxRequests window (idealAfter maxRequests window earlier) call.clientIp call.now).1

/-- The clock does not go back. -/
def Ordered (calls : List ClientCall) : Prop := (calls.map ClientCall.now).Pairwise (· ≤ ·)

def clients (calls : List ClientCall) : Finset String := (calls.map ClientCall.clientIp).toFinset

variable {calls earlier : List ClientCall} {call : ClientCall}

theorem after_concat (limiter : RateLimiter) (calls : List ClientCall) (call : ClientCall) :
    limiter.after (calls ++ [call]) =
      ((limiter.after calls).check call.clientIp call.begin call.now).2 := List.foldl_concat _ _ _ _

theorem idealAfter_eq {maxRequests : Nat} (hLimit : maxRequests ≠ 0) (window : Int)
    (calls : List ClientCall) : idealAfter maxRequests window calls =
      .run maxRequests (seconds window) (calls.map ClientCall.visit) := by
  unfold idealAfter Journal.run
  rw [List.foldl_map]
  unfold idealCheck
  simp only [if_neg hLimit]
  rfl

theorem clients_concat (calls : List ClientCall) (call : ClientCall) :
    clients (calls ++ [call]) = insert call.clientIp (clients calls) := by
  unfold clients
  rw [List.map_append, List.toFinset_append, Finset.union_comm]
  rfl

theorem Ordered.prefix (h : Ordered (earlier ++ calls)) : Ordered earlier := by
  unfold Ordered at h
  rw [List.map_append] at h
  exact (List.pairwise_append.mp h).1

theorem Ordered.le (h : Ordered (earlier ++ [call])) : ∀ other ∈ earlier, other.now ≤ call.now := by
  unfold Ordered at h
  rw [List.map_append] at h
  intro other hOther
  exact (List.pairwise_append.mp h).2.2 _ (List.mem_map_of_mem hOther) _ List.mem_cons_self

/-- No count of nanoseconds in these calls leaves its 64 bits: not twice the window, not a reading
of the clock less twice the window, and not the time between two readings. -/
structure WithinClock (window : Int) (calls : List ClientCall) : Prop where
  doubled : seconds (window * 2) < 2 ^ 63
  readings : ∀ call ∈ calls, -2 ^ 63 + seconds (window * 2) ≤ call.now ∧ call.now < 2 ^ 63
  spans : ∀ earlier ∈ calls, ∀ later ∈ calls, later.now - earlier.now < 2 ^ 63

/-- A clock that starts from zero has room for every window of up to 4611686018 seconds. -/
theorem withinClock_of_nonneg {window : Int} (hWindow : window ≤ 4611686018)
    (hCalls : ∀ call ∈ calls, 0 ≤ call.now ∧ call.now < 2 ^ 63) : WithinClock window calls where
  doubled := by
    unfold seconds
    omega
  readings call hCall := by
    have hReading := hCalls call hCall
    unfold seconds
    omega
  spans first hFirst last hLast := by
    have hStart := hCalls first hFirst
    have hEnd := hCalls last hLast
    omega

/-- Calls at which a limiter has room for all of its clients, and its clock for all times. -/
structure Undisturbed (limiter : RateLimiter) (calls : List ClientCall) : Prop where
  ordered : Ordered calls
  room : (clients calls).card ≤ limiter.maxBuckets
  clock : WithinClock limiter.window calls

theorem clients_subset {others : List ClientCall} (h : ∀ call ∈ calls, call ∈ others) :
    (clients calls).card ≤ (clients others).card := by
  apply Finset.card_le_card
  intro clientIp hMem
  obtain ⟨call, hCall, hSame⟩ := List.mem_map.mp (List.mem_toFinset.mp hMem)
  exact List.mem_toFinset.mpr (List.mem_map.mpr ⟨call, h call hCall, hSame⟩)

theorem Undisturbed.sublist (h : Undisturbed limiter calls) (hSublist : earlier.Sublist calls) :
    Undisturbed limiter earlier where
  ordered := List.Pairwise.sublist (hSublist.map _) h.ordered
  room := (clients_subset (fun _ hCall => hSublist.subset hCall)).trans h.room
  clock :=
    { doubled := h.clock.doubled
      readings := fun call hCall => h.clock.readings call (hSublist.subset hCall)
      spans := fun first hFirst last hLast =>
        h.clock.spans first (hSublist.subset hFirst) last (hSublist.subset hLast) }

theorem Undisturbed.prefix (h : Undisturbed limiter (earlier ++ calls)) : Undisturbed limiter earlier :=
  h.sublist (List.sublist_append_left _ _)

/-- A check does not change what the limiter was made with. -/
theorem check_settings (limiter : RateLimiter) (clientIp : String) (begin : Nat) (now : Int) :
    (limiter.check clientIp begin now).2.maxRequests = limiter.maxRequests ∧
      (limiter.check clientIp begin now).2.window = limiter.window ∧
      (limiter.check clientIp begin now).2.maxBuckets = limiter.maxBuckets := by
  unfold check
  split
  · exact ⟨rfl, rfl, rfl⟩
  · simp only
    split <;> split <;> split <;>
      exact ⟨cleanupLocked_maxRequests _ _, cleanupLocked_window _ _, cleanupLocked_maxBuckets _ _⟩

theorem after_settings (limiter : RateLimiter) (calls : List ClientCall) :
    (limiter.after calls).maxRequests = limiter.maxRequests ∧
      (limiter.after calls).window = limiter.window ∧
      (limiter.after calls).maxBuckets = limiter.maxBuckets := by
  induction calls using List.reverseRecOn with
  | nil => exact ⟨rfl, rfl, rfl⟩
  | append_singleton calls call ih =>
    obtain ⟨hRequests, hWindow, hBuckets⟩ := check_settings (limiter.after calls) call.clientIp
      call.begin call.now
    rw [after_concat]
    exact ⟨hRequests.trans ih.1, hWindow.trans ih.2.1, hBuckets.trans ih.2.2⟩

/-- Every check is counted, in 64 bits. -/
theorem after_checkCount (hLimit : limiter.maxRequests ≠ 0) (hCount : limiter.checkCount < 2 ^ 64) :
    (limiter.after calls).checkCount = (limiter.checkCount + calls.length) % 2 ^ 64 := by
  induction calls using List.reverseRecOn with
  | nil => exact (Nat.mod_eq_of_lt hCount).symm
  | append_singleton calls call ih =>
    have hRequests : (limiter.after calls).maxRequests ≠ 0 := (after_settings limiter calls).1 ▸ hLimit
    rw [after_concat, check_eq hRequests rfl rfl, List.length_append, List.length_singleton]
    change ((limiter.after calls).cleanupLocked call.now).checkCount = _
    rw [cleanupLocked_checkCount, ih]
    omega

theorem width_after (limiter : RateLimiter) (calls : List ClientCall) :
    (limiter.after calls).width = limiter.width := by
  unfold RateLimiter.width
  rw [(after_settings limiter calls).2.1]

/-! ## Within the clock -/

/-- Two windows fit into the clock, so one does. -/
theorem WithinClock.width_lt (h : WithinClock limiter.window calls) : limiter.width < 2 ^ 63 := by
  have hDoubled := h.doubled
  have hWindow := limiter.windowPositive
  unfold seconds at hDoubled
  unfold RateLimiter.width seconds
  omega

theorem WithinClock.nanoseconds_window (h : WithinClock limiter.window calls) :
    nanoseconds limiter.window = limiter.width :=
  nanoseconds_of_fits limiter.windowPositive.le h.width_lt

theorem WithinClock.staleBefore (h : WithinClock limiter.window calls) (hCall : call ∈ calls) :
    int64 (call.now - nanoseconds (int64 (limiter.window * 2))) = call.now - seconds (limiter.window * 2) := by
  have hDoubled := h.doubled
  have hWindow := limiter.windowPositive
  have hReading := h.readings call hCall
  have hWord : int64 (limiter.window * 2) = limiter.window * 2 := by
    unfold seconds at hDoubled
    exact int64_of_fits (by omega) (by omega)
  rw [hWord, nanoseconds_of_fits (by omega) hDoubled]
  unfold seconds at hReading ⊢
  exact int64_of_fits (by omega) (by omega)

/-- The time since an earlier call. -/
theorem Undisturbed.since (h : Undisturbed limiter (calls ++ [call])) {other : ClientCall} (hOther : other ∈ calls) :
    other.now ≤ call.now ∧ call.now - other.now < 2 ^ 63 := by
  refine ⟨h.ordered.le other hOther, ?_⟩
  exact h.clock.spans other (List.mem_append_left _ hOther) call
    (List.mem_append_right _ (List.mem_singleton_self call))

/-- A bucket that is found or begun is the window of the ideal limiter. -/
theorem toWindow_opened {kept : Option Bucket}
    (hKept : ∀ bucket ∈ kept, bucket.windowStart ≤ now ∧ now - bucket.windowStart < 2 ^ 63) :
    (opened width kept now).toWindow = current width (kept.map Bucket.toWindow) now := by
  cases kept with
  | none => rfl
  | some bucket =>
    obtain ⟨hPast, hSpan⟩ := hKept bucket rfl
    have hWord : int64 (now - bucket.windowStart) = now - bucket.windowStart := int64_of_fits (by omega) hSpan
    unfold opened current
    simp only [Option.map_some, hWord]
    exact apply_ite Bucket.toWindow _ _ _

theorem opened_windowStart (width : Int) (kept : Option Bucket) (now : Int) :
    (opened width kept now).windowStart = now ∨
      ∃ bucket ∈ kept, (opened width kept now).windowStart = bucket.windowStart := by
  cases kept with
  | none => exact .inl rfl
  | some bucket =>
    unfold opened
    dsimp only
    split
    · exact .inl rfl
    · exact .inr ⟨bucket, rfl, rfl⟩

/-- The decision on a bucket is the ideal one. -/
theorem answer_eq_ideal {bucket : Bucket} (hWidth : 0 < width ∧ width < 2 ^ 63)
    (hBucket : bucket.windowStart ≤ now ∧ now - bucket.windowStart < 2 ^ 63) (maxRequests : Nat) :
    answer maxRequests width bucket now = idealAnswer maxRequests width bucket.toWindow now := by
  unfold answer idealAnswer Bucket.toWindow
  dsimp only
  rw [int64_of_fits (n := now - bucket.windowStart) (by omega) (by omega),
    int64_of_fits (by omega) (by omega)]

theorem lookup_of_cleanupLocked {bucket : Bucket}
    (h : (limiter.cleanupLocked now).buckets.lookup clientIp = some bucket) :
    limiter.buckets.lookup clientIp = some bucket := by
  rcases cleanupLocked_buckets limiter now with hSame | hErased
  · rw [hSame] at h
    exact h
  · rw [hErased, Buckets.lookup_eraseIf, Option.filter_eq_some_iff] at h
    exact h.1

theorem Tracks.cleanupLocked (h : Tracks limiter.width limiter.buckets journal call.now)
    (hClock : WithinClock limiter.window calls) (hCall : call ∈ calls) :
    Tracks limiter.width (limiter.cleanupLocked call.now).buckets journal call.now := by
  rcases cleanupLocked_buckets limiter call.now with hSame | hErased
  · rw [hSame]
    exact h
  · rw [hErased, hClock.staleBefore hCall]
    apply h.eraseIf
    intro bucket hStale
    rw [decide_eq_true_eq] at hStale
    have hWindow := limiter.windowPositive
    unfold RateLimiter.width seconds
    unfold seconds at hStale
    omega

/-! ## Accurate buckets -/

/-- The buckets of a limiter with room for its clients. -/
structure Accurate (limiter : RateLimiter) (calls : List ClientCall) (now : Int) : Prop where
  tracks : Tracks limiter.width (limiter.after calls).buckets
    (.run limiter.maxRequests limiter.width (calls.map ClientCall.visit)) now
  known : ∀ clientIp ∈ (limiter.after calls).buckets, clientIp ∈ clients calls
  started : ∀ clientIp bucket, (limiter.after calls).buckets.lookup clientIp = some bucket →
    ∃ call ∈ calls, bucket.windowStart = call.now

theorem Accurate.known_cleaned (h : Accurate limiter calls now)
    (hMem : clientIp ∈ ((limiter.after calls).cleanupLocked now).buckets) : clientIp ∈ clients calls := by
  rw [← AList.lookup_isSome, Option.isSome_iff_exists] at hMem
  obtain ⟨bucket, hFound⟩ := hMem
  apply h.known
  rw [← AList.lookup_isSome, lookup_of_cleanupLocked hFound]
  rfl

/-- There is room for the client of the next call. -/
theorem Accurate.room (h : Accurate limiter calls call.now) (hCalls : Undisturbed limiter (calls ++ [call]))
    (hNew : call.clientIp ∉ ((limiter.after calls).cleanupLocked call.now).buckets) :
    ((limiter.after calls).cleanupLocked call.now).buckets.size < (limiter.after calls).maxBuckets := by
  have hClients := hCalls.room
  rw [(after_settings limiter calls).2.2]
  rw [clients_concat] at hClients
  exact (Buckets.size_lt (fun _ hMem => h.known_cleaned hMem) hNew).trans_le hClients

/-- A bucket that the next call finds began within the reach of the clock. -/
theorem Accurate.begun (h : Accurate limiter calls call.now) (hCalls : Undisturbed limiter (calls ++ [call]))
    {bucket : Bucket}
    (hFound : ((limiter.after calls).cleanupLocked call.now).buckets.lookup clientIp = some bucket) :
    bucket.windowStart ≤ call.now ∧ call.now - bucket.windowStart < 2 ^ 63 := by
  obtain ⟨other, hOther, hStart⟩ := h.started _ _ (lookup_of_cleanupLocked hFound)
  rw [hStart]
  exact hCalls.since hOther

/-- One more call on accurate buckets. -/
theorem Accurate.check (h : Accurate limiter calls call.now) (hLimit : limiter.maxRequests ≠ 0)
    (hCalls : Undisturbed limiter (calls ++ [call])) :
    limiter.decision calls call = idealAnswer limiter.maxRequests limiter.width
      (FixedWindow.current limiter.width
        (Journal.run limiter.maxRequests limiter.width (calls.map ClientCall.visit) call.clientIp) call.now)
      call.now ∧
    (∃ bucket, (limiter.after (calls ++ [call])).buckets.lookup call.clientIp = some bucket ∧
      bucket.toWindow = FixedWindow.visit limiter.maxRequests limiter.width
        (Journal.run limiter.maxRequests limiter.width (calls.map ClientCall.visit) call.clientIp)
        call.now) ∧
    Accurate limiter (calls ++ [call]) call.now := by
  obtain ⟨hRequests, hWindow, -⟩ := after_settings limiter calls
  have hWidth := width_after limiter calls
  have hLast : call ∈ calls ++ [call] := List.mem_append_right _ (List.mem_singleton_self call)
  have hCleaned : Tracks limiter.width ((limiter.after calls).cleanupLocked call.now).buckets
      (.run limiter.maxRequests limiter.width (calls.map ClientCall.visit)) call.now := by
    have hTracks := h.tracks
    rw [← hWidth] at hTracks ⊢
    exact hTracks.cleanupLocked (hWindow ▸ hCalls.clock) hLast
  have hKept : ∀ bucket ∈ ((limiter.after calls).cleanupLocked call.now).buckets.lookup call.clientIp,
      bucket.windowStart ≤ call.now ∧ call.now - bucket.windowStart < 2 ^ 63 :=
    fun bucket hFound => h.begun hCalls hFound
  have hCheck : (limiter.after calls).check call.clientIp call.begin call.now = _ :=
    check_of_room (hRequests ▸ hLimit) (h.room hCalls) rfl
  rw [hRequests, hWindow, hCalls.clock.nanoseconds_window] at hCheck
  have hOpened : (opened limiter.width _ call.now).toWindow = current limiter.width _ call.now :=
    toWindow_opened hKept
  rw [hCleaned.current call.clientIp] at hOpened
  have hStarts := opened_windowStart limiter.width
    (((limiter.after calls).cleanupLocked call.now).buckets.lookup call.clientIp) call.now
  generalize opened limiter.width (((limiter.after calls).cleanupLocked call.now).buckets.lookup call.clientIp)
    call.now = bucket at hCheck hOpened hStarts
  have hBegun : bucket.windowStart ≤ call.now ∧ call.now - bucket.windowStart < 2 ^ 63 := by
    rcases hStarts with hNow | ⟨kept, hFound, hSame⟩
    · rw [hNow]
      omega
    · rw [hSame]
      exact hKept kept hFound
  have hVisited : (bucket.take limiter.maxRequests).toWindow = FixedWindow.visit limiter.maxRequests limiter.width
      (Journal.run limiter.maxRequests limiter.width (calls.map ClientCall.visit) call.clientIp) call.now := by
    rw [Bucket.toWindow_take, hOpened]
    rfl
  refine ⟨?_, ⟨bucket.take limiter.maxRequests, ?_, hVisited⟩, ?_⟩
  · unfold decision
    rw [hCheck, ← hOpened]
    exact answer_eq_ideal ⟨limiter.width_pos, hCalls.clock.width_lt⟩ hBegun _
  · rw [after_concat, hCheck]
    exact AList.lookup_insert _
  · constructor
    · rw [after_concat, hCheck, List.map_append, List.map_singleton, Journal.run_concat]
      have hInserted := hCleaned.insert call.clientIp (bucket.take limiter.maxRequests)
      rw [hVisited] at hInserted
      exact hInserted
    · intro clientIp hMem
      rw [after_concat, hCheck, AList.mem_insert] at hMem
      rw [clients_concat, Finset.mem_insert]
      rcases hMem with hOwn | hOther
      · exact .inl hOwn
      · exact .inr (h.known_cleaned hOther)
    · intro clientIp found hFound
      rw [after_concat, hCheck] at hFound
      have hEarlier : ∀ other kept, ((limiter.after calls).cleanupLocked call.now).buckets.lookup other = some kept →
          ∃ earlier ∈ calls ++ [call], kept.windowStart = earlier.now := by
        intro other kept hLookup
        obtain ⟨earlier, hMem, hStart⟩ := h.started _ _ (lookup_of_cleanupLocked hLookup)
        exact ⟨earlier, List.mem_append_left _ hMem, hStart⟩
      by_cases hOwn : clientIp = call.clientIp
      · subst hOwn
        rw [AList.lookup_insert, Option.some.injEq] at hFound
        rw [← hFound, Bucket.take_windowStart]
        rcases hStarts with hNow | ⟨kept, hKeptFound, hSame⟩
        · exact ⟨call, hLast, hNow⟩
        · rw [hSame]
          exact hEarlier _ kept hKeptFound
      · rw [AList.lookup_insert_ne hOwn] at hFound
        exact hEarlier _ found hFound

theorem accurate_after (hEmpty : limiter.buckets = ∅) (hLimit : limiter.maxRequests ≠ 0)
    (hCalls : Undisturbed limiter (calls ++ [call])) : Accurate limiter calls call.now := by
  induction calls using List.reverseRecOn generalizing call with
  | nil =>
    have hNone : ∀ clientIp, (limiter.after []).buckets.lookup clientIp = none := by
      intro clientIp
      change limiter.buckets.lookup clientIp = none
      rw [hEmpty, AList.lookup_empty]
    constructor
    · intro clientIp
      left
      rw [hNone]
      rfl
    · intro clientIp hMem
      rw [← AList.lookup_isSome, hNone] at hMem
      cases hMem
    · intro clientIp bucket hFound
      rw [hNone] at hFound
      cases hFound
  | append_singleton calls last ih =>
    obtain ⟨-, -, hAccurate⟩ := (ih hCalls.prefix).check hLimit hCalls.prefix
    have hLast : last.now ≤ call.now :=
      (hCalls.since (List.mem_append_right _ (List.mem_singleton_self last))).1
    exact ⟨hAccurate.tracks.mono hLast, hAccurate.known, hAccurate.started⟩

/-- What a limiter decides, it reads from the window of the client. -/
theorem decision_eq (hEmpty : limiter.buckets = ∅) (hLimit : limiter.maxRequests ≠ 0)
    (hCalls : Undisturbed limiter (calls ++ [call])) :
    limiter.decision calls call = idealAnswer limiter.maxRequests limiter.width
      (FixedWindow.current limiter.width (ledger limiter.maxRequests limiter.width
        (timesOf call.clientIp (calls.map ClientCall.visit))).kept call.now) call.now := by
  have hAccurate := accurate_after hEmpty hLimit hCalls
  rw [(hAccurate.check hLimit hCalls).1, Journal.run_apply]

theorem decision_unlimited (hLimit : limiter.maxRequests = 0) (calls : List ClientCall)
    (call : ClientCall) : limiter.decision calls call = ⟨true, 0, 0, 0⟩ := by
  unfold decision check
  rw [if_pos ((after_settings limiter calls).1.trans hLimit)]

def ownCalls (clientIp : String) (calls : List ClientCall) : List ClientCall :=
  calls.filter (fun call => call.clientIp = clientIp)

theorem timesOf_visits (clientIp : String) (calls : List ClientCall) :
    timesOf clientIp (calls.map ClientCall.visit) = (ownCalls clientIp calls).map ClientCall.now := by
  unfold timesOf ownCalls
  induction calls with
  | nil => rfl
  | cons call calls ih =>
    rw [List.map_cons, List.filterMap_cons, List.filter_cons, ih]
    by_cases hOwn : call.clientIp = clientIp <;> simp [hOwn, ClientCall.visit]

theorem timesOf_ownCalls (clientIp : String) (calls : List ClientCall) :
    timesOf clientIp ((ownCalls clientIp calls).map ClientCall.visit) =
      timesOf clientIp (calls.map ClientCall.visit) := by
  rw [timesOf_visits, timesOf_visits]
  unfold ownCalls
  rw [List.filter_filter]
  simp only [Bool.and_self]

theorem make_ok {maxRequests : Nat} {window : Int} {maxBuckets : Nat}
    (h : make maxRequests window maxBuckets = .ok limiter) : limiter.maxRequests = maxRequests ∧
      limiter.window = window ∧ limiter.maxBuckets = maxBuckets ∧ limiter.buckets = ∅ := by
  unfold make at h
  split at h
  · cases h
  · split at h
    · cases h
    · cases h
      exact ⟨rfl, rfl, rfl, rfl⟩

/-- A limiter with room for its clients decides like the ideal one, and on every client as if
it had no other, as long as its times fit into the clock. -/
theorem cleanup_invisible {maxRequests : Nat} {window : Int} {maxBuckets : Nat}
    (hMake : make maxRequests window maxBuckets = .ok limiter) (hOrdered : Ordered (calls ++ [call]))
    (hClients : (clients (calls ++ [call])).card ≤ maxBuckets)
    (hClock : WithinClock window (calls ++ [call])) :
    limiter.decision calls call = idealDecision maxRequests window calls call ∧
      limiter.decision calls call = limiter.decision (ownCalls call.clientIp calls) call := by
  obtain ⟨rfl, rfl, rfl, hEmpty⟩ := make_ok hMake
  have hCalls : Undisturbed limiter (calls ++ [call]) := ⟨hOrdered, hClients, hClock⟩
  by_cases hLimit : limiter.maxRequests = 0
  · rw [decision_unlimited hLimit, decision_unlimited hLimit]
    unfold idealDecision idealCheck
    rw [if_pos hLimit]
    exact ⟨rfl, rfl⟩
  · rw [decision_eq hEmpty hLimit hCalls]
    constructor
    · unfold idealDecision idealCheck
      rw [if_neg hLimit, idealAfter_eq hLimit, Journal.run_apply]
      rfl
    · have hOwn : Undisturbed limiter (ownCalls call.clientIp calls ++ [call]) :=
        hCalls.sublist (List.filter_sublist.append (List.Sublist.refl _))
      rw [decision_eq hEmpty hLimit hOwn, timesOf_ownCalls]

/-! ## A pass over the buckets -/

def firstCall : ClientCall := ⟨"192.0.2.1", 0, 0⟩

/-- The next check is the 1024th. The bucket of the first client is more than two windows old then,
that of the other one is not. -/
def busyMinutes : List ClientCall := firstCall :: List.replicate 1022 ⟨"192.0.2.2", 0, 20000000000⟩

def passingCall : ClientCall := ⟨"192.0.2.1", 0, 130000000000⟩

theorem busyMinutes_ordered : Ordered (busyMinutes ++ [passingCall]) := by
  unfold Ordered busyMinutes
  rw [List.cons_append, List.map_cons, List.map_append, List.map_replicate, List.pairwise_cons, List.pairwise_append]
  refine ⟨?_, List.pairwise_replicate.mpr (.inr (le_refl _)), List.pairwise_singleton _ _, ?_⟩
  · intro later hLater
    rcases List.mem_append.mp hLater with hBusy | hPassing
    · rw [List.eq_of_mem_replicate hBusy]
      decide
    · rw [List.mem_singleton.mp hPassing]
      decide
  · intro busy hBusy passing hPassing
    rw [List.eq_of_mem_replicate hBusy, List.mem_singleton.mp hPassing]
    decide

theorem mem_busyMinutes {call : ClientCall} (h : call ∈ busyMinutes ++ [passingCall]) :
    call = firstCall ∨ call = ⟨"192.0.2.2", 0, 20000000000⟩ ∨ call = passingCall := by
  rcases List.mem_append.mp h with hBusy | hPassing
  · rcases List.mem_cons.mp hBusy with hFirst | hOther
    · exact .inl hFirst
    · exact .inr (.inl (List.eq_of_mem_replicate hOther))
  · exact .inr (.inr (List.mem_singleton.mp hPassing))

/-- The check makes a pass over the buckets, and its decision is none the less the ideal one. -/
theorem cleanup_invisible_sample : ∃ limiter, make 1 60 2 = .ok limiter ∧
    ((limiter.after busyMinutes).checkCount + 1) % 1024 = 0 ∧
    limiter.decision busyMinutes passingCall = idealDecision 1 60 busyMinutes passingCall ∧
    limiter.decision busyMinutes passingCall = ⟨true, 1, 0, 0⟩ := by
  refine ⟨_, rfl, ?_, ?_⟩
  · rw [after_checkCount (by decide) (by decide), busyMinutes, List.length_cons, List.length_replicate]
    decide
  have hClients : (clients (busyMinutes ++ [passingCall])).card ≤ 2 := by
    refine (Finset.card_le_card (t := {"192.0.2.1", "192.0.2.2"}) ?_).trans (by decide)
    intro clientIp hMem
    obtain ⟨call, hCall, rfl⟩ := List.mem_map.mp (List.mem_toFinset.mp hMem)
    rcases mem_busyMinutes hCall with rfl | rfl | rfl <;> decide
  have hClock : WithinClock 60 (busyMinutes ++ [passingCall]) := by
    apply withinClock_of_nonneg (by decide)
    intro call hCall
    rcases mem_busyMinutes hCall with rfl | rfl | rfl <;> decide
  obtain ⟨hIdeal, hOwn⟩ :=
    cleanup_invisible (rfl : make 1 60 2 = .ok _) busyMinutes_ordered hClients hClock
  refine ⟨hIdeal, hOwn.trans ?_⟩
  have hFirst : ownCalls passingCall.clientIp busyMinutes = [firstCall] := by decide +kernel
  rw [hFirst]
  rfl

/-- A window of 10^10 seconds, which the constructor accepts, is negative in nanoseconds, and every
check begins a new one. -/
theorem cleanup_invisible_overflow :
    ¬∀ (maxRequests : Nat) (window : Int) (maxBuckets : Nat) (limiter : RateLimiter) (calls : List ClientCall)
      (call : ClientCall), make maxRequests window maxBuckets = .ok limiter → Ordered (calls ++ [call]) →
        (clients (calls ++ [call])).card ≤ maxBuckets →
          limiter.decision calls call = idealDecision maxRequests window calls call := by
  intro h
  have hSame := h 1 10000000000 1 _ [firstCall] firstCall rfl (by unfold Ordered; decide) (by decide)
  have hAllowed := congrArg RateLimitDecision.allowed hSame
  revert hAllowed
  decide +kernel

end RateLimiter

end SecureCore

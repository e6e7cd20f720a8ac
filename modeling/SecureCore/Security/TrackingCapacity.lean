import SecureCore.Bounded.Contents
import SecureCore.Http.BucketCapacity
import SecureCore.Security.RetryAfter

/-! # The capacity of the protector

The two maps stay within their capacities, whatever entry a map yields first when it has
to give one up, and a call decides from the entries of its own keys. -/

namespace SecureCore

set_option autoImplicit false

open Bounded

namespace FailureStates

variable {states others : FailureStates} {key k : String} {state : FailureState}

def contents (states : FailureStates) : Contents String FailureState where
  find := states.find
  keys := (states.map Prod.fst).toFinset
  mem_keys k := by
    rw [List.mem_toFinset]
    cases hFind : states.find k with
    | some state => exact iff_of_true (mem_keys_of_find hFind) rfl
    | none => exact iff_of_false (not_mem_keys_of_find hFind) Bool.false_ne_true

@[simp] theorem contents_find (states : FailureStates) : states.contents.find = states.find := rfl

theorem Keyed.contents_size (h : states.Keyed) : states.contents.size = states.length := by
  rw [← List.length_map (f := Prod.fst)]
  exact List.toFinset_card_of_nodup h

theorem Keyed.find_eq_some_iff (h : states.Keyed) :
    states.find k = some state ↔ (k, state) ∈ states := by
  constructor
  · exact mem_of_find
  · intro hMem
    induction states with
    | nil => cases hMem
    | cons entry states ih =>
      unfold Keyed at h ih
      rw [List.map_cons, List.nodup_cons] at h
      rw [find_cons]
      rcases List.mem_cons.mp hMem with rfl | hMem
      · rw [if_pos rfl]
      · rw [if_neg, ih h.2 hMem]
        intro hSame
        rw [hSame] at h
        exact h.1 (List.mem_map.mpr ⟨(k, state), hMem, rfl⟩)

/-- The order of the entries does not matter to a lookup. -/
theorem Keyed.find_perm (h : states.Keyed) (hPerm : others.Perm states) (k : String) :
    others.find k = states.find k := by
  have hOthers : others.Keyed := (hPerm.map Prod.fst).nodup_iff.mpr h
  apply Option.ext
  intro state
  rw [hOthers.find_eq_some_iff, h.find_eq_some_iff, hPerm.mem_iff]

theorem drops_filter (h : states.Keyed) (p : FailureState → Bool) :
    Drops states.contents (contents (states.filter (fun entry => p entry.2))) := by
  intro k
  rw [contents_find, contents_find, find_filter h]
  cases states.find k with
  | none => exact .inl rfl
  | some state =>
    rw [Option.filter_some]
    split
    · exact .inl rfl
    · exact .inr rfl

end FailureStates

namespace AuthAbuseProtector

variable {config : AuthAbuseConfig} {states : FailureStates} {key : String}

/-! ## One map -/

theorem recordFailureKey_visit (hKeyed : states.Keyed) (config : AuthAbuseConfig) (key : String)
    {maximumSize : Nat} (hPositive : 0 < maximumSize) (failureLimit : Nat) (order : List String)
    (now : Int) :
    ∃ evicted, Visit maximumSize key evicted states.contents
      (recordFailureKey config states key maximumSize failureLimit order now).2.contents := by
  by_cases hRoom : (states.find key).isSome = true ∨ states.length < maximumSize
  · refine ⟨none, ?_, (fun _ hNone => nomatch hNone), ?_⟩
    · intro k hk
      rw [FailureStates.contents_find, recordFailureKey_find hRoom, if_neg (fun h => hk h.symm)]
      rfl
    · intro _
      rw [Contents.mem_keys, hKeyed.contents_size]
      rcases hRoom with hKnown | hFree
      · exact .inl hKnown
      · exact .inr (.inl hFree)
  · rw [not_or, Bool.not_eq_true, Option.isSome_eq_false_iff, Option.isNone_iff_eq_none,
      Nat.not_lt] at hRoom
    obtain ⟨hNew, hFull⟩ := hRoom
    cases states with
    | nil =>
      rw [List.length_nil] at hFull
      omega
    | cons entry rest =>
      -- the entry that the map yields first is the one that goes
      have hTail : ensureCapacity (entry :: rest) key maximumSize = rest := by
        unfold ensureCapacity
        rw [hNew, if_neg]
        · rfl
        · simp only [Option.isSome_none, Bool.false_or, decide_eq_true_eq]
          omega
      have hOther : entry.1 ≠ key := by
        intro hSame
        rw [FailureStates.find_cons, if_pos hSame] at hNew
        cases hNew
      have hGone : FailureStates.find rest entry.1 = none :=
        FailureStates.find_eq_none (List.nodup_cons.mp hKeyed).1
      refine ⟨some entry.1, ?_, ?_, (fun hNone => nomatch hNone)⟩
      · intro k hk
        rw [FailureStates.contents_find, recordFailureKey_entry, if_neg (fun h => hk h.symm), hTail,
          FailureStates.contents_find, FailureStates.find_cons]
        by_cases hEvicted : entry.1 = k
        · rw [if_pos (congrArg some hEvicted), ← hEvicted, hGone]
        · rw [if_neg (fun h => hEvicted (Option.some.inj h)), if_neg hEvicted]
      · intro victim hVictim
        cases hVictim
        refine ⟨hOther, ?_, ?_, ?_⟩
        · rw [Contents.mem_keys, FailureStates.contents_find, FailureStates.find_cons, if_pos rfl]
          rfl
        · rw [Contents.not_mem_keys]
          exact hNew
        · rw [hKeyed.contents_size]
          exact hFull

theorem checkKey_visit (config : AuthAbuseConfig) (states : FailureStates) (key : String)
    (maximumSize : Nat) (now : Int) :
    Visit maximumSize key none states.contents (checkKey config states key now).2.contents := by
  apply Visit.of_others
  · intro k hk
    rw [FailureStates.contents_find, checkKey_find, if_neg (fun h => hk h.symm)]
    rfl
  · intro hMem
    rw [Contents.mem_keys, FailureStates.contents_find, checkKey_find, if_pos rfl] at hMem
    rw [Contents.mem_keys]
    rw [Option.isSome_map] at hMem
    exact hMem

theorem erase_visit (states : FailureStates) (key : String) (maximumSize : Nat) :
    Visit maximumSize key none states.contents (states.erase key).contents := by
  apply Visit.of_others
  · intro k hk
    rw [FailureStates.contents_find, FailureStates.find_erase, if_neg hk]
    rfl
  · intro hMem
    rw [Contents.mem_keys, FailureStates.contents_find, FailureStates.find_erase, if_pos rfl] at hMem
    cases hMem

end AuthAbuseProtector

/-! ## Calls -/

namespace ProtectorCall

open AuthAbuseProtector

def key (d : Dimension) : ProtectorCall → String
  | check login clientIp _ => d.key login clientIp
  | recordFailure login clientIp _ _ _ => d.key login clientIp
  | recordSuccess login clientIp => d.key login clientIp

/-- The protector when the call looks its keys up. -/
def pruned (protector : AuthAbuseProtector) : ProtectorCall → AuthAbuseProtector
  | check _ _ now => protector.pruneIfNeeded now
  | recordFailure _ _ _ _ now => protector.pruneIfNeeded now
  | recordSuccess _ _ => protector

end ProtectorCall

namespace AuthAbuseProtector

variable {protector other first : AuthAbuseProtector} {config : AuthAbuseConfig}

theorem drops_pruneIfNeeded (hKeyed : protector.Keyed) (now : Int) (d : Dimension) :
    Drops (protector.states d).contents ((protector.pruneIfNeeded now).states d).contents := by
  rw [pruneIfNeeded_states]
  split
  · exact FailureStates.drops_filter (hKeyed d) (fun state => !stale protector.config now state)
  · exact Drops.refl _

theorem call_step (hKeyed : protector.Keyed) (hPositive : ∀ d : Dimension, 0 < d.capacity protector.config)
    (call : ProtectorCall) (d : Dimension) :
    Step (d.capacity protector.config) (call.key d) (protector.states d).contents
      ((call.pruned protector).states d).contents ((call.after protector).states d).contents := by
  cases call with
  | check login clientIp now =>
    refine ⟨drops_pruneIfNeeded hKeyed now d, none, ?_⟩
    change Visit _ _ none _ ((protector.check login clientIp now).2.states d).contents
    rw [check_states]
    exact checkKey_visit _ _ _ _ now
  | recordFailure login clientIp accountOrder ipOrder now =>
    refine ⟨drops_pruneIfNeeded hKeyed now d, ?_⟩
    change ∃ evicted, Visit _ _ evicted _
      ((protector.recordFailure login clientIp accountOrder ipOrder now).2.states d).contents
    rw [recordFailure_states]
    exact recordFailureKey_visit (hKeyed.pruneIfNeeded now d) _ _ (hPositive d) _ _ now
  | recordSuccess login clientIp =>
    refine ⟨Drops.refl _, none, ?_⟩
    change Visit _ _ none _ ((protector.recordSuccess login).states d).contents
    rw [recordSuccess_states protector login clientIp]
    split
    · exact erase_visit _ _ _
    · exact Visit.of_others (fun _ _ => rfl) id

/-- The two decisions that check puts together. -/
def checkDecision (account ip : AuthAbuseDecision) : AuthAbuseDecision :=
  if account.allowed && ip.allowed then .allow
  else ⟨false, max account.retryAfterSeconds ip.retryAfterSeconds, false⟩

/-- What check decides from the entry of a key. -/
def checkOf (protector : AuthAbuseProtector) (entry : Option FailureState) (now : Int) : AuthAbuseDecision :=
  match entry with
  | none => .allow
  | some state => (checkState protector.config state now).1

theorem checkKey_checkOf (states : FailureStates) (key : String) (now : Int) :
    (checkKey protector.config states key now).1 = protector.checkOf (states.find key) now := by
  unfold checkKey checkOf
  cases states.find key with
  | none => rfl
  | some state => rfl

theorem check_joins (protector : AuthAbuseProtector) (login clientIp : String) (now : Int) :
    (protector.check login clientIp now).1 = checkDecision
      (protector.checkOf ((protector.pruneIfNeeded now).entry .account (normalizeLogin login)) now)
      (protector.checkOf ((protector.pruneIfNeeded now).entry .ip (normalizeIp clientIp)) now) := by
  unfold entry
  rw [← checkKey_checkOf, ← checkKey_checkOf, ← pruneIfNeeded_config protector now]
  rfl

/-- The two decisions that record_failure puts together. -/
def failureDecision (account ip : AuthAbuseDecision) : AuthAbuseDecision :=
  if account.allowed && ip.allowed then .allow
  else ⟨false, max account.retryAfterSeconds ip.retryAfterSeconds, account.newlyLocked || ip.newlyLocked⟩

/-- What record_failure makes of the state of its key. -/
def failureOf (protector : AuthAbuseProtector) (d : Dimension) (key : String) (now : Int) :
    AuthAbuseDecision × FailureState :=
  recordFailureState protector.config (((protector.pruneIfNeeded now).entry d key).getD .initial)
    (d.failureLimit protector.config) now

theorem recordFailure_decision (protector : AuthAbuseProtector) (login clientIp : String)
    (accountOrder ipOrder : List String) (now : Int) :
    (protector.recordFailure login clientIp accountOrder ipOrder now).1 =
      failureDecision (protector.failureOf .account (normalizeLogin login) now).1
        (protector.failureOf .ip (normalizeIp clientIp) now).1 := by
  have hAccount : (protector.failureOf .account (normalizeLogin login) now).1 =
      (recordFailureKey (protector.pruneIfNeeded now).config (protector.pruneIfNeeded now).accountStates
        (normalizeLogin login) (protector.pruneIfNeeded now).config.maximumTrackedAccounts
        (protector.pruneIfNeeded now).config.accountFailureLimit accountOrder now).1 := by
    rw [recordFailureKey_decision, pruneIfNeeded_config]
    rfl
  have hIp : (protector.failureOf .ip (normalizeIp clientIp) now).1 =
      (recordFailureKey (protector.pruneIfNeeded now).config (protector.pruneIfNeeded now).ipStates
        (normalizeIp clientIp) (protector.pruneIfNeeded now).config.maximumTrackedIps
        (protector.pruneIfNeeded now).config.ipFailureLimit ipOrder now).1 := by
    rw [recordFailureKey_decision, pruneIfNeeded_config]
    rfl
  rw [hAccount, hIp, recordFailure]
  generalize recordFailureKey _ (protector.pruneIfNeeded now).accountStates _ _ _ _ _ = account
  generalize recordFailureKey _ (protector.pruneIfNeeded now).ipStates _ _ _ _ _ = ip
  rfl

theorem recordFailure_entry (protector : AuthAbuseProtector) (login clientIp : String)
    (accountOrder ipOrder : List String) (now : Int) (d : Dimension) :
    (protector.recordFailure login clientIp accountOrder ipOrder now).2.entry d (d.key login clientIp) =
      some (protector.failureOf d (d.key login clientIp) now).2 := by
  unfold entry
  rw [recordFailure_states, recordFailureKey_entry, if_pos rfl]
  rfl

/-- A call decides from the entries of its own keys, and they follow from themselves. -/
theorem call_congr (hConfig : other.config = protector.config) (call : ProtectorCall)
    (hOwn : ∀ d, (call.pruned other).entry d (call.key d) = (call.pruned protector).entry d (call.key d)) :
    call.decision other = call.decision protector ∧
      ∀ d, (call.after other).entry d (call.key d) = (call.after protector).entry d (call.key d) := by
  cases call with
  | check login clientIp now =>
    have hAccount : (other.pruneIfNeeded now).entry .account (normalizeLogin login) =
        (protector.pruneIfNeeded now).entry .account (normalizeLogin login) := hOwn .account
    have hIp : (other.pruneIfNeeded now).entry .ip (normalizeIp clientIp) =
        (protector.pruneIfNeeded now).entry .ip (normalizeIp clientIp) := hOwn .ip
    constructor
    · change (other.check login clientIp now).1 = (protector.check login clientIp now).1
      rw [check_joins, check_joins, hAccount, hIp]
      unfold checkOf
      rw [hConfig]
    · intro d
      change (other.check login clientIp now).2.entry d (d.key login clientIp) =
        (protector.check login clientIp now).2.entry d (d.key login clientIp)
      have hEntry : (other.pruneIfNeeded now).entry d (d.key login clientIp) =
          (protector.pruneIfNeeded now).entry d (d.key login clientIp) := hOwn d
      rw [check_entry, check_entry, hEntry, hConfig]
  | recordFailure login clientIp accountOrder ipOrder now =>
    have hFailure : ∀ d : Dimension, other.failureOf d (d.key login clientIp) now =
        protector.failureOf d (d.key login clientIp) now := by
      intro d
      have hEntry : (other.pruneIfNeeded now).entry d (d.key login clientIp) =
          (protector.pruneIfNeeded now).entry d (d.key login clientIp) := hOwn d
      unfold failureOf
      rw [hEntry, hConfig]
    constructor
    · change (other.recordFailure login clientIp accountOrder ipOrder now).1 =
        (protector.recordFailure login clientIp accountOrder ipOrder now).1
      have hAccount : other.failureOf .account (normalizeLogin login) now =
          protector.failureOf .account (normalizeLogin login) now := hFailure .account
      have hIp : other.failureOf .ip (normalizeIp clientIp) now =
          protector.failureOf .ip (normalizeIp clientIp) now := hFailure .ip
      rw [recordFailure_decision, recordFailure_decision, hAccount, hIp]
    · intro d
      change (other.recordFailure login clientIp accountOrder ipOrder now).2.entry d (d.key login clientIp) =
        (protector.recordFailure login clientIp accountOrder ipOrder now).2.entry d (d.key login clientIp)
      rw [recordFailure_entry, recordFailure_entry, hFailure]
  | recordSuccess login clientIp =>
    refine ⟨rfl, ?_⟩
    intro d
    change ((other.recordSuccess login).states d).find (d.key login clientIp) =
      ((protector.recordSuccess login).states d).find (d.key login clientIp)
    rw [recordSuccess_states other login clientIp, recordSuccess_states protector login clientIp]
    split
    · rw [FailureStates.find_erase, FailureStates.find_erase, if_pos rfl, if_pos rfl]
    · exact hOwn d

/-! ## Runs -/

/-- The same entries, in the order in which the maps now yield them. -/
structure Reordered (protector other : AuthAbuseProtector) : Prop where
  config : other.config = protector.config
  operationCount : other.operationCount = protector.operationCount
  states : ∀ d, (other.states d).Perm (protector.states d)

inductive Reached (first : AuthAbuseProtector) : AuthAbuseProtector → Prop
  | first : Reached first first
  | call {protector other : AuthAbuseProtector} (call : ProtectorCall) (hBefore : Reached first protector)
      (hOrder : Reordered protector other) : Reached first (call.after other)

theorem Reordered.keyed (h : Reordered protector other) (hKeyed : protector.Keyed) : other.Keyed :=
  fun d => ((h.states d).map Prod.fst).nodup_iff.mpr (hKeyed d)

theorem Reordered.entry (h : Reordered protector other) (hKeyed : protector.Keyed) (d : Dimension)
    (key : String) : other.entry d key = protector.entry d key :=
  (hKeyed d).find_perm (h.states d) key

/-- What holds of the maps in every state reached. -/
structure WithinCapacity (config : AuthAbuseConfig) (protector : AuthAbuseProtector) : Prop where
  settings : protector.config = config
  keyed : protector.Keyed
  length : ∀ d, (protector.states d).length ≤ d.capacity config

theorem WithinCapacity.reordered (h : WithinCapacity config protector) (hOrder : Reordered protector other) :
    WithinCapacity config other := by
  refine ⟨hOrder.config.trans h.settings, hOrder.keyed h.keyed, ?_⟩
  intro d
  rw [(hOrder.states d).length_eq]
  exact h.length d

theorem WithinCapacity.after (h : WithinCapacity config protector)
    (hPositive : ∀ d : Dimension, 0 < d.capacity config) (call : ProtectorCall) :
    WithinCapacity config (call.after protector) := by
  have hKeyed := h.keyed.after call
  refine ⟨(after_config protector call).trans h.settings, hKeyed, ?_⟩
  intro d
  have hStep := call_step h.keyed (h.settings ▸ hPositive) call d
  rw [h.settings] at hStep
  rw [← (hKeyed d).contents_size]
  apply hStep.size_le
  rw [(h.keyed d).contents_size]
  exact h.length d

theorem make_eq_ok (h : make config = .ok first) :
    first = start config ∧ ∀ d : Dimension, 0 < d.capacity config := by
  unfold make at h
  split at h
  · cases h
  · split at h
    · cases h
    · split at h
      · cases h
      · cases h
        refine ⟨rfl, ?_⟩
        rintro (_ | _)
        · change 0 < config.maximumTrackedAccounts
          omega
        · change 0 < config.maximumTrackedIps
          omega

theorem Reached.withinCapacity (hMade : make config = .ok first) (h : Reached first protector) :
    WithinCapacity config protector := by
  obtain ⟨rfl, hPositive⟩ := make_eq_ok hMade
  induction h with
  | first =>
    refine ⟨rfl, run_keyed config [], ?_⟩
    rintro (_ | _) <;> exact Nat.zero_le _
  | call call hBefore hOrder ih => exact (ih.reordered hOrder).after hPositive call

/-- A run of calls is one in which the maps keep their orders between the calls. -/
theorem reached_run (config : AuthAbuseConfig) (calls : List ProtectorCall) :
    Reached (start config) (run config calls) := by
  induction calls using List.reverseRecOn with
  | nil => exact .first
  | append_singleton calls call ih =>
    rw [run_concat]
    exact .call call ih ⟨rfl, rfl, fun d => List.Perm.refl _⟩

end AuthAbuseProtector

/-! ## Both services -/

/-- The buckets are within their capacity, a check evicts at most one of them, for a new
client and from a full map, and it decides from the client's own. -/
structure RateLimiter.Contained (limiter : RateLimiter) : Prop where
  size : limiter.buckets.size ≤ limiter.maxBuckets
  step : ∀ clientIp begin now, Step limiter.maxBuckets clientIp limiter.buckets.contents
    (limiter.kept now).contents (limiter.check clientIp begin now).2.buckets.contents
  own : ∀ (other : RateLimiter) clientIp begin begin' now, other.maxRequests = limiter.maxRequests →
    other.window = limiter.window →
    (other.kept now).lookup clientIp = (limiter.kept now).lookup clientIp →
    (other.check clientIp begin' now).1 = (limiter.check clientIp begin now).1 ∧
      (other.check clientIp begin' now).2.buckets.lookup clientIp =
        (limiter.check clientIp begin now).2.buckets.lookup clientIp

/-- The same of the two maps of the protector, in whatever order they yield their entries. -/
structure AuthAbuseProtector.Contained (protector : AuthAbuseProtector) : Prop where
  size : ∀ d : Dimension, (protector.states d).length ≤ d.capacity protector.config
  step : ∀ other, Reordered protector other → ∀ (call : ProtectorCall) (d : Dimension),
    Step (d.capacity protector.config) (call.key d) (protector.states d).contents
      ((call.pruned other).states d).contents ((call.after other).states d).contents
  own : ∀ (other : AuthAbuseProtector) (call : ProtectorCall), other.config = protector.config →
    (∀ d, (call.pruned other).entry d (call.key d) = (call.pruned protector).entry d (call.key d)) →
    call.decision other = call.decision protector ∧
      ∀ d, (call.after other).entry d (call.key d) = (call.after protector).entry d (call.key d)

theorem RateLimiter.contained_of_size {limiter : RateLimiter}
    (h : limiter.buckets.size ≤ limiter.maxBuckets) : limiter.Contained where
  size := h
  step := check_step limiter
  own _ _ _ begin' _ hRequests hWindow hOwn := check_congr hRequests hWindow hOwn begin'

theorem AuthAbuseProtector.WithinCapacity.contained {config : AuthAbuseConfig}
    {protector : AuthAbuseProtector} (h : WithinCapacity config protector)
    (hPositive : ∀ d : Dimension, 0 < d.capacity config) : protector.Contained where
  size := by
    rw [h.settings]
    exact h.length
  step other hOrder call d := by
    have hOther := h.reordered hOrder
    have hStep := call_step hOther.keyed (hOther.settings ▸ hPositive) call d
    rw [hOther.settings] at hStep
    rw [h.settings]
    refine ⟨?_, hStep.2⟩
    intro key
    have hSame : (other.states d).contents.find key = (protector.states d).contents.find key :=
      hOrder.entry h.keyed d key
    rw [← hSame]
    exact hStep.1 key
  own _ call hConfig hOwn := call_congr hConfig call hOwn

/-- Neither service outgrows its configured capacity in any run, with any clients, logins
and times. -/
theorem bounded_memory :
    (∀ maxRequests window maxBuckets limiter,
      RateLimiter.make maxRequests window maxBuckets = .ok limiter →
      ∀ calls, (limiter.after calls).maxBuckets = maxBuckets ∧ (limiter.after calls).Contained) ∧
    ∀ config first, AuthAbuseProtector.make config = .ok first →
      ∀ protector, AuthAbuseProtector.Reached first protector →
        protector.config = config ∧ protector.Contained := by
  constructor
  · intro maxRequests window maxBuckets limiter hMade calls
    obtain ⟨-, -, hBuckets, hEmpty⟩ := RateLimiter.make_ok hMade
    have hStart : limiter.buckets.size ≤ limiter.maxBuckets := by
      rw [hEmpty]
      exact Nat.zero_le _
    have hSettings := (limiter.after_settings calls).2.2
    refine ⟨hSettings.trans hBuckets, RateLimiter.contained_of_size ?_⟩
    rw [hSettings]
    exact RateLimiter.after_size_le hStart calls
  · intro config first hMade protector hReached
    have hWithin := hReached.withinCapacity hMade
    exact ⟨hWithin.settings, hWithin.contained (AuthAbuseProtector.make_eq_ok hMade).2⟩

theorem bounded_memory_sample :
    (∃ limiter, RateLimiter.make 1 1 1 = .ok limiter ∧
      (limiter.after [⟨"192.0.2.1", 0, 0⟩, ⟨"192.0.2.2", 0, -5⟩]).Contained) ∧
    (AuthAbuseProtector.run Sample.limits [Sample.failure 10]).Contained := by
  constructor
  · exact ⟨_, rfl, (bounded_memory.1 1 1 1 _ rfl _).2⟩
  · exact (bounded_memory.2 Sample.limits _ rfl _ (AuthAbuseProtector.reached_run _ _)).2

end SecureCore

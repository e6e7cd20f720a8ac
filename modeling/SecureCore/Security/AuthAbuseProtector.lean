import SecureCore.Model.SteadyClock
import SecureCore.Model.Text
import Mathlib.Data.List.Sort

/-! # AuthAbuseProtector

Time points of the steady clock are in nanoseconds, and 0 is the value-initialised time
point. The configured durations are in seconds. -/

namespace SecureCore

set_option autoImplicit false

structure AuthAbuseConfig where
  accountFailureLimit : Nat
  ipFailureLimit : Nat
  failureWindow : Int
  baseLockout : Int
  maximumLockout : Int
  maximumTrackedAccounts : Nat
  maximumTrackedIps : Nat
  deriving DecidableEq, Repr

structure AuthAbuseDecision where
  allowed : Bool
  retryAfterSeconds : Nat
  newlyLocked : Bool
  deriving DecidableEq, Repr

namespace AuthAbuseDecision

/-- A value-initialised decision. -/
def allow : AuthAbuseDecision := ⟨true, 0, false⟩

end AuthAbuseDecision

structure FailureState where
  failures : Nat
  lockoutLevel : Nat
  windowStarted : Int
  lockedUntil : Int
  lastSeen : Int
  deriving DecidableEq, Repr

namespace FailureState

def initial : FailureState := ⟨0, 0, 0, 0, 0⟩

end FailureState

/-- The std::unordered_map of states; the list is in iteration order. -/
abbrev FailureStates := List (String × FailureState)

namespace FailureStates

def find (states : FailureStates) (key : String) : Option FailureState :=
  (states.find? (fun entry => entry.1 == key)).map Prod.snd

def store (states : FailureStates) (key : String) (state : FailureState) : FailureStates :=
  states.map (fun entry => if entry.1 == key then (key, state) else entry)

/-- The entries in the order in which `order` has their keys. -/
def rearrange (states : FailureStates) (order : List String) : FailureStates :=
  states.insertionSort (fun first second => order.idxOf first.1 ≤ order.idxOf second.1)

/-- `operator[]`: a missing key is added. The map may rehash then, and the order in which
it yields its entries is not specified, so `order` decides. -/
def findOrCreate (states : FailureStates) (key : String) (order : List String) : FailureStates :=
  if (states.find key).isSome then states
  else rearrange ((key, FailureState.initial) :: states) order

def erase (states : FailureStates) (key : String) : FailureStates :=
  states.filter (fun entry => entry.1 != key)

end FailureStates

structure AuthAbuseProtector where
  config : AuthAbuseConfig
  accountStates : FailureStates
  ipStates : FailureStates
  operationCount : Nat
  deriving DecidableEq, Repr

namespace AuthAbuseProtector

def ceilSeconds (duration : Int) : Nat :=
  if duration ≤ 0 then 0
  else
    let milliseconds := duration.tdiv 1000000
    let rounded := max 1 ((milliseconds + 999).tdiv 1000)
    if rounded > 4294967295 then 4294967295 else rounded.toNat

def normalizeLogin (login : String) : String :=
  let normalized := trimChars login.toList
  if normalized.isEmpty then "<empty>"
  else String.ofList (lowercaseChars (normalized.take 254))

def normalizeIp (clientIp : String) : String :=
  let normalized := trimChars clientIp.toList
  if normalized.isEmpty then "<unknown>" else String.ofList (normalized.take 128)

/-- The multiplier loop of lockout_duration: `steps` rounds are left. -/
def lockoutMultiplier (maximum : Nat) : Nat → Nat → Nat
  | 0, multiplier => multiplier
  | steps + 1, multiplier =>
    if multiplier ≥ maximum then multiplier
    else lockoutMultiplier maximum steps (multiplier * 2 % 2 ^ 64)

/-- Conversion of a signed 64-bit count to an unsigned one. -/
def toUint64 (n : Int) : Nat := (n % 2 ^ 64).toNat

def lockoutDuration (config : AuthAbuseConfig) (level : Nat) : Nat :=
  let multiplier := lockoutMultiplier (toUint64 config.maximumLockout) (level - 1) 1
  let base := toUint64 config.baseLockout
  let maximum := toUint64 config.maximumLockout
  min maximum (if base > maximum / multiplier then maximum else base * multiplier % 2 ^ 64)

def checkState (config : AuthAbuseConfig) (state : FailureState) (now : Int) :
    AuthAbuseDecision × FailureState :=
  let previousLastSeen := state.lastSeen
  let state := { state with lastSeen := now }
  if state.lockedUntil > now then
    (⟨false, ceilSeconds (int64 (state.lockedUntil - now)), false⟩, state)
  else
    let quietAfterLock :=
      state.lockedUntil ≠ 0 ∧ int64 (now - state.lockedUntil) > nanoseconds config.failureWindow
    let quietWithoutLock := state.lockedUntil = 0 ∧ previousLastSeen ≠ 0 ∧
      int64 (now - previousLastSeen) > nanoseconds config.failureWindow
    if quietAfterLock ∨ quietWithoutLock then
      (.allow, { state with
        failures := 0, lockoutLevel := 0, windowStarted := now, lockedUntil := 0 })
    else if state.windowStarted ≠ 0 ∧
        int64 (now - state.windowStarted) > nanoseconds config.failureWindow then
      (.allow, { state with failures := 0, windowStarted := now })
    else (.allow, state)

def recordFailureState (config : AuthAbuseConfig) (state : FailureState) (failureLimit : Nat)
    (now : Int) : AuthAbuseDecision × FailureState :=
  let (current, state) := checkState config state now
  if !current.allowed then (current, state)
  else
    let state := if state.windowStarted = 0 ∨
        int64 (now - state.windowStarted) > nanoseconds config.failureWindow then
      { state with failures := 0, lockoutLevel := 0, windowStarted := now }
    else state
    let state := { state with failures := (state.failures + 1) % 2 ^ 32, lastSeen := now }
    if state.failures < failureLimit then (.allow, state)
    else
      let state := { state with
        failures := 0, lockoutLevel := (state.lockoutLevel + 1) % 2 ^ 32 }
      let duration := lockoutDuration config state.lockoutLevel
      (⟨false, duration % 2 ^ 32, true⟩,
        { state with lockedUntil := int64 (now + nanoseconds duration) })

def stale (config : AuthAbuseConfig) (now : Int) (state : FailureState) : Bool :=
  state.lastSeen != 0 &&
    decide (int64 (now - state.lastSeen) >
      nanoseconds (int64 (config.failureWindow + config.maximumLockout)))

def pruneIfNeeded (protector : AuthAbuseProtector) (now : Int) : AuthAbuseProtector :=
  let count := (protector.operationCount + 1) % 2 ^ 64
  if count % 256 ≠ 0 then { protector with operationCount := count }
  else
    { protector with
      operationCount := count
      accountStates := protector.accountStates.filter (fun e => !stale protector.config now e.2)
      ipStates := protector.ipStates.filter (fun e => !stale protector.config now e.2) }

/-- A full map makes room for a new key by dropping its first entry. -/
def ensureCapacity (states : FailureStates) (key : String) (maximumSize : Nat) : FailureStates :=
  if (states.find key).isSome || states.length < maximumSize then states else states.tail

def checkKey (config : AuthAbuseConfig) (states : FailureStates) (key : String) (now : Int) :
    AuthAbuseDecision × FailureStates :=
  match states.find key with
  | none => (.allow, states)
  | some state =>
    let (decision, state) := checkState config state now
    (decision, states.store key state)

def check (protector : AuthAbuseProtector) (login clientIp : String) (now : Int) :
    AuthAbuseDecision × AuthAbuseProtector :=
  let protector := protector.pruneIfNeeded now
  let (accountDecision, accounts) :=
    checkKey protector.config protector.accountStates (normalizeLogin login) now
  let (ipDecision, ips) := checkKey protector.config protector.ipStates (normalizeIp clientIp) now
  let decision := if accountDecision.allowed && ipDecision.allowed then .allow
    else ⟨false, max accountDecision.retryAfterSeconds ipDecision.retryAfterSeconds, false⟩
  (decision, { protector with accountStates := accounts, ipStates := ips })

def recordFailureKey (config : AuthAbuseConfig) (states : FailureStates) (key : String)
    (maximumSize failureLimit : Nat) (order : List String) (now : Int) :
    AuthAbuseDecision × FailureStates :=
  let states := (ensureCapacity states key maximumSize).findOrCreate key order
  let (decision, state) := recordFailureState config
    ((states.find key).getD FailureState.initial) failureLimit now
  (decision, states.store key state)

def recordFailure (protector : AuthAbuseProtector) (login clientIp : String)
    (accountOrder ipOrder : List String) (now : Int) : AuthAbuseDecision × AuthAbuseProtector :=
  let protector := protector.pruneIfNeeded now
  let config := protector.config
  let (accountDecision, accounts) := recordFailureKey config protector.accountStates
    (normalizeLogin login) config.maximumTrackedAccounts config.accountFailureLimit accountOrder now
  let (ipDecision, ips) := recordFailureKey config protector.ipStates
    (normalizeIp clientIp) config.maximumTrackedIps config.ipFailureLimit ipOrder now
  let decision := if accountDecision.allowed && ipDecision.allowed then .allow
    else ⟨false, max accountDecision.retryAfterSeconds ipDecision.retryAfterSeconds,
      accountDecision.newlyLocked || ipDecision.newlyLocked⟩
  (decision, { protector with accountStates := accounts, ipStates := ips })

def recordSuccess (protector : AuthAbuseProtector) (login : String) : AuthAbuseProtector :=
  { protector with accountStates := protector.accountStates.erase (normalizeLogin login) }

end AuthAbuseProtector

end SecureCore

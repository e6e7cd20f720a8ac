import SecureCore.Security.KeyHistory
import Mathlib.Data.List.Nodup

/-! # Runs of a protector

A run is a list of calls. What it does to one account or one address is a list of
events on that key's entry. -/

namespace SecureCore

set_option autoImplicit false

/-! ## The map of states -/

namespace FailureStates

variable {states : FailureStates} {key k : String} {state : FailureState}

def Keyed (states : FailureStates) : Prop := (states.map Prod.fst).Nodup

theorem find_cons (entry : String × FailureState) (states : FailureStates) (k : String) :
    find (entry :: states) k = if entry.1 = k then some entry.2 else find states k := by
  unfold find
  rw [List.find?_cons]
  by_cases h : entry.1 = k
  · rw [beq_iff_eq.mpr h, if_pos h]
    rfl
  · rw [beq_false_of_ne h, if_neg h]

theorem find_eq_none (h : k ∉ states.map Prod.fst) : states.find k = none := by
  induction states with
  | nil => rfl
  | cons entry states ih =>
    rw [List.map_cons, List.mem_cons, not_or] at h
    rw [find_cons, if_neg (fun hKey => h.1 hKey.symm)]
    exact ih h.2

theorem mem_of_find (h : states.find k = some state) : (k, state) ∈ states := by
  induction states with
  | nil => cases h
  | cons entry states ih =>
    rw [find_cons] at h
    split at h
    · rename_i hKey
      cases h
      rw [← hKey]
      exact List.mem_cons_self
    · exact List.mem_cons_of_mem _ (ih h)

theorem find_store (states : FailureStates) (key k : String) (state : FailureState) :
    (states.store key state).find k =
      if k = key then (states.find k).map (fun _ => state) else states.find k := by
  induction states with
  | nil =>
    split <;> rfl
  | cons entry states ih =>
    unfold store at ih ⊢
    rw [List.map_cons, find_cons, find_cons, ih]
    by_cases hKey : entry.1 = key
    · rw [if_pos (beq_iff_eq.mpr hKey)]
      by_cases hk : k = key
      · subst hk
        simp [hKey]
      · rw [if_neg (fun h => hk h.symm), if_neg hk, if_neg hk, if_neg]
        exact fun h => hk (h.symm.trans hKey)
    · rw [if_neg (fun h => hKey (beq_iff_eq.mp h))]
      by_cases hk : k = key
      · subst hk
        simp [hKey]
      · simp [hk]

/-- Entries of one key have one place, so none overtakes another. -/
theorem find_orderedInsert (order : List String) (entry : String × FailureState) (states : FailureStates)
    (k : String) : find (states.orderedInsert
      (fun first second => order.idxOf first.1 ≤ order.idxOf second.1) entry) k =
        if entry.1 = k then some entry.2 else find states k := by
  induction states with
  | nil => exact find_cons entry [] k
  | cons other states ih =>
    rw [List.orderedInsert_cons]
    split
    · exact find_cons entry (other :: states) k
    · rename_i hBefore
      have hOther : other.1 ≠ entry.1 := fun hSame => hBefore (by rw [hSame])
      rw [find_cons, find_cons, ih]
      by_cases hk : entry.1 = k
      · rw [if_pos hk, if_pos hk, if_neg (fun h => hOther (h.trans hk.symm))]
      · rw [if_neg hk, if_neg hk]

@[simp] theorem find_rearrange (states : FailureStates) (order : List String) (k : String) :
    (states.rearrange order).find k = states.find k := by
  unfold rearrange
  induction states with
  | nil => rfl
  | cons entry states ih => rw [List.insertionSort_cons, find_orderedInsert, ih, find_cons]

theorem rearrange_pairwise (states : FailureStates) (order : List String) :
    (states.rearrange order).Pairwise (fun first second => order.idxOf first.1 ≤ order.idxOf second.1) := by
  have hTotal : Std.Total (fun first second : String × FailureState =>
      order.idxOf first.1 ≤ order.idxOf second.1) := ⟨fun _ _ => Nat.le_total _ _⟩
  have hTrans : IsTrans (String × FailureState) (fun first second =>
      order.idxOf first.1 ≤ order.idxOf second.1) := ⟨fun _ _ _ => Nat.le_trans⟩
  exact List.pairwise_insertionSort _ _

theorem find_findOrCreate (states : FailureStates) (key : String) (order : List String) (k : String) :
    (states.findOrCreate key order).find k =
      if k = key then some ((states.find key).getD FailureState.initial) else states.find k := by
  unfold findOrCreate
  cases h : states.find key with
  | some state =>
    rw [Option.isSome_some, if_pos rfl]
    by_cases hk : k = key
    · rw [if_pos hk, hk, h]
      rfl
    · rw [if_neg hk]
  | none =>
    rw [Option.isSome_none, if_neg Bool.false_ne_true, find_rearrange, find_cons]
    by_cases hk : k = key
    · rw [if_pos hk, if_pos hk.symm]
      rfl
    · rw [if_neg hk, if_neg (fun h => hk h.symm)]

theorem find_filter (h : states.Keyed) (p : FailureState → Bool) (k : String) :
    find (states.filter (fun entry => p entry.2)) k = (states.find k).filter p := by
  induction states with
  | nil => rfl
  | cons entry states ih =>
    unfold Keyed at h ih
    rw [List.map_cons, List.nodup_cons] at h
    rw [List.filter_cons, find_cons]
    by_cases hKey : entry.1 = k
    · rw [if_pos hKey]
      cases hp : p entry.2 with
      | true =>
        rw [if_pos rfl, find_cons, if_pos hKey, Option.filter_some, if_pos hp]
      | false =>
        -- no second entry of this key comes to light
        have hAbsent : find states k = none := by
          rw [← hKey]
          exact find_eq_none h.1
        rw [if_neg Bool.false_ne_true, ih h.2, hAbsent, Option.filter_some, hp]
        rfl
    · rw [if_neg hKey]
      split
      · rw [find_cons, if_neg hKey, ih h.2]
      · exact ih h.2

theorem find_erase (states : FailureStates) (key k : String) :
    (states.erase key).find k = if k = key then none else states.find k := by
  induction states with
  | nil =>
    split <;> rfl
  | cons entry states ih =>
    unfold erase at ih ⊢
    rw [List.filter_cons]
    by_cases hEntry : entry.1 = key
    · rw [if_neg (by simp [hEntry]), ih, find_cons]
      by_cases hk : k = key
      · rw [if_pos hk, if_pos hk]
      · rw [if_neg hk, if_neg hk, if_neg (fun h => hk (h.symm.trans hEntry))]
    · rw [if_pos (by simp [hEntry]), find_cons, find_cons, ih]
      by_cases hk : k = key
      · subst hk
        simp [hEntry]
      · simp [hk]

theorem Keyed.store (h : states.Keyed) (key : String) (state : FailureState) :
    (states.store key state).Keyed := by
  have hKeys : (states.store key state).map Prod.fst = states.map Prod.fst := by
    unfold FailureStates.store
    rw [List.map_map]
    apply List.map_congr_left
    intro entry _
    by_cases hEntry : entry.1 = key
    · simp [hEntry]
    · simp [hEntry]
  unfold Keyed
  rw [hKeys]
  exact h

theorem Keyed.filter (h : states.Keyed) (p : String × FailureState → Bool) :
    Keyed (states.filter p) := h.sublist (List.filter_sublist.map _)

theorem findOrCreate_perm (h : states.find key = none) (order : List String) :
    (states.findOrCreate key order).Perm ((key, FailureState.initial) :: states) := by
  unfold findOrCreate
  rw [h, Option.isSome_none, if_neg Bool.false_ne_true]
  exact List.perm_insertionSort _ _

theorem mem_keys_of_find (h : states.find k = some state) : k ∈ states.map Prod.fst :=
  List.mem_map.mpr ⟨(k, state), mem_of_find h, rfl⟩

theorem not_mem_keys_of_find (h : states.find k = none) : k ∉ states.map Prod.fst := by
  induction states with
  | nil => exact List.not_mem_nil
  | cons entry states ih =>
    rw [find_cons] at h
    split at h
    · cases h
    · rename_i hEntry
      rw [List.map_cons, List.mem_cons, not_or]
      exact ⟨fun hk => hEntry hk.symm, ih h⟩

theorem Keyed.findOrCreate (h : states.Keyed) (key : String) (order : List String) :
    (states.findOrCreate key order).Keyed := by
  cases hFind : states.find key with
  | some state =>
    unfold FailureStates.findOrCreate
    rw [hFind, Option.isSome_some, if_pos rfl]
    exact h
  | none =>
    exact ((findOrCreate_perm hFind order).map Prod.fst).nodup_iff.mpr
      (List.nodup_cons.mpr ⟨not_mem_keys_of_find hFind, h⟩)

/-- A map may yield its entries in any order after an insertion. -/
theorem exists_findOrCreate (h : states.Keyed) (hNew : states.find key = none) {others : FailureStates}
    (hPerm : others.Perm ((key, FailureState.initial) :: states)) :
    ∃ order, states.findOrCreate key order = others := by
  have hKeyed : (others.map Prod.fst).Nodup := (hPerm.map Prod.fst).nodup_iff.mpr
    (List.nodup_cons.mpr ⟨not_mem_keys_of_find hNew, h⟩)
  have hPlace : ∀ i (hi : i < others.length), (others.map Prod.fst).idxOf others[i].1 = i := by
    intro i hi
    have hIndex := hKeyed.idxOf_getElem i (by rw [List.length_map]; exact hi)
    rwa [List.getElem_map] at hIndex
  refine ⟨others.map Prod.fst, ?_⟩
  generalize hOrder : others.map Prod.fst = order at hPlace ⊢
  have hSame : (states.findOrCreate key order).Perm others :=
    (findOrCreate_perm hNew order).trans hPerm.symm
  have hCreated : (states.findOrCreate key order).Pairwise
      (fun first second => order.idxOf first.1 ≤ order.idxOf second.1) := by
    unfold FailureStates.findOrCreate
    rw [hNew, Option.isSome_none, if_neg Bool.false_ne_true]
    exact rearrange_pairwise _ _
  have hOthers : others.Pairwise (fun first second => order.idxOf first.1 ≤ order.idxOf second.1) := by
    rw [List.pairwise_iff_getElem]
    intro i j hi hj hLess
    rw [hPlace i hi, hPlace j hj]
    exact hLess.le
  -- two sorted lists of the same entries are one, as no two entries have one place
  refine hSame.eq_of_pairwise ?_ hCreated hOthers
  intro first second hFirst hSecond hBefore hAfter
  obtain ⟨i, hi, rfl⟩ := List.mem_iff_getElem.mp (hSame.mem_iff.mp hFirst)
  obtain ⟨j, hj, rfl⟩ := List.mem_iff_getElem.mp hSecond
  rw [hPlace i hi, hPlace j hj] at hBefore hAfter
  simp only [Nat.le_antisymm hBefore hAfter]

end FailureStates

/-! ## Calls -/

inductive Dimension where
  | account
  | ip
  deriving DecidableEq, Repr

namespace Dimension

def key : Dimension → String → String → String
  | account, login, _ => AuthAbuseProtector.normalizeLogin login
  | ip, _, clientIp => AuthAbuseProtector.normalizeIp clientIp

def order : Dimension → List String → List String → List String
  | account, accountOrder, _ => accountOrder
  | ip, _, ipOrder => ipOrder

def failureLimit (config : AuthAbuseConfig) : Dimension → Nat
  | account => config.accountFailureLimit
  | ip => config.ipFailureLimit

def capacity (config : AuthAbuseConfig) : Dimension → Nat
  | account => config.maximumTrackedAccounts
  | ip => config.maximumTrackedIps

end Dimension

inductive ProtectorCall where
  | check (login clientIp : String) (now : Int)
  | recordFailure (login clientIp : String) (accountOrder ipOrder : List String) (now : Int)
  | recordSuccess (login clientIp : String)
  deriving DecidableEq, Repr

namespace AuthAbuseProtector

def states (protector : AuthAbuseProtector) : Dimension → FailureStates
  | .account => protector.accountStates
  | .ip => protector.ipStates

def entry (protector : AuthAbuseProtector) (d : Dimension) (key : String) : Option FailureState :=
  (protector.states d).find key

def start (config : AuthAbuseConfig) : AuthAbuseProtector := ⟨config, [], [], 0⟩

/-- Whether the next call makes the pruning pass. -/
def prunes (protector : AuthAbuseProtector) : Bool :=
  (protector.operationCount + 1) % 2 ^ 64 % 256 == 0

end AuthAbuseProtector

namespace ProtectorCall

open AuthAbuseProtector

def decision (protector : AuthAbuseProtector) : ProtectorCall → AuthAbuseDecision
  | check login clientIp now => (protector.check login clientIp now).1
  | recordFailure login clientIp accountOrder ipOrder now =>
    (protector.recordFailure login clientIp accountOrder ipOrder now).1
  | recordSuccess _ _ => .allow

def after (protector : AuthAbuseProtector) : ProtectorCall → AuthAbuseProtector
  | check login clientIp now => (protector.check login clientIp now).2
  | recordFailure login clientIp accountOrder ipOrder now =>
    (protector.recordFailure login clientIp accountOrder ipOrder now).2
  | recordSuccess login _ => protector.recordSuccess login

def time : ProtectorCall → Option Int
  | check _ _ now => some now
  | recordFailure _ _ _ _ now => some now
  | recordSuccess _ _ => none

/-- When the call looks at the state of the key or counts a failure there. -/
def touchTime (d : Dimension) (key : String) : ProtectorCall → Option Int
  | check login clientIp now => if d.key login clientIp = key then some now else none
  | recordFailure login clientIp _ _ now => if d.key login clientIp = key then some now else none
  | recordSuccess _ _ => none

def failureTime (d : Dimension) (key : String) : ProtectorCall → Option Int
  | recordFailure login clientIp _ _ now => if d.key login clientIp = key then some now else none
  | _ => none

def Succeeds (d : Dimension) (key : String) : ProtectorCall → Prop
  | recordSuccess login clientIp => d = .account ∧ d.key login clientIp = key
  | _ => False

/-- The duration of the lockout of the key that the call starts. -/
def lockout (protector : AuthAbuseProtector) (d : Dimension) (key : String) :
    ProtectorCall → Option Int
  | recordFailure login clientIp _ _ now =>
    if d.key login clientIp = key then
      let (decision, state) := recordFailureState protector.config
        (((protector.pruneIfNeeded now).entry d key).getD .initial)
        (d.failureLimit protector.config) now
      if decision.newlyLocked then some (state.lockedUntil - now) else none
    else none
  | _ => none

/-- record_failure finds its keys in the maps, or room for them. -/
def HasRoom (protector : AuthAbuseProtector) : ProtectorCall → Prop
  | recordFailure login clientIp _ _ now => ∀ d : Dimension,
    ((protector.pruneIfNeeded now).entry d (d.key login clientIp)).isSome = true ∨
      ((protector.pruneIfNeeded now).states d).length < d.capacity protector.config
  | _ => True

end ProtectorCall

/-! ## Events on one entry -/

inductive KeyEvent where
  | pruned (now : Int)
  | checked (now : Int)
  | failed (now : Int)
  | succeeded

namespace KeyEvent

open AuthAbuseProtector

def apply (config : AuthAbuseConfig) (limit : Nat) (entry : Option FailureState) :
    KeyEvent → Option FailureState
  | pruned now => entry.filter (fun state => !stale config now state)
  | checked now => entry.map (fun state => (checkState config state now).2)
  | failed now => some (recordFailureState config (entry.getD .initial) limit now).2
  | succeeded => none

end KeyEvent

namespace ProtectorCall

open AuthAbuseProtector

def events (d : Dimension) (key : String) (prunes : Bool) : ProtectorCall → List KeyEvent
  | check login clientIp now => (if prunes then [.pruned now] else []) ++
    if d.key login clientIp = key then [.checked now] else []
  | recordFailure login clientIp _ _ now => (if prunes then [.pruned now] else []) ++
    if d.key login clientIp = key then [.failed now] else []
  | recordSuccess login clientIp =>
    if d = .account ∧ d.key login clientIp = key then [.succeeded] else []

end ProtectorCall

namespace AuthAbuseProtector

def Keyed (protector : AuthAbuseProtector) : Prop := ∀ d, (protector.states d).Keyed

variable {protector : AuthAbuseProtector} {config : AuthAbuseConfig}

theorem pruneIfNeeded_states (protector : AuthAbuseProtector) (now : Int) (d : Dimension) :
    (protector.pruneIfNeeded now).states d = if protector.prunes then
      (protector.states d).filter (fun entry => !stale protector.config now entry.2)
    else protector.states d := by
  unfold pruneIfNeeded prunes
  by_cases hCount : (protector.operationCount + 1) % 2 ^ 64 % 256 = 0
  · rw [if_neg (not_not.mpr hCount), hCount]
    cases d <;> rfl
  · rw [if_pos hCount, if_neg (by simpa using hCount)]
    cases d <;> rfl

@[simp] theorem pruneIfNeeded_config (protector : AuthAbuseProtector) (now : Int) :
    (protector.pruneIfNeeded now).config = protector.config := by
  unfold pruneIfNeeded
  simp only
  split <;> rfl

theorem pruneIfNeeded_entry (hKeyed : protector.Keyed) (now : Int) (d : Dimension) (key : String) :
    (protector.pruneIfNeeded now).entry d key =
      (if protector.prunes then [KeyEvent.pruned now] else []).foldl
        (KeyEvent.apply protector.config (d.failureLimit protector.config)) (protector.entry d key) := by
  unfold entry
  rw [pruneIfNeeded_states]
  split
  · exact FailureStates.find_filter (hKeyed d) (fun state => !stale protector.config now state) key
  · rfl

theorem Keyed.pruneIfNeeded (hKeyed : protector.Keyed) (now : Int) :
    (protector.pruneIfNeeded now).Keyed := by
  intro d
  rw [pruneIfNeeded_states]
  split
  · exact (hKeyed d).filter _
  · exact hKeyed d

theorem checkKey_keyed {states : FailureStates} (h : states.Keyed) (config : AuthAbuseConfig)
    (key : String) (now : Int) : (checkKey config states key now).2.Keyed := by
  unfold checkKey
  split
  · exact h
  · exact h.store _ _

theorem checkKey_find (config : AuthAbuseConfig) (states : FailureStates) (key k : String)
    (now : Int) : (checkKey config states key now).2.find k =
      if key = k then (states.find k).map (fun state => (checkState config state now).2)
      else states.find k := by
  unfold checkKey
  cases hFind : states.find key with
  | none =>
    by_cases hKey : key = k
    · rw [if_pos hKey, ← hKey, hFind]
      rfl
    · rw [if_neg hKey]
  | some state =>
    simp only [FailureStates.find_store]
    by_cases hKey : key = k
    · rw [if_pos hKey.symm, if_pos hKey, ← hKey, hFind]
      rfl
    · rw [if_neg (fun h => hKey h.symm), if_neg hKey]

theorem ensureCapacity_of_room {states : FailureStates} {key : String} {maximumSize : Nat}
    (hRoom : (states.find key).isSome = true ∨ states.length < maximumSize) :
    ensureCapacity states key maximumSize = states := by
  unfold ensureCapacity
  rw [if_pos (by simpa using hRoom)]

theorem ensureCapacity_sublist (states : FailureStates) (key : String) (maximumSize : Nat) :
    (ensureCapacity states key maximumSize).Sublist states := by
  unfold ensureCapacity
  split
  · exact List.Sublist.refl states
  · exact List.tail_sublist states

theorem recordFailureKey_keyed {states : FailureStates} (h : states.Keyed) (config : AuthAbuseConfig)
    (key : String) (maximumSize failureLimit : Nat) (order : List String) (now : Int) :
    (recordFailureKey config states key maximumSize failureLimit order now).2.Keyed := by
  have hSmaller : (ensureCapacity states key maximumSize).Keyed :=
    h.sublist ((ensureCapacity_sublist states key maximumSize).map _)
  exact (hSmaller.findOrCreate key order).store _ _

/-- Room for a key is never made by dropping its own entry. -/
theorem ensureCapacity_find_self (states : FailureStates) (key : String) (maximumSize : Nat) :
    (ensureCapacity states key maximumSize).find key = states.find key := by
  unfold ensureCapacity
  split
  · rfl
  · rename_i hFull
    have hNew : states.find key = none := by
      rw [← Option.not_isSome_iff_eq_none]
      exact fun hKnown => hFull (by rw [hKnown, Bool.true_or])
    cases states with
    | nil => rfl
    | cons entry states =>
      rw [FailureStates.find_cons] at hNew ⊢
      split at hNew
      · cases hNew
      · rename_i hEntry
        rw [if_neg hEntry]
        rfl

theorem recordFailureKey_decision (config : AuthAbuseConfig) (states : FailureStates) (key : String)
    (maximumSize failureLimit : Nat) (order : List String) (now : Int) :
    (recordFailureKey config states key maximumSize failureLimit order now).1 =
      (recordFailureState config ((states.find key).getD .initial) failureLimit now).1 := by
  unfold recordFailureKey
  simp only [FailureStates.find_findOrCreate, ensureCapacity_find_self, if_true, Option.getD_some]

/-- The entry of the key follows from itself, the others are those that room was made among. -/
theorem recordFailureKey_entry (config : AuthAbuseConfig) (states : FailureStates) (key : String)
    (maximumSize failureLimit : Nat) (order : List String) (now : Int) (k : String) :
    (recordFailureKey config states key maximumSize failureLimit order now).2.find k =
      if key = k then
        some (recordFailureState config ((states.find k).getD .initial) failureLimit now).2
      else (ensureCapacity states key maximumSize).find k := by
  unfold recordFailureKey
  simp only [FailureStates.find_store, FailureStates.find_findOrCreate, ensureCapacity_find_self]
  by_cases hKey : key = k
  · subst hKey
    simp
  · rw [if_neg (fun h => hKey h.symm), if_neg hKey, if_neg (fun h => hKey h.symm)]

theorem recordFailureKey_find {states : FailureStates} {config : AuthAbuseConfig}
    {key : String} {maximumSize failureLimit : Nat} {order : List String} {now : Int}
    (hRoom : (states.find key).isSome = true ∨ states.length < maximumSize) (k : String) :
    (recordFailureKey config states key maximumSize failureLimit order now).2.find k =
      if key = k then
        some (recordFailureState config ((states.find k).getD .initial) failureLimit now).2
      else states.find k := by
  rw [recordFailureKey_entry, ensureCapacity_of_room hRoom]

/-! ## Calls as events -/

theorem check_states (protector : AuthAbuseProtector) (login clientIp : String) (now : Int)
    (d : Dimension) : (protector.check login clientIp now).2.states d =
      (checkKey protector.config ((protector.pruneIfNeeded now).states d)
        (d.key login clientIp) now).2 := by
  rw [← pruneIfNeeded_config protector now]
  cases d <;> rfl

theorem recordFailure_states (protector : AuthAbuseProtector) (login clientIp : String)
    (accountOrder ipOrder : List String) (now : Int) (d : Dimension) :
    (protector.recordFailure login clientIp accountOrder ipOrder now).2.states d =
      (recordFailureKey protector.config ((protector.pruneIfNeeded now).states d)
        (d.key login clientIp) (d.capacity protector.config) (d.failureLimit protector.config)
        (d.order accountOrder ipOrder) now).2 := by
  rw [← pruneIfNeeded_config protector now]
  cases d <;> rfl

theorem recordSuccess_states (protector : AuthAbuseProtector) (login clientIp : String)
    (d : Dimension) : (protector.recordSuccess login).states d =
      if d = .account then (protector.states d).erase (d.key login clientIp)
      else protector.states d := by
  cases d <;> rfl

theorem after_config (protector : AuthAbuseProtector) (call : ProtectorCall) :
    (call.after protector).config = protector.config := by
  cases call with
  | check login clientIp now => exact pruneIfNeeded_config protector now
  | recordFailure login clientIp accountOrder ipOrder now => exact pruneIfNeeded_config protector now
  | recordSuccess login clientIp => rfl

theorem Keyed.after (hKeyed : protector.Keyed) (call : ProtectorCall) :
    (call.after protector).Keyed := by
  intro d
  cases call with
  | check login clientIp now =>
    change ((protector.check login clientIp now).2.states d).Keyed
    rw [check_states]
    exact checkKey_keyed (hKeyed.pruneIfNeeded now d) _ _ _
  | recordFailure login clientIp accountOrder ipOrder now =>
    change ((protector.recordFailure login clientIp accountOrder ipOrder now).2.states d).Keyed
    rw [recordFailure_states]
    exact recordFailureKey_keyed (hKeyed.pruneIfNeeded now d) _ _ _ _ _ _
  | recordSuccess login clientIp =>
    change ((protector.recordSuccess login).states d).Keyed
    rw [recordSuccess_states protector login clientIp]
    split
    · exact (hKeyed d).filter _
    · exact hKeyed d

/-- A call does to an entry what its events do. -/
theorem after_entry (hKeyed : protector.Keyed) {call : ProtectorCall} (hRoom : call.HasRoom protector)
    (d : Dimension) (key : String) : (call.after protector).entry d key =
      (call.events d key protector.prunes).foldl
        (KeyEvent.apply protector.config (d.failureLimit protector.config)) (protector.entry d key) := by
  cases call with
  | check login clientIp now =>
    change ((protector.check login clientIp now).2.states d).find key = _
    unfold ProtectorCall.events
    rw [check_states, checkKey_find, List.foldl_append, ← pruneIfNeeded_entry hKeyed]
    split <;> rfl
  | recordFailure login clientIp accountOrder ipOrder now =>
    change ((protector.recordFailure login clientIp accountOrder ipOrder now).2.states d).find key = _
    unfold ProtectorCall.events
    rw [recordFailure_states, recordFailureKey_find (hRoom d), List.foldl_append,
      ← pruneIfNeeded_entry hKeyed]
    split <;> rfl
  | recordSuccess login clientIp =>
    change ((protector.recordSuccess login).states d).find key = List.foldl _ _
      (if d = .account ∧ d.key login clientIp = key then [KeyEvent.succeeded] else [])
    rw [recordSuccess_states protector login clientIp]
    by_cases hAccount : d = .account
    · rw [if_pos hAccount, FailureStates.find_erase]
      by_cases hKey : key = d.key login clientIp
      · rw [if_pos hKey, if_pos ⟨hAccount, hKey.symm⟩]
        rfl
      · rw [if_neg hKey, if_neg (fun h => hKey h.2.symm)]
        rfl
    · rw [if_neg hAccount, if_neg (fun h => hAccount h.1)]
      rfl

/-! ## Runs -/

def run (config : AuthAbuseConfig) (calls : List ProtectorCall) : AuthAbuseProtector :=
  calls.foldl (fun protector call => call.after protector) (start config)

theorem run_concat (config : AuthAbuseConfig) (calls : List ProtectorCall) (call : ProtectorCall) :
    run config (calls ++ [call]) = call.after (run config calls) := List.foldl_concat _ _ _ _

theorem run_append (config : AuthAbuseConfig) (calls later : List ProtectorCall) :
    run config (calls ++ later) =
      later.foldl (fun protector call => call.after protector) (run config calls) := List.foldl_append

@[simp] theorem run_config (config : AuthAbuseConfig) (calls : List ProtectorCall) :
    (run config calls).config = config := by
  induction calls using List.reverseRecOn with
  | nil => rfl
  | append_singleton calls call ih => rw [run_concat, after_config, ih]

/-- The readings of the clock, in the order of the calls. -/
def times (calls : List ProtectorCall) : List Int := calls.filterMap ProtectorCall.time

/-- The times do not decrease. -/
def Ordered (calls : List ProtectorCall) : Prop :=
  (calls.filterMap ProtectorCall.time).Pairwise (· ≤ ·)

/-- No entry is evicted to make room for another. -/
def NoEviction (config : AuthAbuseConfig) (calls : List ProtectorCall) : Prop :=
  ∀ earlier call later, calls = earlier ++ call :: later → call.HasRoom (run config earlier)

variable {earlier calls later : List ProtectorCall} {call : ProtectorCall}

theorem Ordered.prefix (h : Ordered (calls ++ later)) : Ordered calls := by
  unfold Ordered at h
  rw [List.filterMap_append] at h
  exact (List.pairwise_append.mp h).1

theorem Ordered.le (h : Ordered (earlier ++ later)) {first second : ProtectorCall} {t t' : Int}
    (hFirst : first ∈ earlier) (hSecond : second ∈ later) (ht : first.time = some t)
    (ht' : second.time = some t') : t ≤ t' := by
  unfold Ordered at h
  rw [List.filterMap_append] at h
  exact (List.pairwise_append.mp h).2.2 t (List.mem_filterMap.mpr ⟨first, hFirst, ht⟩) t'
    (List.mem_filterMap.mpr ⟨second, hSecond, ht'⟩)

theorem NoEviction.prefix (h : NoEviction config (calls ++ later)) : NoEviction config calls := by
  intro earlier call rest hSplit
  apply h earlier call (rest ++ later)
  rw [hSplit, List.append_assoc, List.cons_append]

theorem NoEviction.last (h : NoEviction config (calls ++ [call])) :
    call.HasRoom (run config calls) := h calls call [] rfl

theorem run_keyed (config : AuthAbuseConfig) (calls : List ProtectorCall) :
    (run config calls).Keyed := by
  induction calls using List.reverseRecOn with
  | nil =>
    intro d
    cases d <;> exact List.nodup_nil
  | append_singleton calls call ih =>
    rw [run_concat]
    exact ih.after call

theorem run_entry_concat (h : NoEviction config (calls ++ [call])) (d : Dimension) (key : String) :
    (run config (calls ++ [call])).entry d key =
      (call.events d key (run config calls).prunes).foldl
        (KeyEvent.apply config (d.failureLimit config)) ((run config calls).entry d key) := by
  rw [run_concat, after_entry (run_keyed config calls) h.last, run_config]

end AuthAbuseProtector

end SecureCore

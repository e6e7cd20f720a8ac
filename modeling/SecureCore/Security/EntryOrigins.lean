import SecureCore.Security.ProtectorRuns
import Mathlib.Data.List.Dedup
import Mathlib.Data.List.Perm.Subperm

/-! # Where entries come from

What holds of every entry of a run, whether entries were evicted from the full maps or
not, and of the keys that the entries have. -/

namespace SecureCore

set_option autoImplicit false

namespace FailureStates

variable {states : FailureStates} {key : String} {state : FailureState} {entry : String × FailureState}

theorem mem_store (h : entry ∈ states.store key state) :
    entry = (key, state) ∨ (entry ∈ states ∧ entry.1 ≠ key) := by
  obtain ⟨before, hBefore, hEntry⟩ := List.mem_map.mp h
  split at hEntry
  · exact .inl hEntry.symm
  · rename_i hOther
    rw [← hEntry]
    exact .inr ⟨hBefore, fun hKey => hOther (beq_iff_eq.mpr hKey)⟩

theorem mem_findOrCreate {order : List String} (h : entry ∈ states.findOrCreate key order) :
    entry = (key, .initial) ∨ entry ∈ states := by
  cases hFind : states.find key with
  | some state =>
    unfold findOrCreate at h
    rw [hFind, Option.isSome_some, if_pos rfl] at h
    exact .inr h
  | none => exact List.mem_cons.mp ((findOrCreate_perm hFind order).mem_iff.mp h)

end FailureStates

namespace AuthAbuseProtector

variable {config : AuthAbuseConfig} {d : Dimension} {key : String} {protector : AuthAbuseProtector}
variable {calls later : List ProtectorCall} {call : ProtectorCall} {entry : String × FailureState}
variable {now : Int}

theorem time_of_touchTime (h : call.touchTime d key = some now) : call.time = some now := by
  cases call with
  | check login clientIp t =>
    unfold ProtectorCall.touchTime at h
    simp only [Option.ite_none_right_eq_some] at h
    exact h.2
  | recordFailure login clientIp accountOrder ipOrder t =>
    unfold ProtectorCall.touchTime at h
    simp only [Option.ite_none_right_eq_some] at h
    exact h.2
  | recordSuccess login clientIp => cases h

theorem touchTime_of_failureTime (h : call.failureTime d key = some now) :
    call.touchTime d key = some now := by
  cases call with
  | check login clientIp t => cases h
  | recordSuccess login clientIp => cases h
  | recordFailure login clientIp accountOrder ipOrder t => exact h

theorem time_of_failureTime (h : call.failureTime d key = some now) : call.time = some now :=
  time_of_touchTime (touchTime_of_failureTime h)

inductive Origin (protector : AuthAbuseProtector) (d : Dimension) (call : ProtectorCall) :
    String × FailureState → Prop
  | kept {entry : String × FailureState} (hBefore : entry ∈ protector.states d) :
      Origin protector d call entry
  | checked {key : String} {state : FailureState} {now : Int} (hTouch : call.touchTime d key = some now)
      (hBefore : (key, state) ∈ protector.states d) :
      Origin protector d call (key, (checkState protector.config state now).2)
  | failed {key : String} {state : FailureState} {now : Int}
      (hFailure : call.failureTime d key = some now)
      (hBefore : state = .initial ∨ (key, state) ∈ protector.states d) : Origin protector d call
        (key, (recordFailureState protector.config state (d.failureLimit protector.config) now).2)

theorem mem_of_pruned (h : entry ∈ (protector.pruneIfNeeded now).states d) :
    entry ∈ protector.states d := by
  rw [pruneIfNeeded_states] at h
  split at h
  · exact (List.mem_filter.mp h).1
  · exact h

theorem checkKey_origin {states : FailureStates} (hTouch : call.touchTime d key = some now)
    (hPruned : ∀ entry ∈ states, entry ∈ protector.states d)
    (h : entry ∈ (checkKey protector.config states key now).2) : Origin protector d call entry := by
  unfold checkKey at h
  cases hFind : states.find key with
  | none =>
    rw [hFind] at h
    exact .kept (hPruned entry h)
  | some state =>
    rw [hFind] at h
    rcases FailureStates.mem_store h with rfl | ⟨hBefore, -⟩
    · exact .checked hTouch (hPruned _ (FailureStates.mem_of_find hFind))
    · exact .kept (hPruned entry hBefore)

theorem recordFailureKey_origin {states : FailureStates} {maximumSize : Nat} {order : List String}
    (hFailure : call.failureTime d key = some now)
    (hPruned : ∀ entry ∈ states, entry ∈ protector.states d)
    (h : entry ∈ (recordFailureKey protector.config states key maximumSize
      (d.failureLimit protector.config) order now).2) : Origin protector d call entry := by
  have hKept : ∀ entry ∈ ensureCapacity states key maximumSize, entry ∈ protector.states d :=
    fun entry hEntry => hPruned entry ((ensureCapacity_sublist states key maximumSize).subset hEntry)
  unfold recordFailureKey at h
  generalize ensureCapacity states key maximumSize = room at h hKept
  have hFind := FailureStates.find_findOrCreate room key order key
  rw [if_pos rfl] at hFind
  rcases FailureStates.mem_store h with rfl | ⟨hStored, hOther⟩
  · apply Origin.failed hFailure
    rw [hFind, Option.getD_some]
    cases hRoom : room.find key with
    | none => exact .inl rfl
    | some state => exact .inr (hKept _ (FailureStates.mem_of_find hRoom))
  · rcases FailureStates.mem_findOrCreate hStored with rfl | hBefore
    · exact absurd rfl hOther
    · exact .kept (hKept entry hBefore)

/-- Every entry after a call was there before it, or the call made it of one that was. -/
theorem after_origin (h : entry ∈ (call.after protector).states d) : Origin protector d call entry := by
  have hPruned : ∀ now, ∀ entry ∈ (protector.pruneIfNeeded now).states d, entry ∈ protector.states d :=
    fun now entry hEntry => mem_of_pruned hEntry
  cases call with
  | check login clientIp now =>
    change entry ∈ (protector.check login clientIp now).2.states d at h
    rw [check_states] at h
    exact checkKey_origin (if_pos rfl) (hPruned now) h
  | recordFailure login clientIp accountOrder ipOrder now =>
    change entry ∈ (protector.recordFailure login clientIp accountOrder ipOrder now).2.states d at h
    rw [recordFailure_states] at h
    exact recordFailureKey_origin (if_pos rfl) (hPruned now) h
  | recordSuccess login clientIp =>
    change entry ∈ (protector.recordSuccess login).states d at h
    rw [recordSuccess_states protector login clientIp] at h
    split at h
    · exact .kept (List.mem_filter.mp h).1
    · exact .kept h

/-! ## Capacity -/

def failureKey (d : Dimension) : ProtectorCall → Option String
  | .recordFailure login clientIp _ _ _ => some (d.key login clientIp)
  | _ => none

/-- The keys under which failures have been recorded. -/
def failureKeys (d : Dimension) (calls : List ProtectorCall) : List String :=
  calls.filterMap (failureKey d)

theorem failureKeys_concat (d : Dimension) (calls : List ProtectorCall) (call : ProtectorCall) :
    failureKeys d (calls ++ [call]) = failureKeys d calls ++ (failureKey d call).toList := by
  unfold failureKeys
  rw [List.filterMap_append]
  cases h : failureKey d call <;> simp [h]

theorem failureKey_of_failureTime (h : call.failureTime d key = some now) :
    failureKey d call = some key := by
  cases call with
  | check login clientIp t => cases h
  | recordSuccess login clientIp => cases h
  | recordFailure login clientIp accountOrder ipOrder t =>
    unfold ProtectorCall.failureTime at h
    simp only [Option.ite_none_right_eq_some] at h
    exact congrArg some h.1

/-- An entry is made by a failure. -/
theorem mem_failureKeys (h : entry ∈ (run config calls).states d) : entry.1 ∈ failureKeys d calls := by
  induction calls using List.reverseRecOn generalizing entry with
  | nil => cases d <;> cases h
  | append_singleton calls call ih =>
    rw [run_concat] at h
    rw [failureKeys_concat, List.mem_append]
    cases after_origin h with
    | kept hBefore => exact .inl (ih hBefore)
    | checked hTouch hBefore =>
      have hKey := ih hBefore
      exact .inl hKey
    | failed hFailure hBefore =>
      right
      rw [failureKey_of_failureTime hFailure]
      exact List.mem_singleton_self _

/-- As long as the keys fit, there is room. -/
theorem noEviction_of_capacity
    (hCapacity : ∀ d, (failureKeys d calls).dedup.length ≤ d.capacity config) :
    NoEviction config calls := by
  induction calls using List.reverseRecOn with
  | nil =>
    intro earlier call later hSplit
    simp at hSplit
  | append_singleton calls call ih =>
    have hPrefix : NoEviction config calls := by
      apply ih
      intro d
      refine le_trans (List.subperm_of_subset (List.nodup_dedup _) ?_).length_le (hCapacity d)
      intro k hk
      rw [List.mem_dedup] at hk ⊢
      rw [failureKeys_concat]
      exact List.mem_append_left _ hk
    have hLast : call.HasRoom (run config calls) := by
      cases call with
      | check login clientIp now => trivial
      | recordSuccess login clientIp => trivial
      | recordFailure login clientIp accountOrder ipOrder now =>
        intro d
        have hKeyed := (run_keyed config calls).pruneIfNeeded now
        cases hFind : ((run config calls).pruneIfNeeded now).entry d (d.key login clientIp) with
        | some state => exact .inl rfl
        | none =>
          right
          rw [run_config]
          have hNodup : (d.key login clientIp ::
              (((run config calls).pruneIfNeeded now).states d).map Prod.fst).Nodup :=
            List.nodup_cons.mpr ⟨FailureStates.not_mem_keys_of_find hFind, hKeyed d⟩
          have hSubset : (d.key login clientIp ::
              (((run config calls).pruneIfNeeded now).states d).map Prod.fst) ⊆ (failureKeys d
                (calls ++ [.recordFailure login clientIp accountOrder ipOrder now])).dedup := by
            intro k hk
            rw [List.mem_dedup, failureKeys_concat, List.mem_append]
            rcases List.mem_cons.mp hk with rfl | hk
            · exact .inr (List.mem_singleton_self _)
            · obtain ⟨entry, hEntry, rfl⟩ := List.mem_map.mp hk
              exact .inl (mem_failureKeys (mem_of_pruned hEntry))
          have hLength := (List.subperm_of_subset hNodup hSubset).length_le
          rw [List.length_cons, List.length_map] at hLength
          exact Nat.lt_of_lt_of_le hLength (hCapacity d)
    intro earlier call' later hSplit
    rcases List.eq_nil_or_concat later with rfl | ⟨later, last, rfl⟩
    · obtain ⟨rfl, hCall⟩ := List.append_inj' hSplit rfl
      cases hCall
      exact hLast
    · rw [List.concat_eq_append, ← List.cons_append, ← List.append_assoc] at hSplit
      obtain ⟨hSplit', -⟩ := List.append_inj' hSplit rfl
      exact hPrefix earlier call' later hSplit'

end AuthAbuseProtector

end SecureCore

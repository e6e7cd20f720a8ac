import Mathlib.Algebra.Order.Group.Int
import Mathlib.Data.List.Basic
import Mathlib.Data.List.Induction
import Mathlib.Logic.Function.Basic

/-! # Fixed windows

A counter grants a limited number of visits in a window. The first visit after the end of a
window begins the next one. -/

namespace FixedWindow

set_option autoImplicit false

structure Window where
  start : Int
  used : Nat
  deriving DecidableEq, Repr

/-- The window that a visit falls into. -/
def current (width : Int) (kept : Option Window) (now : Int) : Window :=
  match kept with
  | none => ⟨now, 0⟩
  | some window => if width ≤ now - window.start then ⟨now, 0⟩ else window

def Window.take (limit : Nat) (window : Window) : Window :=
  if window.used < limit then { window with used := window.used + 1 } else window

def visit (limit : Nat) (width : Int) (kept : Option Window) (now : Int) : Window :=
  (current width kept now).take limit

variable {limit : Nat} {width : Int} {window : Window} {now last : Int}

theorem current_of_passed (h : width ≤ now - window.start) :
    current width (some window) now = ⟨now, 0⟩ := if_pos h

theorem current_of_running (h : now - window.start < width) :
    current width (some window) now = window := if_neg (not_le.mpr h)

/-! ## Granted visits -/

theorem countP_le_add {α : Type} {p q r : α → Bool} {xs : List α}
    (h : ∀ x ∈ xs, p x = true → q x = true ∨ r x = true) : xs.countP p ≤ xs.countP q + xs.countP r := by
  induction xs with
  | nil => exact Nat.zero_le _
  | cons x xs ih =>
    rw [List.forall_mem_cons] at h
    have hRest := ih h.2
    rw [List.countP_cons, List.countP_cons, List.countP_cons]
    cases hp : p x with
    | false =>
      rw [if_neg Bool.false_ne_true]
      omega
    | true =>
      rcases h.1 hp with hq | hr
      · rw [hq, if_pos rfl]
        omega
      · rw [hr, if_pos rfl]
        omega

/-- The number of times from `a` on and before `b`. -/
def countFrom (times : List Int) (a b : Int) : Nat := times.countP (fun t => a ≤ t ∧ t < b)

theorem countFrom_append (times later : List Int) (a b : Int) :
    countFrom (times ++ later) a b = countFrom times a b + countFrom later a b := List.countP_append

theorem countFrom_singleton (t a b : Int) : countFrom [t] a b = if a ≤ t ∧ t < b then 1 else 0 := by
  unfold countFrom
  rw [List.countP_singleton]
  simp only [decide_eq_true_eq]

theorem countFrom_eq_zero {times : List Int} {a b : Int} (h : ∀ t ∈ times, a ≤ t → b ≤ t) :
    countFrom times a b = 0 := by
  unfold countFrom
  rw [List.countP_eq_zero]
  intro t ht
  rw [decide_eq_true_eq]
  rintro ⟨hFrom, hBefore⟩
  exact absurd (h t ht hFrom) (not_le.mpr hBefore)

theorem countFrom_mono {times : List Int} {a b a' b' : Int}
    (h : ∀ t ∈ times, a ≤ t → t < b → a' ≤ t ∧ t < b') : countFrom times a b ≤ countFrom times a' b' := by
  apply List.countP_mono_left
  intro t ht hRange
  rw [decide_eq_true_eq] at hRange ⊢
  exact h t ht hRange.1 hRange.2

theorem countFrom_split {times : List Int} {a b : Int} (middle : Int) :
    countFrom times a b ≤ countFrom times a middle + countFrom times middle b := by
  apply countP_le_add
  intro t _ hRange
  simp only [decide_eq_true_eq] at hRange ⊢
  omega

/-- What the granted visits have to do with the window of the last visit. -/
structure Accounts (limit : Nat) (width : Int) (granted : List Int) (window : Window) (last : Int) :
    Prop where
  used : countFrom granted window.start (window.start + width) = window.used
  limited : window.used ≤ limit
  before : countFrom granted (window.start - width) window.start ≤ limit
  sliding : ∀ a b, b - a ≤ width → countFrom granted a b ≤ 2 * limit
  begun : window.start ≤ last
  within : last < window.start + width
  past : ∀ t ∈ granted, t ≤ last

variable {granted : List Int}

theorem Accounts.first (hWidth : 0 < width) (now : Int) : Accounts limit width [] ⟨now, 0⟩ now where
  used := rfl
  limited := Nat.zero_le _
  before := Nat.zero_le _
  sliding _ _ _ := Nat.zero_le _
  begun := le_refl now
  within := by
    simp only
    omega
  past := nofun

/-- A visit goes on with the window or begins a new one. -/
theorem Accounts.current (h : Accounts limit width granted window last) (hWidth : 0 < width)
    (hLast : last ≤ now) : Accounts limit width granted (current width (some window) now) now := by
  have hBegun := h.begun
  have hWithin := h.within
  rcases Int.lt_or_le (now - window.start) width with hRunning | hPassed
  · rw [current_of_running hRunning]
    refine ⟨h.used, h.limited, h.before, h.sliding, by omega, by omega, ?_⟩
    exact fun t ht => (h.past t ht).trans hLast
  · rw [current_of_passed hPassed]
    refine ⟨?_, Nat.zero_le _, ?_, h.sliding, le_refl now, ?_, ?_⟩
    · apply countFrom_eq_zero
      intro t ht hFrom
      have hPast := h.past t ht
      simp only at hFrom
      omega
    · refine le_trans (countFrom_mono ?_) (h.used.trans_le h.limited)
      intro t ht hFrom _
      have hPast := h.past t ht
      simp only at hFrom
      constructor <;> omega
    · simp only
      omega
    · exact fun t ht => (h.past t ht).trans hLast

/-- A visit is granted as long as the window is not used up. -/
theorem Accounts.take (h : Accounts limit width granted window now) :
    Accounts limit width (if window.used < limit then granted ++ [now] else granted)
      (window.take limit) now := by
  have hBegun := h.begun
  have hWithin := h.within
  unfold Window.take
  split
  · rename_i hFree
    refine ⟨?_, hFree, ?_, ?_, hBegun, hWithin, ?_⟩
    · rw [countFrom_append, h.used, countFrom_singleton, if_pos ⟨hBegun, hWithin⟩]
    · rw [countFrom_append, countFrom_singleton, if_neg (by simp only; omega)]
      exact h.before
    · intro a b hShort
      rw [countFrom_append, countFrom_singleton]
      split
      · -- the interval meets this window and the one before it only
        rename_i hInside
        have hSplit : countFrom granted a b ≤ _ := countFrom_split window.start
        have hOld : countFrom granted a window.start ≤ limit := by
          refine le_trans (countFrom_mono ?_) h.before
          intro t _ hFrom hBefore
          constructor <;> omega
        have hNew : countFrom granted window.start b ≤ window.used := by
          rw [← h.used]
          apply countFrom_mono
          intro t ht hFrom _
          have hPast := h.past t ht
          constructor <;> omega
        omega
      · exact h.sliding a b hShort
    · intro t ht
      rcases List.mem_append.mp ht with hOld | hNew
      · exact h.past t hOld
      · rw [List.mem_singleton.mp hNew]
  · exact h

/-! ## One counter -/

/-- The window that is kept, and the times of the granted visits. -/
structure Ledger where
  kept : Option Window
  granted : List Int

def Ledger.visit (limit : Nat) (width : Int) (ledger : Ledger) (now : Int) : Ledger where
  kept := some (FixedWindow.visit limit width ledger.kept now)
  granted := if (current width ledger.kept now).used < limit then ledger.granted ++ [now]
    else ledger.granted

def ledger (limit : Nat) (width : Int) (times : List Int) : Ledger :=
  times.foldl (Ledger.visit limit width) ⟨none, []⟩

theorem ledger_concat (limit : Nat) (width : Int) (times : List Int) (now : Int) :
    ledger limit width (times ++ [now]) = (ledger limit width times).visit limit width now :=
  List.foldl_concat _ _ _ _

variable {times : List Int}

/-- The accounts right before a visit is granted or refused. -/
theorem accounts_current (hWidth : 0 < width) (hOrdered : (times ++ [now]).Pairwise (· ≤ ·)) :
    Accounts limit width (ledger limit width times).granted
      (current width (ledger limit width times).kept now) now := by
  induction times using List.reverseRecOn generalizing now with
  | nil => exact Accounts.first hWidth now
  | append_singleton times last ih =>
    rw [List.append_assoc] at hOrdered
    have hParts := List.pairwise_append.mp hOrdered
    have hLast : last ≤ now := by
      have hPair := hParts.2.1
      rw [List.singleton_append, List.pairwise_cons] at hPair
      exact hPair.1 now (List.mem_singleton_self now)
    have hEarlier : (times ++ [last]).Pairwise (· ≤ ·) := by
      rw [List.pairwise_append]
      refine ⟨hParts.1, List.pairwise_singleton _ _, ?_⟩
      intro t ht other hOther
      rw [List.mem_singleton.mp hOther]
      exact hParts.2.2 t ht last List.mem_cons_self
    rw [ledger_concat]
    exact (ih hEarlier).take.current hWidth hLast

theorem accounts_concat (hWidth : 0 < width) (hOrdered : (times ++ [now]).Pairwise (· ≤ ·)) :
    ∃ window, (ledger limit width (times ++ [now])).kept = some window ∧
      Accounts limit width (ledger limit width (times ++ [now])).granted window now := by
  rw [ledger_concat]
  exact ⟨_, rfl, (accounts_current hWidth hOrdered).take⟩

/-- No interval that is not longer than a window has more than twice the limit. -/
theorem sliding_bound (hWidth : 0 < width) (hOrdered : times.Pairwise (· ≤ ·)) {a b : Int}
    (hShort : b - a ≤ width) : countFrom (ledger limit width times).granted a b ≤ 2 * limit := by
  cases times using List.reverseRecOn with
  | nil => exact Nat.zero_le _
  | append_singleton times last =>
    obtain ⟨window, -, hAccounts⟩ := accounts_concat hWidth hOrdered
    exact hAccounts.sliding a b hShort

/-- A window that was once kept has no more than the limit for ever. -/
theorem window_bound (hWidth : 0 < width) {later : List Int}
    (hOrdered : (times ++ later).Pairwise (· ≤ ·)) (hKept : (ledger limit width times).kept = some window) :
    countFrom (ledger limit width (times ++ later)).granted window.start (window.start + width) ≤ limit ∧
      ∃ kept, (ledger limit width (times ++ later)).kept = some kept ∧
        (kept.start = window.start ∨ window.start + width ≤ kept.start) := by
  induction later using List.reverseRecOn with
  | nil =>
    rw [List.append_nil] at hOrdered ⊢
    cases times using List.reverseRecOn with
    | nil => cases hKept
    | append_singleton times last =>
      obtain ⟨kept, hSame, hAccounts⟩ := accounts_concat hWidth hOrdered
      rw [hSame] at hKept
      cases hKept
      exact ⟨hAccounts.used.trans_le hAccounts.limited, window, hSame, .inl rfl⟩
  | append_singleton later now ih =>
    rw [← List.append_assoc] at hOrdered ⊢
    obtain ⟨hBound, kept, hSame, hStart⟩ := ih (List.pairwise_append.mp hOrdered).1
    have hAccounts : Accounts limit width _ _ now := accounts_current hWidth hOrdered
    have hTaken := hAccounts.take
    rw [hSame] at hAccounts hTaken
    have hCurrent : (current width (some kept) now).start = window.start ∨
        window.start + width ≤ (current width (some kept) now).start := by
      rcases Int.lt_or_le (now - kept.start) width with hRunning | hPassed
      · rw [current_of_running hRunning]
        exact hStart
      · rw [current_of_passed hPassed]
        right
        simp only
        omega
    have hTakeStart : ((current width (some kept) now).take limit).start =
        (current width (some kept) now).start := by
      unfold Window.take
      split <;> rfl
    rw [ledger_concat]
    unfold Ledger.visit FixedWindow.visit
    rw [hSame]
    refine ⟨?_, _, rfl, ?_⟩
    · simp only
      rcases hCurrent with hGoes | hLater
      · have hUsed := hTaken.used
        rw [hTakeStart, hGoes] at hUsed
        exact hUsed.trans_le hTaken.limited
      · have hBegun := hAccounts.begun
        split
        · rw [countFrom_append, countFrom_singleton, if_neg (by omega)]
          exact hBound
        · exact hBound
    · rw [hTakeStart]
      exact hCurrent

/-! ## A counter for every key -/

variable {κ : Type} [DecidableEq κ]

abbrev Journal (κ : Type) := κ → Option Window

namespace Journal

def blank : Journal κ := fun _ => none

def visit (limit : Nat) (width : Int) (journal : Journal κ) (key : κ) (now : Int) : Journal κ :=
  Function.update journal key (some (FixedWindow.visit limit width (journal key) now))

def run (limit : Nat) (width : Int) (visits : List (κ × Int)) : Journal κ :=
  visits.foldl (fun journal v => journal.visit limit width v.1 v.2) blank

theorem run_concat (limit : Nat) (width : Int) (visits : List (κ × Int)) (v : κ × Int) :
    run limit width (visits ++ [v]) = (run limit width visits).visit limit width v.1 v.2 :=
  List.foldl_concat _ _ _ _

end Journal

def timesOf (key : κ) (visits : List (κ × Int)) : List Int :=
  visits.filterMap (fun v => if v.1 = key then some v.2 else none)

theorem timesOf_append (key : κ) (visits later : List (κ × Int)) :
    timesOf key (visits ++ later) = timesOf key visits ++ timesOf key later := List.filterMap_append

theorem timesOf_singleton (key : κ) (v : κ × Int) :
    timesOf key [v] = if v.1 = key then [v.2] else [] := by
  unfold timesOf
  rw [List.filterMap_cons, List.filterMap_nil]
  split <;> simp_all

/-- The window of a key depends on its own visits. -/
theorem Journal.run_apply (limit : Nat) (width : Int) (visits : List (κ × Int)) (key : κ) :
    run limit width visits key = (ledger limit width (timesOf key visits)).kept := by
  induction visits using List.reverseRecOn with
  | nil => rfl
  | append_singleton visits v ih =>
    rw [run_concat, timesOf_append, timesOf_singleton]
    unfold Journal.visit
    by_cases hKey : v.1 = key
    · subst hKey
      rw [if_pos rfl, Function.update_self, ledger_concat, ih]
      rfl
    · rw [if_neg hKey, List.append_nil, Function.update_of_ne (fun h => hKey h.symm)]
      exact ih

end FixedWindow

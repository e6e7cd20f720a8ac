import Mathlib.Data.Option.Basic
import Mathlib.Logic.Function.Basic

/-! # Layers of assignments

Settings are a function from keys to values, and a layer is a list of assignments to them.
Of the assignments to one key the last one counts. -/

namespace Layered

set_option autoImplicit false

variable {κ β : Type} [DecidableEq κ]

def assign (settings : κ → β) (layer : List (κ × β)) : κ → β :=
  layer.foldl (fun settings entry => Function.update settings entry.1 entry.2) settings

/-- What a layer assigns to a key, in its order. -/
def valuesOf (layer : List (κ × β)) (key : κ) : List β :=
  (layer.filter (fun entry => entry.1 = key)).map Prod.snd

variable {settings : κ → β} {layer other before after : List (κ × β)} {key : κ}

theorem valuesOf_cons_self (value : β) : valuesOf ((key, value) :: layer) key = value :: valuesOf layer key := by
  rw [valuesOf, List.filter_cons_of_pos (by simp)]
  rfl

theorem valuesOf_cons_of_ne {entry : κ × β} (h : entry.1 ≠ key) :
    valuesOf (entry :: layer) key = valuesOf layer key := by
  rw [valuesOf, List.filter_cons_of_neg (by simpa using h)]
  rfl

theorem valuesOf_append : valuesOf (before ++ after) key = valuesOf before key ++ valuesOf after key := by
  rw [valuesOf, List.filter_append, List.map_append]
  rfl

theorem assign_append : assign settings (before ++ after) = assign (assign settings before) after :=
  List.foldl_append

/-- The last assignment counts, and without one the setting stays. -/
theorem assign_apply (settings : κ → β) (layer : List (κ × β)) (key : κ) :
    assign settings layer key = (valuesOf layer key).getLast?.getD (settings key) := by
  induction layer generalizing settings with
  | nil => rfl
  | cons entry layer ih =>
    have hRest : assign settings (entry :: layer) key =
        (valuesOf layer key).getLast?.getD (Function.update settings entry.1 entry.2 key) := ih _
    rw [hRest]
    obtain ⟨first, value⟩ := entry
    by_cases hKey : first = key
    · subst hKey
      rw [valuesOf_cons_self, List.getLast?_cons, Function.update_self]
      rfl
    · rw [valuesOf_cons_of_ne hKey, Function.update_of_ne (Ne.symm hKey)]

/-- Only the order among the assignments to one key matters. -/
theorem assign_congr (h : ∀ key, valuesOf layer key = valuesOf other key) :
    assign settings layer = assign settings other := by
  funext key
  rw [assign_apply, assign_apply, h key]

theorem assign_swap {first second : κ × β} (h : first.1 ≠ second.1) :
    assign settings (before ++ first :: second :: after) = assign settings (before ++ second :: first :: after) := by
  refine assign_congr (fun key => ?_)
  rw [valuesOf_append, valuesOf_append]
  congr 1
  by_cases hFirst : first.1 = key
  · subst hFirst
    rw [valuesOf_cons_self, valuesOf_cons_of_ne h.symm, valuesOf_cons_of_ne h.symm, valuesOf_cons_self]
  · rw [valuesOf_cons_of_ne hFirst]
    by_cases hSecond : second.1 = key
    · subst hSecond
      rw [valuesOf_cons_self, valuesOf_cons_self, valuesOf_cons_of_ne hFirst]
    · rw [valuesOf_cons_of_ne hSecond, valuesOf_cons_of_ne hSecond, valuesOf_cons_of_ne hFirst]

/-! ## Loops that assign -/

section Loops

variable {σ ι ε : Type} {read : ι → Option (List (κ × β))} {get : σ → κ → β} {step : σ → ι → Except ε σ}

/-- What comes out of a layer that could be read, or not. -/
def Follows (get : σ → κ → β) (settings : κ → β) (outcome : Except ε σ) : Option (List (κ × β)) → Prop
  | some layer => ∃ next, outcome = .ok next ∧ get next = assign settings layer
  | none => ∃ error, outcome = .error error

/-- Each step of a loop over items makes the assignments that are read off its item, or fails
if the item cannot be read. -/
def Reads (read : ι → Option (List (κ × β))) (get : σ → κ → β) (step : σ → ι → Except ε σ) : Prop :=
  ∀ state item, Follows get (get state) (step state item) (read item)

/-- The layer that the items are, one after the other. -/
def entries (read : ι → Option (List (κ × β))) (items : List ι) : List (κ × β) :=
  items.flatMap (fun item => (read item).getD [])

omit [DecidableEq κ] in
theorem entries_append (first second : List ι) :
    entries read (first ++ second) = entries read first ++ entries read second :=
  List.flatMap_append

omit [DecidableEq κ] in
theorem entries_cons (item : ι) (items : List ι) :
    entries read (item :: items) = (read item).getD [] ++ entries read items :=
  List.flatMap_cons

/-- A loop over items that can all be read ends with what they assign. -/
theorem Reads.runs (h : Reads read get step) {items : List ι} (hItems : ∀ item ∈ items, (read item).isSome = true)
    (state : σ) : ∃ next, items.foldlM step state = .ok next ∧ get next = assign (get state) (entries read items) := by
  induction items generalizing state with
  | nil => exact ⟨state, rfl, rfl⟩
  | cons item items ih =>
    obtain ⟨hItem, hRest⟩ := List.forall_mem_cons.mp hItems
    obtain ⟨layer, hLayer⟩ := Option.isSome_iff_exists.mp hItem
    have hFollows := h state item
    rw [hLayer] at hFollows
    obtain ⟨middle, hStep, hMiddle⟩ := hFollows
    obtain ⟨next, hRun, hNext⟩ := ih hRest middle
    refine ⟨next, ?_, ?_⟩
    · rw [List.foldlM_cons, hStep]
      exact hRun
    · rw [hNext, hMiddle, entries_cons, hLayer, assign_append]
      rfl

/-- A loop that ends has read every item. -/
theorem Reads.read_of_run (h : Reads read get step) {items : List ι} {state next : σ}
    (hRun : items.foldlM step state = .ok next) : ∀ item ∈ items, (read item).isSome = true := by
  induction items generalizing state with
  | nil => exact fun _ hItem => absurd hItem List.not_mem_nil
  | cons item items ih =>
    rw [List.foldlM_cons] at hRun
    have hFollows := h state item
    cases hRead : read item with
    | none =>
      rw [hRead] at hFollows
      obtain ⟨error, hStep⟩ := hFollows
      rw [hStep] at hRun
      cases hRun
    | some layer =>
      rw [hRead] at hFollows
      obtain ⟨middle, hStep, -⟩ := hFollows
      rw [hStep] at hRun
      exact List.forall_mem_cons.mpr ⟨by rw [hRead]; rfl, ih hRun⟩

theorem Reads.get_of_run (h : Reads read get step) {items : List ι} {state next : σ}
    (hRun : items.foldlM step state = .ok next) : get next = assign (get state) (entries read items) := by
  obtain ⟨other, hOther, hGet⟩ := h.runs (h.read_of_run hRun) state
  rw [hRun] at hOther
  cases hOther
  exact hGet

/-! ## Keys that assign to themselves -/

variable {assigned : κ → Option (List (κ × β))} {keys : List κ}

theorem valuesOf_own (h : ∀ other, ∀ entry ∈ (assigned other).getD [], entry.1 = other) (key : κ) :
    valuesOf ((assigned key).getD []) key = ((assigned key).getD []).map Prod.snd := by
  rw [valuesOf, List.filter_eq_self.mpr]
  intro entry hEntry
  simpa using h key entry hEntry

theorem valuesOf_foreign (h : ∀ other, ∀ entry ∈ (assigned other).getD [], entry.1 = other) {other : κ}
    (hNe : other ≠ key) : valuesOf ((assigned other).getD []) key = [] := by
  rw [valuesOf, List.filter_eq_nil_iff.mpr]
  · rfl
  · intro entry hEntry
    simpa [h other entry hEntry] using hNe

theorem valuesOf_entries_of_notMem (h : ∀ other, ∀ entry ∈ (assigned other).getD [], entry.1 = other)
    (hKey : key ∉ keys) : valuesOf (entries assigned keys) key = [] := by
  induction keys with
  | nil => rfl
  | cons first keys ih =>
    rw [List.mem_cons, not_or] at hKey
    rw [entries_cons, valuesOf_append, valuesOf_foreign h (Ne.symm hKey.1), ih hKey.2]
    rfl

/-- Of keys that assign to themselves only, a key says what it gets. -/
theorem valuesOf_entries (h : ∀ other, ∀ entry ∈ (assigned other).getD [], entry.1 = other)
    (hNodup : keys.Nodup) (hKey : key ∈ keys) :
    valuesOf (entries assigned keys) key = ((assigned key).getD []).map Prod.snd := by
  induction keys with
  | nil => exact absurd hKey List.not_mem_nil
  | cons first keys ih =>
    obtain ⟨hFirst, hRest⟩ := List.nodup_cons.mp hNodup
    rw [entries_cons, valuesOf_append]
    rcases List.mem_cons.mp hKey with rfl | hKey
    · rw [valuesOf_entries_of_notMem h hFirst, valuesOf_own h, List.append_nil]
    · have hNe : first ≠ key := by
        rintro rfl
        exact hFirst hKey
      rw [valuesOf_foreign h hNe, ih hRest hKey, List.nil_append]

end Loops

end Layered

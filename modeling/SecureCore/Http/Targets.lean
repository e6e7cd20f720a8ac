import SecureCore.Http.Router

/-! # What the scanners of a target find

The loops over positions as splits of the text. -/

namespace SecureCore

set_option autoImplicit false

variable {text : List Char} {c : Char} {start position : Nat}

/-! ## Searching -/

theorem findFrom_eq_none : findFrom text c start = none ↔ c ∉ text.drop start := by
  unfold findFrom
  rw [Option.map_eq_none_iff, List.findIdx?_eq_none_iff]
  constructor
  · intro h hMem
    exact absurd (beq_self_eq_true c) (by simpa using h c hMem)
  · intro h other hOther
    rw [beq_eq_false_iff_ne]
    rintro rfl
    exact h hOther

/-- The text between a position and the next occurrence of a character. -/
theorem findFrom_eq_some (h : findFrom text c start = some position) :
    text.drop start = substr text start (position - start) ++ c :: text.drop (position + 1) ∧
      c ∉ substr text start (position - start) := by
  obtain ⟨index, hIndex, rfl⟩ := Option.map_eq_some_iff.mp h
  obtain ⟨hLess, hFound, hBefore⟩ := List.findIdx?_eq_some_iff_getElem.mp hIndex
  unfold substr
  rw [Nat.add_sub_cancel_left]
  constructor
  · have hSplit := List.take_append_drop index (text.drop start)
    rw [List.drop_eq_getElem_cons hLess, beq_iff_eq.mp hFound, List.drop_drop] at hSplit
    exact hSplit.symm
  · intro hMem
    obtain ⟨earlier, hEarlier, hSame⟩ := List.mem_iff_getElem.mp hMem
    rw [List.getElem_take] at hSame
    rw [List.length_take] at hEarlier
    exact hBefore earlier (by omega) (beq_iff_eq.mpr hSame)

/-- The first occurrence of a character. -/
theorem findFrom_append {before after : List Char} (h : c ∉ before) :
    findFrom (before ++ c :: after) c 0 = some before.length := by
  cases hFound : findFrom (before ++ c :: after) c 0 with
  | none =>
    rw [findFrom_eq_none, List.drop_zero] at hFound
    exact absurd (List.mem_append_right _ List.mem_cons_self) hFound
  | some position =>
    have hBounds := findFrom_bounds hFound
    obtain ⟨hSplit, hBefore⟩ := findFrom_eq_some hFound
    rw [List.drop_zero, Nat.sub_zero] at hSplit
    rw [Nat.sub_zero] at hBefore
    have hTake : substr (before ++ c :: after) 0 position = before := by
      have hWhile := congrArg (List.takeWhile (fun other => other != c)) hSplit
      rw [takeWhile_ne h, takeWhile_ne hBefore] at hWhile
      exact hWhile.symm
    have hLength := congrArg List.length hTake
    unfold substr at hLength
    rw [List.length_take, List.drop_zero] at hLength
    rw [show position = before.length by omega]

/-! ## Path and query -/

theorem pathFromTarget_of_not_mem {path : List Char} (h : '?' ∉ path) : pathFromTarget path = path := by
  unfold pathFromTarget
  rw [findFrom_eq_none.mpr (by rwa [List.drop_zero])]

theorem pathFromTarget_append {path : List Char} (h : '?' ∉ path) (query : List Char) :
    pathFromTarget (path ++ '?' :: query) = path := by
  unfold pathFromTarget
  rw [findFrom_append h]
  exact List.take_left

theorem queryParameter_append {path : List Char} (h : '?' ∉ path) (query name : List Char) :
    queryParameter (path ++ '?' :: query) name =
      if query = [] then none else queryFrom query name 0 := by
  unfold queryParameter
  rw [findFrom_append h]
  have hDrop : (path ++ '?' :: query).drop (path.length + 1) = query := by
    rw [List.drop_append, List.drop_eq_nil_of_le (Nat.le_succ _), Nat.add_sub_cancel_left]
    rfl
  simp only [hDrop, List.length_append, List.length_cons]
  cases query with
  | nil =>
    rw [if_pos rfl]
    exact if_pos (le_refl _)
  | cons c query =>
    rw [if_neg (by simp), if_neg (List.cons_ne_nil _ _)]

theorem queryParameter_of_not_mem {target : List Char} (h : '?' ∉ target) (name : List Char) :
    queryParameter target name = none := by
  unfold queryParameter
  rw [findFrom_eq_none.mpr (by rwa [List.drop_zero])]

/-- Every target is a path, or a path and a query. -/
theorem target_cases (target : List Char) :
    '?' ∉ target ∨ ∃ path query, '?' ∉ path ∧ target = path ++ '?' :: query := by
  cases hFound : findFrom target '?' 0 with
  | none => exact .inl (by simpa using findFrom_eq_none.mp hFound)
  | some position =>
    obtain ⟨hSplit, hBefore⟩ := findFrom_eq_some hFound
    exact .inr ⟨_, _, hBefore, by simpa using hSplit⟩

/-! ## Segments -/

theorem splitPathFrom_eq {path : List Char} {start : Nat} (h : start ≤ path.length) :
    splitPathFrom path start = (path.drop start).splitOn '/' := by
  fun_induction splitPathFrom path start with
  | case1 start _ hNone => rw [List.splitOn_eq_singleton (findFrom_eq_none.mp hNone)]
  | case2 start _ separator hFound ih =>
    obtain ⟨hSplit, hBefore⟩ := findFrom_eq_some hFound
    have hBounds := findFrom_bounds hFound
    rw [hSplit, List.splitOn_append_cons_self_of_not_mem hBefore]
    split
    · rename_i hLast
      rw [hLast, List.drop_length]
      rfl
    · rw [ih (by omega)]
  | case3 start hOver => exact absurd h hOver

/-- A path without its first slash, split at the others; the path of one slash has no
segments. -/
theorem splitPath_eq (rest : List Char) :
    splitPath ('/' :: rest) = if rest = [] then [] else rest.splitOn '/' := by
  unfold splitPath
  by_cases hRest : rest = []
  · rw [hRest]
    rfl
  · rw [if_neg hRest, if_neg (by simpa using hRest), splitPathFrom_eq (by simp)]
    rfl

/-! ## Pairs -/

def pairKey (pair : List Char) : Option (List Char) :=
  decodeComponent (pair.takeWhile (fun c => c != '=')) true

def pairValue (pair : List Char) : Option (List Char) :=
  decodeComponent ((pair.dropWhile (fun c => c != '=')).drop 1) true

/-- The first pair of a query with a key that decodes to the name. -/
def firstPair (query name : List Char) : Option (List Char) :=
  (query.splitOn '&').find? (fun pair => pairKey pair = some name)

/-- The pair that the loop reads at `start`, and what is left behind it. -/
theorem splitOn_drop (query : List Char) (start : Nat) :
    (query.drop start).splitOn '&' =
      substr query start ((findFrom query '&' start).getD query.length - start) ::
        match findFrom query '&' start with
        | none => []
        | some separator => (query.drop (separator + 1)).splitOn '&' := by
  cases hFound : findFrom query '&' start with
  | none =>
    rw [List.splitOn_eq_singleton (findFrom_eq_none.mp hFound)]
    unfold substr
    rw [Option.getD_none, List.take_of_length_le (by simp)]
  | some separator =>
    obtain ⟨hSplit, hBefore⟩ := findFrom_eq_some hFound
    rw [hSplit, List.splitOn_append_cons_self_of_not_mem hBefore]
    rfl

theorem queryFrom_eq {query name : List Char} {start : Nat} (h : start ≤ query.length) :
    queryFrom query name start = (firstPair (query.drop start) name).bind pairValue := by
  fun_induction queryFrom query name start with
  | case1 start _ pair rawKey rawValue hKey =>
    have hFirst : firstPair (query.drop start) name = some pair := by
      unfold firstPair
      rw [splitOn_drop, List.find?_cons_of_pos]
      exact decide_eq_true hKey
    rw [hFirst]
    rfl
  | case2 start _ pair rawKey hKey hNone =>
    have hFirst : firstPair (query.drop start) name = none := by
      unfold firstPair
      rw [splitOn_drop, List.find?_cons_of_neg, hNone]
      · rfl
      · exact fun hSame => hKey (of_decide_eq_true hSame)
    rw [hFirst]
    rfl
  | case3 start _ pair rawKey hKey separator hFound ih =>
    have hFirst : firstPair (query.drop start) name = firstPair (query.drop (separator + 1)) name := by
      unfold firstPair
      rw [splitOn_drop, List.find?_cons_of_neg, hFound]
      exact fun hSame => hKey (of_decide_eq_true hSame)
    rw [hFirst]
    exact ih (findFrom_bounds hFound).2
  | case4 start hOver => exact absurd h hOver

/-- The text behind the first question mark. -/
def queryText (target : List Char) : List Char := (target.dropWhile (fun c => c != '?')).drop 1

/-- The pairs of a query; an empty query has none. -/
def queryPairs (target : List Char) : List (List Char) :=
  if queryText target = [] then [] else (queryText target).splitOn '&'

theorem queryText_append {path : List Char} (h : '?' ∉ path) (query : List Char) :
    queryText (path ++ '?' :: query) = query := by
  unfold queryText
  rw [dropWhile_ne h]
  rfl

theorem queryText_of_not_mem {target : List Char} (h : '?' ∉ target) : queryText target = [] := by
  unfold queryText
  rw [List.dropWhile_eq_nil_iff.mpr]
  · rfl
  · intro c hc
    exact bne_iff_ne.mpr (fun hSame => h (hSame ▸ hc))

theorem queryParameter_eq (target name : List Char) : queryParameter target name =
    ((queryPairs target).find? (fun pair => pairKey pair = some name)).bind pairValue := by
  unfold queryPairs
  rcases target_cases target with hNone | ⟨path, query, hPath, rfl⟩
  · rw [queryParameter_of_not_mem hNone, queryText_of_not_mem hNone, if_pos rfl]
    rfl
  · rw [queryParameter_append hPath, queryText_append hPath]
    split
    · rfl
    · rw [queryFrom_eq (Nat.zero_le _)]
      rfl

end SecureCore

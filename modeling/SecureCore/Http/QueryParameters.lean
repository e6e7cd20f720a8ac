import SecureCore.Http.PercentCoding
import SecureCore.Http.RequestValidation
import SecureCore.Http.Targets

/-! # Query parameters

What query_parameter finds in a query, and what its readers make of it. -/

namespace SecureCore

set_option autoImplicit false

open Coding TrustedProxyResolver

/-! ## Pairs -/

def HasKey (name pair : List Char) : Prop :=
  Encodes (escapes true) name (pair.takeWhile (fun c => c != '='))

def ReadsAs (pair value : List Char) : Prop :=
  Encodes (escapes true) value ((pair.dropWhile (fun c => c != '=')).drop 1)

theorem pairKey_eq_some_iff {pair name : List Char} : pairKey pair = some name ↔ HasKey name pair :=
  decodeComponent_eq_some_iff

theorem pairValue_eq_some_iff {pair value : List Char} :
    pairValue pair = some value ↔ ReadsAs pair value := decodeComponent_eq_some_iff

/-- The first pair of a target with a key that decodes to the name. -/
def IsFirstPair (target name pair : List Char) : Prop :=
  ∃ before after, queryPairs target = before ++ pair :: after ∧
    (∀ earlier ∈ before, ¬HasKey name earlier) ∧ HasKey name pair

theorem queryParameter_of_first {target name pair : List Char} (h : IsFirstPair target name pair) :
    queryParameter target name = pairValue pair := by
  obtain ⟨before, after, hPairs, hBefore, hPair⟩ := h
  rw [queryParameter_eq, hPairs, List.find?_append, List.find?_eq_none.mpr, Option.none_or,
    List.find?_cons_of_pos]
  · rfl
  · exact decide_eq_true (pairKey_eq_some_iff.mpr hPair)
  · intro earlier hEarlier hKey
    exact hBefore earlier hEarlier (pairKey_eq_some_iff.mp (of_decide_eq_true hKey))

theorem queryParameter_of_none {target name : List Char}
    (h : ∀ pair ∈ queryPairs target, ¬HasKey name pair) : queryParameter target name = none := by
  rw [queryParameter_eq, List.find?_eq_none.mpr]
  · rfl
  · intro pair hPair hKey
    exact h pair hPair (pairKey_eq_some_iff.mp (of_decide_eq_true hKey))

/-! ## Rendered queries -/

/-- A key or a value in a query, with the bytes escaped that would be read otherwise. -/
abbrev QueryCode : Char → List Char → Prop := Escapes ['%', '&', '=', '+'] true

def renderPair (coded : List Char × List Char) : List Char := coded.1 ++ '=' :: coded.2

def renderQuery (coded : List (List Char × List Char)) : List Char :=
  ['&'].intercalate (coded.map renderPair)

theorem decodeComponent_of_queryCode {value raw : List Char} (h : Encodes QueryCode value raw) :
    decodeComponent raw true = some value :=
  decodeComponent_of_encodes (by decide) (fun _ => by decide) h

/-- Both sides of a pair under one code. -/
def PairCode (pair coded : List Char × List Char) : Prop :=
  Encodes QueryCode pair.1 coded.1 ∧ Encodes QueryCode pair.2 coded.2

theorem PairCode.read {pair coded : List Char × List Char} (h : PairCode pair coded) :
    pairKey (renderPair coded) = some pair.1 ∧ pairValue (renderPair coded) = some pair.2 := by
  have hEquals : '=' ∉ coded.1 :=
    encodes_not_mem (by decide) (by decide) (by decide) (by decide) h.1
  unfold pairKey pairValue renderPair
  rw [takeWhile_ne hEquals, dropWhile_ne hEquals]
  exact ⟨decodeComponent_of_queryCode h.1, decodeComponent_of_queryCode h.2⟩

theorem PairCode.no_ampersand {pair coded : List Char × List Char} (h : PairCode pair coded) :
    '&' ∉ renderPair coded := by
  unfold renderPair
  rw [List.mem_append, List.mem_cons, not_or, not_or]
  exact ⟨encodes_not_mem (by decide) (by decide) (by decide) (by decide) h.1, by decide,
    encodes_not_mem (by decide) (by decide) (by decide) (by decide) h.2⟩

theorem find_rendered {pairs coded : List (List Char × List Char)}
    (h : List.Forall₂ PairCode pairs coded) (name : List Char) :
    ((coded.map renderPair).find? (fun pair => pairKey pair = some name)).bind pairValue =
      (pairs.find? (fun pair => pair.1 = name)).map Prod.snd := by
  induction h with
  | nil => rfl
  | @cons pair coded pairs codeds hPair _ ih =>
    obtain ⟨hKey, hValue⟩ := hPair.read
    rw [List.map_cons, List.find?_cons, List.find?_cons, hKey]
    by_cases hName : pair.1 = name
    · simp only [hName, decide_true]
      exact hValue
    · simp only [hName, Option.some.injEq, decide_false]
      exact ih

theorem ne_nil_of_intercalate {texts : List (List Char)} {text : List Char} (hText : text ∈ texts)
    (hNonempty : text ≠ []) : ['&'].intercalate texts ≠ [] := by
  cases texts with
  | nil => cases hText
  | cons first texts =>
    cases texts with
    | nil =>
      rw [List.mem_singleton] at hText
      rw [List.intercalate_singleton, ← hText]
      exact hNonempty
    | cons next texts =>
      rw [List.intercalate_cons_cons]
      exact fun hEmpty => List.cons_ne_nil _ _ (List.append_eq_nil_iff.mp
        (List.append_eq_nil_iff.mp hEmpty).1).2

theorem rendered_no_ampersand {pairs coded : List (List Char × List Char)}
    (h : List.Forall₂ PairCode pairs coded) : ∀ text ∈ coded.map renderPair, '&' ∉ text := by
  induction h with
  | nil => exact nofun
  | cons hPair _ ih =>
    rw [List.map_cons, List.forall_mem_cons]
    exact ⟨hPair.no_ampersand, ih⟩

theorem queryPairs_rendered {path : List Char} (hPath : '?' ∉ path)
    {pairs coded : List (List Char × List Char)} (h : List.Forall₂ PairCode pairs coded) :
    queryPairs (path ++ '?' :: renderQuery coded) = coded.map renderPair := by
  have hAmpersand := rendered_no_ampersand h
  unfold queryPairs renderQuery
  rw [queryText_append hPath]
  cases coded with
  | nil => rfl
  | cons first coded =>
    have hFirst : renderPair first ≠ [] := List.append_ne_nil_of_right_ne_nil _ (List.cons_ne_nil _ _)
    have hMem : renderPair first ∈ (first :: coded).map renderPair := List.mem_cons_self
    have hNonempty := ne_nil_of_intercalate hMem hFirst
    rw [if_neg hNonempty, List.splitOn_intercalate '&' hAmpersand (List.cons_ne_nil _ _)]

/-! ## The first pair -/

/-- Rendered pairs come back, and any query is read up to the first pair with the name;
pairs with a key that does not decode have no name. -/
theorem query_parameter_inverts :
    (∀ path pairs coded name, '?' ∉ path → List.Forall₂ PairCode pairs coded →
      queryParameter (path ++ '?' :: renderQuery coded) name =
        (pairs.find? (fun pair => pair.1 = name)).map Prod.snd) ∧
    (∀ target target' name, queryText target = queryText target' →
      queryParameter target name = queryParameter target' name) ∧
    (∀ target name, (∀ pair ∈ queryPairs target, ¬HasKey name pair) →
      queryParameter target name = none) ∧
    ∀ target name pair, IsFirstPair target name pair →
      ∀ value, queryParameter target name = some value ↔ ReadsAs pair value := by
  constructor
  · intro path pairs coded name hPath hCoded
    rw [queryParameter_eq, queryPairs_rendered hPath hCoded, find_rendered hCoded]
  constructor
  · intro target target' name hText
    rw [queryParameter_eq, queryParameter_eq]
    unfold queryPairs
    rw [hText]
  constructor
  · intro target name hNone
    exact queryParameter_of_none hNone
  · intro target name pair hFirst value
    rw [queryParameter_of_first hFirst]
    exact pairValue_eq_some_iff

end SecureCore

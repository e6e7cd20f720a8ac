import SecureCore.Http.QueryParameters
import SecureCore.Http.RequestValidation

/-! # Readers of query parameters

The value of a present parameter is read or refused as long as it decodes. A value that does
not decode counts as an absent parameter. -/

namespace SecureCore

set_option autoImplicit false

open TrustedProxyResolver

variable {value : List Char}

/-! ## Integers -/

/-- The integer that a text denotes. -/
inductive Denotes : List Char → Int → Prop
  | natural {digits : List Char} (hDigits : digits ≠ []) (hAll : ∀ c ∈ digits, c.isDigit = true) :
      Denotes digits (decimalValue digits)
  | negative {digits : List Char} (hDigits : digits ≠ []) (hAll : ∀ c ∈ digits, c.isDigit = true) :
      Denotes ('-' :: digits) (-(decimalValue digits))

theorem fromChars_of_denotes {result : Int} (h : Denotes value result) (hLeast : -2 ^ 63 ≤ result)
    (hGreatest : result < 2 ^ 63) : fromChars value = .parsed result [] := by
  have hRange : ¬(result < -2 ^ 63 ∨ 2 ^ 63 ≤ result) := by omega
  cases h with
  | natural hDigits hAll =>
    have hSign : (value.head? == some '-') = false := by
      cases value with
      | nil => rfl
      | cons c value =>
        have hDigit := hAll c List.mem_cons_self
        rw [List.head?_cons, beq_eq_false_iff_ne]
        rintro ⟨⟩
        exact absurd hDigit (by decide)
    unfold fromChars
    simp only [hSign, Bool.false_eq_true, if_false]
    rw [List.takeWhile_eq_self_iff.mpr hAll, List.dropWhile_eq_nil_iff.mpr hAll,
      if_neg (by simpa using hDigits), if_neg hRange]
  | @negative digits hDigits hAll =>
    unfold fromChars
    simp only [List.head?_cons, beq_self_eq_true, if_true, List.tail_cons]
    rw [List.takeWhile_eq_self_iff.mpr hAll, List.dropWhile_eq_nil_iff.mpr hAll,
      if_neg (by simpa using hDigits), if_neg hRange]

/-- What from_chars makes of the text behind the sign, read to the end. -/
theorem digits_of_parsed {text : List Char} {read result : Int}
    (h : (if (text.takeWhile Char.isDigit).isEmpty then FromChars.invalidArgument
      else if read < -2 ^ 63 ∨ 2 ^ 63 ≤ read then .resultOutOfRange
      else .parsed read (text.dropWhile Char.isDigit)) = .parsed result []) :
    text ≠ [] ∧ (∀ c ∈ text, c.isDigit = true) ∧ read = result ∧ -2 ^ 63 ≤ read ∧ read < 2 ^ 63 := by
  split at h
  · cases h
  · rename_i hDigits
    split at h
    · cases h
    · rw [FromChars.parsed.injEq, List.dropWhile_eq_nil_iff] at h
      obtain ⟨hResult, hAll⟩ := h
      rw [List.takeWhile_eq_self_iff.mpr hAll, List.isEmpty_iff] at hDigits
      exact ⟨hDigits, hAll, hResult, by omega, by omega⟩

theorem denotes_of_fromChars {result : Int} (h : fromChars value = .parsed result []) :
    Denotes value result ∧ -2 ^ 63 ≤ result ∧ result < 2 ^ 63 := by
  unfold fromChars at h
  cases hSign : value.head? == some '-' with
  | false =>
    simp only [hSign, Bool.false_eq_true, if_false] at h
    obtain ⟨hDigits, hAll, hResult, hRange⟩ := digits_of_parsed h
    rw [List.takeWhile_eq_self_iff.mpr hAll] at hResult hRange
    rw [← hResult]
    exact ⟨.natural hDigits hAll, hRange⟩
  | true =>
    simp only [hSign, if_true] at h
    obtain ⟨hDigits, hAll, hResult, hRange⟩ := digits_of_parsed h
    rw [List.takeWhile_eq_self_iff.mpr hAll] at hResult hRange
    have hValue : value = '-' :: value.tail := by
      cases value with
      | nil => cases hSign
      | cons c rest =>
        rw [List.head?_cons, beq_iff_eq, Option.some.injEq] at hSign
        rw [hSign, List.tail_cons]
    rw [hValue, ← hResult]
    exact ⟨.negative hDigits hAll, hRange⟩

theorem parseInteger_eq_some_iff {minimum maximum result : Int} (hLeast : -2 ^ 63 ≤ minimum)
    (hGreatest : maximum < 2 ^ 63) : parseInteger value minimum maximum = some result ↔
      Denotes value result ∧ minimum ≤ result ∧ result ≤ maximum := by
  constructor
  · intro h
    unfold parseInteger at h
    split at h
    · cases h
    · split at h
      · rename_i parsed hParsed
        split at h
        · cases h
        · cases h
          exact ⟨(denotes_of_fromChars hParsed).1, by omega, by omega⟩
      · cases h
  · rintro ⟨hDenotes, hMinimum, hMaximum⟩
    have hValue : value.isEmpty = false := by
      cases hDenotes with
      | natural hDigits _ => simpa using hDigits
      | negative _ _ => rfl
    unfold parseInteger
    rw [hValue, fromChars_of_denotes hDenotes (by omega) (by omega)]
    simp only [Bool.false_eq_true, if_false]
    exact if_neg (by omega)

/-! ## Present parameters -/

def Refused {α : Type} (outcome : Except Thrown α) : Prop :=
  ∃ error, outcome = .error (.api 422 error) ∧ error.code = "validation_failed"

/-- A present parameter with an accepted value is read, any other one is refused. -/
structure Honours {α β : Type} (pair : List Char) (accepted : List Char → α → Prop) (present : α → β)
    (outcome : Except Thrown β) : Prop where
  reads : ∀ value a, ReadsAs pair value → accepted value a → outcome = .ok (present a)
  refuses : (∀ value a, ReadsAs pair value → ¬accepted value a) → Refused outcome

variable (request : HttpMessage) (name : String)

def IntegerHonoured : Prop :=
  ∀ pair, IsFirstPair request.target name.toList pair →
    ∀ defaultValue minimum maximum : Int, -2 ^ 63 ≤ minimum → maximum < 2 ^ 63 →
      Honours pair (fun value parsed => Denotes value parsed ∧ minimum ≤ parsed ∧ parsed ≤ maximum)
        id (queryIntegerOrDefault request name defaultValue minimum maximum)

def StringHonoured : Prop :=
  ∀ pair, IsFirstPair request.target name.toList pair → ∀ maximumSize : Nat,
    Honours pair (fun value text => text = value ∧ value ≠ [] ∧ value.length ≤ maximumSize)
      some (optionalQueryString request name maximumSize)

def PositiveIntegerHonoured : Prop :=
  ∀ pair, IsFirstPair request.target name.toList pair →
    Honours pair (fun value parsed => Denotes value parsed ∧ 0 < parsed ∧ parsed < 2 ^ 63)
      some (optionalPositiveIntegerQuery request name)

/-- The value of the first pair with the name is properly encoded. -/
def FirstPairDecodes : Prop :=
  ∀ pair, IsFirstPair request.target name.toList pair → ∃ value, ReadsAs pair value

variable {request : HttpMessage} {name : String} {pair : List Char}

theorem refused_validationFailed {α : Type} (field reason : String) :
    Refused (.error (validationFailed field reason) : Except Thrown α) := ⟨_, rfl, rfl⟩

theorem not_refused_ok {α : Type} (a : α) : ¬Refused (.ok a) := by
  rintro ⟨_, hOutcome, _⟩
  cases hOutcome

/-- A value is read in only one way. -/
theorem ReadsAs.unique {other : List Char} (h : ReadsAs pair value) (hOther : ReadsAs pair other) :
    value = other := by
  rw [← pairValue_eq_some_iff] at h hOther
  exact Option.some.inj (h.symm.trans hOther)

theorem ReadsAs.queryParameter (h : ReadsAs pair value)
    (hFirst : IsFirstPair request.target name.toList pair) :
    queryParameter request.target name.toList = some value := by
  rw [queryParameter_of_first hFirst]
  exact pairValue_eq_some_iff.mpr h

/-- A value that does not decode looks like an absent parameter. -/
theorem queryParameter_of_malformed (hFirst : IsFirstPair request.target name.toList pair)
    (hMalformed : ¬∃ value, ReadsAs pair value) :
    queryParameter request.target name.toList = none := by
  rw [queryParameter_of_first hFirst]
  cases hValue : pairValue pair with
  | none => rfl
  | some value => exact absurd ⟨value, pairValue_eq_some_iff.mp hValue⟩ hMalformed

/-- A reader honours a parameter with a properly encoded value if it does so with the
decoded value. -/
theorem honours_of_readsAs {α β : Type} {accepted : List Char → α → Prop} {present : α → β}
    {outcome : Except Thrown β} (hRead : ReadsAs pair value)
    (hReads : ∀ a, accepted value a → outcome = .ok (present a))
    (hRefuses : (∀ a, ¬accepted value a) → Refused outcome) :
    Honours pair accepted present outcome where
  reads _ a hOther hAccepted := hReads a (hRead.unique hOther ▸ hAccepted)
  refuses hNone := hRefuses (fun a => hNone value a hRead)

theorem not_honours_of_malformed {α β : Type} {accepted : List Char → α → Prop} {present : α → β}
    {result : β} (hMalformed : ¬∃ value, ReadsAs pair value) :
    ¬Honours pair accepted present (.ok result) := by
  intro h
  exact not_refused_ok result (h.refuses (fun value _ hRead => absurd ⟨value, hRead⟩ hMalformed))

theorem integerHonoured_iff : IntegerHonoured request name ↔ FirstPairDecodes request name := by
  constructor
  · intro h pair hFirst
    by_contra hMalformed
    have hHonours := h pair hFirst 0 0 0 (by decide) (by decide)
    unfold queryIntegerOrDefault at hHonours
    rw [queryParameter_of_malformed hFirst hMalformed] at hHonours
    exact not_honours_of_malformed hMalformed hHonours
  · intro h pair hFirst defaultValue minimum maximum hLeast hGreatest
    obtain ⟨value, hRead⟩ := h pair hFirst
    unfold queryIntegerOrDefault
    rw [hRead.queryParameter hFirst]
    simp only
    apply honours_of_readsAs hRead
    · intro parsed hAccepted
      simp only [(parseInteger_eq_some_iff hLeast hGreatest).mpr hAccepted]
      rfl
    · intro hNone
      cases hParsed : parseInteger value minimum maximum with
      | none =>
        simp only
        exact refused_validationFailed _ _
      | some parsed =>
        exact absurd ((parseInteger_eq_some_iff hLeast hGreatest).mp hParsed) (hNone parsed)

theorem stringHonoured_iff : StringHonoured request name ↔ FirstPairDecodes request name := by
  constructor
  · intro h pair hFirst
    by_contra hMalformed
    have hHonours := h pair hFirst 0
    unfold optionalQueryString at hHonours
    rw [queryParameter_of_malformed hFirst hMalformed] at hHonours
    exact not_honours_of_malformed hMalformed hHonours
  · intro h pair hFirst maximumSize
    obtain ⟨value, hRead⟩ := h pair hFirst
    unfold optionalQueryString
    rw [hRead.queryParameter hFirst]
    simp only [Bool.or_eq_true, List.isEmpty_iff, decide_eq_true_eq]
    apply honours_of_readsAs hRead
    · rintro text ⟨rfl, hNonempty, hLength⟩
      exact if_neg (not_or.mpr ⟨hNonempty, Nat.not_lt.mpr hLength⟩)
    · intro hNone
      split
      · exact refused_validationFailed _ _
      · rename_i hValid
        rw [not_or, Nat.not_lt] at hValid
        exact absurd ⟨rfl, hValid⟩ (hNone value)

theorem positiveIntegerHonoured_iff :
    PositiveIntegerHonoured request name ↔ FirstPairDecodes request name := by
  constructor
  · intro h pair hFirst
    by_contra hMalformed
    have hHonours := h pair hFirst
    unfold optionalPositiveIntegerQuery at hHonours
    rw [queryParameter_of_malformed hFirst hMalformed] at hHonours
    exact not_honours_of_malformed hMalformed hHonours
  · intro h pair hFirst
    obtain ⟨value, hRead⟩ := h pair hFirst
    unfold optionalPositiveIntegerQuery
    rw [hRead.queryParameter hFirst]
    simp only
    apply honours_of_readsAs hRead
    · rintro parsed ⟨hDenotes, hPositive, hGreatest⟩
      rw [fromChars_of_denotes hDenotes (by omega) hGreatest]
      exact if_neg (by omega)
    · intro hNone
      split
      · rename_i parsed hParsed
        obtain ⟨hDenotes, -, hGreatest⟩ := denotes_of_fromChars hParsed
        have hNotPositive : parsed ≤ 0 := by
          by_contra hPositive
          exact hNone parsed ⟨hDenotes, by omega, hGreatest⟩
        rw [if_pos hNotPositive]
        exact refused_validationFailed _ _
      · exact refused_validationFailed _ _

/-- The readers honour a present parameter exactly if its value decodes. An absent parameter
is the default. -/
theorem present_parameters (request : HttpMessage) (name : String) :
    (IntegerHonoured request name ↔ FirstPairDecodes request name) ∧
    (StringHonoured request name ↔ FirstPairDecodes request name) ∧
    (PositiveIntegerHonoured request name ↔ FirstPairDecodes request name) ∧
    ((∀ pair ∈ queryPairs request.target, ¬HasKey name.toList pair) →
      (∀ defaultValue minimum maximum,
        queryIntegerOrDefault request name defaultValue minimum maximum = .ok defaultValue) ∧
      (∀ maximumSize, optionalQueryString request name maximumSize = .ok none) ∧
      optionalPositiveIntegerQuery request name = .ok none) := by
  refine ⟨integerHonoured_iff, stringHonoured_iff, positiveIntegerHonoured_iff, ?_⟩
  intro hNone
  unfold queryIntegerOrDefault optionalQueryString optionalPositiveIntegerQuery
  rw [queryParameter_of_none hNone]
  exact ⟨fun _ _ _ => rfl, fun _ => rfl, rfl⟩

/-- The page of one actor, with a value that does not decode. -/
def malformedFilter : HttpMessage :=
  { version := 11
    method := "GET"
    target := "/v1/admin/audit-events?actor_user_id=%zz".toList
    fields := []
    body := "" }

theorem malformedFilter_unfiltered :
    optionalPositiveIntegerQuery malformedFilter "actor_user_id" = .ok none ∧
      ¬PositiveIntegerHonoured malformedFilter "actor_user_id" := by
  have hPairs : queryPairs malformedFilter.target = ["actor_user_id=%zz".toList] := by
    decide +kernel
  have hKey : pairKey "actor_user_id=%zz".toList = some "actor_user_id".toList := by decide +kernel
  have hValue : pairValue "actor_user_id=%zz".toList = none := by decide +kernel
  have hFirst : IsFirstPair malformedFilter.target "actor_user_id".toList
      "actor_user_id=%zz".toList := ⟨[], [], hPairs, nofun, pairKey_eq_some_iff.mp hKey⟩
  constructor
  · decide +kernel
  · intro h
    obtain ⟨value, hRead⟩ := positiveIntegerHonoured_iff.mp h _ hFirst
    rw [← pairValue_eq_some_iff, hValue] at hRead
    cases hRead

end SecureCore

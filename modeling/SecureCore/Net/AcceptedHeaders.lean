import SecureCore.Net.TrustedProxy

/-! # What accepted headers say

The parsers go through a header with accumulators. Here the chain and the scheme of a
header are read off its parts, and an accepted header has what is read. -/

namespace SecureCore.TrustedProxy

set_option autoImplicit false

/-! ## Parsers that succeed -/

section ok

variable {ε α β γ σ : Type}

theorem bind_eq_ok {x : Except ε α} {f : α → Except ε β} {b : β} :
    (x >>= f) = .ok b ↔ ∃ a, x = .ok a ∧ f a = .ok b := by
  cases x with
  | error e =>
    constructor
    · intro h
      cases h
    · rintro ⟨a, h, -⟩
      cases h
  | ok a =>
    constructor
    · intro h
      exact ⟨a, rfl, h⟩
    · rintro ⟨a', h, hf⟩
      cases h
      exact hf

/-- What every item appends to a list, all of them append. -/
theorem foldlM_appends {f : σ → α → Except ε σ} {collected : σ → List γ} {item : α → List γ}
    (hStep : ∀ s a s', f s a = .ok s' → collected s' = collected s ++ item a) {xs : List α}
    {s s' : σ} (h : xs.foldlM f s = .ok s') : collected s' = collected s ++ xs.flatMap item := by
  induction xs generalizing s with
  | nil =>
    cases h
    rw [List.flatMap_nil, List.append_nil]
  | cons a xs ih =>
    rw [List.foldlM_cons] at h
    obtain ⟨t, hHead, hTail⟩ := bind_eq_ok.mp h
    rw [ih hTail, hStep s a t hHead, List.append_assoc, List.flatMap_cons]

/-- If every item decides what is still undecided, the first that says something does. -/
theorem foldlM_decides {f : σ → α → Except ε σ} {decided : σ → Option γ} {item : α → Option γ}
    (hStep : ∀ s a s', f s a = .ok s' → decided s' = (decided s).or (item a)) {xs : List α}
    {s s' : σ} (h : xs.foldlM f s = .ok s') : decided s' = (decided s).or (xs.findSome? item) := by
  induction xs generalizing s with
  | nil =>
    cases h
    rw [List.findSome?_nil, Option.or_none]
  | cons a xs ih =>
    rw [List.foldlM_cons] at h
    obtain ⟨t, hHead, hTail⟩ := bind_eq_ok.mp h
    rw [ih hTail, hStep s a t hHead, Option.or_assoc, List.findSome?_cons]
    cases item a <;> rfl

end ok

/-! ## Splitting -/

theorem splitFrom_cons (delimiter : Char) (quoted escaped : Bool) (part : List Char) (c : Char)
    (rest : List Char) : splitFrom delimiter quoted escaped part (c :: rest) =
      if escaped then splitFrom delimiter quoted false (part ++ [c]) rest
      else if quoted && c == '\\' then splitFrom delimiter quoted true (part ++ [c]) rest
      else if c == '"' then splitFrom delimiter (!quoted) false (part ++ [c]) rest
      else if !quoted && c == delimiter then do
        let parts ← splitFrom delimiter quoted false [] rest
        .ok (trimChars part :: parts)
      else splitFrom delimiter quoted false (part ++ [c]) rest := rfl

theorem splitFrom_append {delimiter : Char} (hDelimiter : delimiter ≠ '"') {value : List Char}
    {quoted escaped : Bool} {part : List Char} {parts : List (List Char)}
    (h : splitFrom delimiter quoted escaped part value = .ok parts) (right : List Char) :
    splitFrom delimiter quoted escaped part (value ++ delimiter :: right) = (do
      let more ← splitFrom delimiter false false [] right
      .ok (parts ++ more)) := by
  induction value generalizing quoted escaped part parts with
  | nil =>
    unfold splitFrom at h
    split at h
    · cases h
    · rename_i hClosed
      rw [Bool.or_eq_true, not_or, Bool.not_eq_true, Bool.not_eq_true] at hClosed
      obtain ⟨rfl, rfl⟩ := hClosed
      cases h
      rw [List.nil_append, splitFrom_cons]
      simp [hDelimiter]
  | cons c rest ih =>
    rw [List.cons_append]
    rw [splitFrom_cons] at h ⊢
    by_cases hEscaped : escaped = true
    · rw [if_pos hEscaped] at h ⊢
      exact ih h
    · rw [if_neg hEscaped] at h ⊢
      by_cases hBackslash : (quoted && c == '\\') = true
      · rw [if_pos hBackslash] at h ⊢
        exact ih h
      · rw [if_neg hBackslash] at h ⊢
        by_cases hQuote : (c == '"') = true
        · rw [if_pos hQuote] at h ⊢
          exact ih h
        · rw [if_neg hQuote] at h ⊢
          by_cases hSplit : (!quoted && c == delimiter) = true
          · rw [if_pos hSplit] at h ⊢
            obtain ⟨later, hLater, hParts⟩ := bind_eq_ok.mp h
            cases hParts
            have hClosed : quoted = false := by
              rw [Bool.and_eq_true] at hSplit
              simpa using hSplit.1
            subst hClosed
            rw [ih hLater, bind_assoc]
            rfl
          · rw [if_neg hSplit] at h ⊢
            exact ih h

/-- The parts of a value that can be split, none otherwise. -/
def partsOf (value : List Char) (delimiter : Char) : List (List Char) :=
  match splitTopLevel value delimiter with
  | .ok parts => parts
  | .error _ => []

theorem partsOf_of_ok {value : List Char} {delimiter : Char} {parts : List (List Char)}
    (h : splitTopLevel value delimiter = .ok parts) : partsOf value delimiter = parts := by
  unfold partsOf
  rw [h]

/-- A comma outside of quotes separates the parts of its two sides. -/
theorem partsOf_append {left right : List Char} {leftParts rightParts : List (List Char)}
    (hLeft : splitTopLevel left ',' = .ok leftParts)
    (hRight : splitTopLevel right ',' = .ok rightParts) :
    partsOf (left ++ ',' :: right) ',' = partsOf left ',' ++ partsOf right ',' := by
  rw [partsOf_of_ok hLeft, partsOf_of_ok hRight]
  apply partsOf_of_ok
  unfold splitTopLevel at hRight ⊢
  rw [splitFrom_append (by decide) hLeft, hRight]
  rfl

/-! ## Forwarded -/

variable (text : AddressText)

def addressOf (token : List Char) : List Address :=
  match parseIpToken text token with
  | .ok address => [address]
  | .error _ => []

def parameterName (parameter : List Char) : List Char :=
  lowercaseChars (trimChars (parameter.takeWhile (fun c => c != '=')))

def parameterValue (parameter : List Char) : List Char :=
  trimChars ((parameter.dropWhile (fun c => c != '=')).drop 1)

def forOf (parameter : List Char) : List Address :=
  if parameterName parameter == "for".toList then addressOf text (parameterValue parameter) else []

def protoOf (parameter : List Char) : Option (List Char) :=
  if parameterName parameter == "proto".toList then
    match unquote (parameterValue parameter) with
    | .ok value => some (lowercaseChars value)
    | .error _ => none
  else none

/-- The addresses of all `for` parameters. -/
def addressesOf (value : List Char) : List Address :=
  (partsOf value ',').flatMap (fun element => (partsOf element ';').flatMap (forOf text))

/-- The scheme of the first `proto` parameter, whichever element it is in. -/
def firstProto (value : List Char) : Option (List Char) :=
  (partsOf value ',').findSome? (fun element => (partsOf element ';').findSome? protoOf)

variable {text}

theorem addressOf_of_ok {token : List Char} {address : Address}
    (h : parseIpToken text token = .ok address) : addressOf text token = [address] := by
  unfold addressOf
  rw [h]

theorem parseParameter_ok {values values' : ForwardedValues} {foundFor foundFor' : Bool}
    {parameter : List Char}
    (h : parseParameter text (values, foundFor) parameter = .ok (values', foundFor')) :
    values'.addresses = values.addresses ++ forOf text parameter ∧
      values'.scheme = values.scheme.or (protoOf parameter) := by
  unfold parseParameter at h
  simp only at h
  split at h
  · cases h
  · split at h
    · cases h
    · split at h
      · rename_i hFor
        change (parameterName parameter == "for".toList) = true at hFor
        split at h
        · cases h
        · obtain ⟨address, hAddress, h⟩ := bind_eq_ok.mp h
          cases h
          have hName : parameterName parameter = "for".toList := eq_of_beq hFor
          constructor
          · rw [forOf, if_pos hFor]
            exact congrArg (values.addresses ++ ·) (addressOf_of_ok hAddress).symm
          · rw [protoOf, hName]
            exact Option.or_none.symm
      · rename_i hNotFor
        change ¬(parameterName parameter == "for".toList) = true at hNotFor
        have hAddresses : values.addresses = values.addresses ++ forOf text parameter := by
          rw [forOf, if_neg hNotFor, List.append_nil]
        split at h
        · rename_i hProto
          change (parameterName parameter == "proto".toList && values.scheme.isNone) = true at hProto
          rw [Bool.and_eq_true, Option.isNone_iff_eq_none] at hProto
          obtain ⟨value, hValue, h⟩ := bind_eq_ok.mp h
          split at h
          · cases h
            refine ⟨hAddresses, ?_⟩
            have hOf : protoOf parameter = some (lowercaseChars value) := by
              change unquote (parameterValue parameter) = .ok value at hValue
              rw [protoOf, if_pos hProto.1, hValue]
            rw [hOf, hProto.2, Option.none_or]
          · cases h
        · rename_i hNotProto
          change ¬(parameterName parameter == "proto".toList && values.scheme.isNone) = true
            at hNotProto
          cases h
          refine ⟨hAddresses, ?_⟩
          cases hScheme : values.scheme with
          | some scheme => rfl
          | none =>
            rw [hScheme, Option.isNone_none, Bool.and_true] at hNotProto
            rw [protoOf, if_neg hNotProto]
            rfl

theorem parseElement_ok {values values' : ForwardedValues} {element : List Char}
    (h : parseElement text values element = .ok values') :
    values'.addresses = values.addresses ++ (partsOf element ';').flatMap (forOf text) ∧
      values'.scheme = values.scheme.or ((partsOf element ';').findSome? protoOf) := by
  unfold parseElement at h
  split at h
  · cases h
  · obtain ⟨parameters, hParameters, h⟩ := bind_eq_ok.mp h
    obtain ⟨⟨values'', foundFor⟩, hFold, h⟩ := bind_eq_ok.mp h
    have hSame : values'' = values' := by
      simp only at h
      split at h
      · cases h
      · split at h
        · cases h
        · exact Except.ok.inj h
    subst hSame
    rw [partsOf_of_ok hParameters]
    constructor
    · have hStep : ∀ (s : ForwardedValues × Bool) (p : List Char) (s' : ForwardedValues × Bool),
          parseParameter text s p = .ok s' → s'.1.addresses = s.1.addresses ++ forOf text p :=
        fun _ _ _ hStep => (parseParameter_ok hStep).1
      exact foldlM_appends hStep hFold
    · have hStep : ∀ (s : ForwardedValues × Bool) (p : List Char) (s' : ForwardedValues × Bool),
          parseParameter text s p = .ok s' → s'.1.scheme = s.1.scheme.or (protoOf p) :=
        fun _ _ _ hStep => (parseParameter_ok hStep).2
      exact foldlM_decides hStep hFold

theorem parseForwardedHeader_ok {value : List Char} {values : ForwardedValues}
    (h : parseForwardedHeader text value = .ok values) :
    values.addresses = addressesOf text value ∧ values.scheme = firstProto value := by
  obtain ⟨elements, hElements, hFold⟩ := bind_eq_ok.mp h
  rw [addressesOf, firstProto, partsOf_of_ok hElements]
  constructor
  · have hStep : ∀ (s : ForwardedValues) (e : List Char) (s' : ForwardedValues),
        parseElement text s e = .ok s' →
        s'.addresses = s.addresses ++ (partsOf e ';').flatMap (forOf text) :=
      fun _ _ _ hStep => (parseElement_ok hStep).1
    exact foldlM_appends hStep hFold
  · have hStep : ∀ (s : ForwardedValues) (e : List Char) (s' : ForwardedValues),
        parseElement text s e = .ok s' →
        s'.scheme = s.scheme.or ((partsOf e ';').findSome? protoOf) :=
      fun _ _ _ hStep => (parseElement_ok hStep).2
    exact foldlM_decides hStep hFold

/-- An empty header is one empty element. -/
theorem isEmpty_of_forwarded {value : List Char} {values : ForwardedValues}
    (h : parseForwardedHeader text value = .ok values) : value.isEmpty = false := by
  cases value with
  | nil => cases h
  | cons c rest => rfl

theorem splitTopLevel_of_forwarded {value : List Char} {values : ForwardedValues}
    (h : parseForwardedHeader text value = .ok values) :
    ∃ elements, splitTopLevel value ',' = .ok elements := by
  obtain ⟨elements, hElements, -⟩ := bind_eq_ok.mp h
  exact ⟨elements, hElements⟩

/-! ## The other headers -/

variable (text) in
/-- The addresses of an X-Forwarded-For header. -/
def forAddressesOf (value : List Char) : List Address := (partsOf value ',').flatMap (addressOf text)

theorem parseForPart_ok {addresses addresses' : List Address} {part : List Char}
    (h : parseForPart text addresses part = .ok addresses') :
    addresses' = addresses ++ addressOf text part := by
  unfold parseForPart at h
  split at h
  · cases h
  · obtain ⟨address, hAddress, h⟩ := bind_eq_ok.mp h
    split at h
    · cases h
    · cases h
      rw [addressOf_of_ok hAddress]

theorem parseXForwardedFor_ok {value : List Char} {chain : List Address}
    (h : parseXForwardedFor text value = .ok chain) : chain = forAddressesOf text value := by
  obtain ⟨parts, hParts, hFold⟩ := bind_eq_ok.mp h
  rw [forAddressesOf, partsOf_of_ok hParts]
  have hStep : ∀ (s : List Address) (p : List Char) (s' : List Address),
      parseForPart text s p = .ok s' → id s' = id s ++ addressOf text p :=
    fun _ _ _ hStep => parseForPart_ok hStep
  exact foldlM_appends hStep hFold

theorem isEmpty_of_forwardedFor {value : List Char} {chain : List Address}
    (h : parseXForwardedFor text value = .ok chain) : value.isEmpty = false := by
  cases value with
  | nil => cases h
  | cons c rest => rfl

/-- The first entry of an X-Forwarded-Proto header. -/
def firstEntry (value : List Char) : Option (List Char) :=
  if value.isEmpty then none else (partsOf value ',').head?.map lowercaseChars

theorem parseForwardedProto_ok {value : List Char} {scheme : Option (List Char)}
    (h : parseForwardedProto value = .ok scheme) : scheme = firstEntry value := by
  unfold parseForwardedProto at h
  unfold firstEntry
  split at h
  · rename_i hEmpty
    rw [if_pos hEmpty]
    exact (Except.ok.inj h).symm
  · rename_i hNonempty
    rw [if_neg hNonempty]
    obtain ⟨parts, hParts, h⟩ := bind_eq_ok.mp h
    rw [partsOf_of_ok hParts]
    cases parts with
    | nil => cases h
    | cons front rest =>
      rw [List.headD_cons] at h
      by_cases hFront : front.isEmpty = true
      · rw [if_pos hFront] at h
        cases h
      · rw [if_neg hFront] at h
        split at h
        · exact (Except.ok.inj h).symm
        · cases h

/-! ## All headers -/

variable (text) in
/-- The chain that the first present header of three gives. -/
def chainOf (headers : ForwardingHeaders) : List Address :=
  if !headers.forwarded.isEmpty then addressesOf text headers.forwarded
  else if !headers.xForwardedFor.isEmpty then forAddressesOf text headers.xForwardedFor
  else if !headers.xRealIp.isEmpty then addressOf text headers.xRealIp
  else []

/-- The scheme that the Forwarded header gives, or else X-Forwarded-Proto. -/
def schemeOf (headers : ForwardingHeaders) : Option (List Char) :=
  (if !headers.forwarded.isEmpty then firstProto headers.forwarded else none).or
    (firstEntry headers.xForwardedProto)

theorem parseChain_ok {headers : ForwardingHeaders} {values : ForwardedValues}
    (h : parseChain text headers = .ok values) :
    values.addresses = chainOf text headers ∧
      values.scheme = if !headers.forwarded.isEmpty then firstProto headers.forwarded else none := by
  unfold parseChain at h
  unfold chainOf
  split at h
  · rename_i hForwarded
    rw [if_pos hForwarded, if_pos hForwarded]
    exact parseForwardedHeader_ok h
  · rename_i hForwarded
    rw [if_neg hForwarded, if_neg hForwarded]
    split at h
    · rename_i hFor
      rw [if_pos hFor]
      obtain ⟨chain, hChain, h⟩ := bind_eq_ok.mp h
      cases h
      exact ⟨parseXForwardedFor_ok hChain, rfl⟩
    · rename_i hFor
      rw [if_neg hFor]
      split at h
      · rename_i hReal
        rw [if_pos hReal]
        obtain ⟨address, hAddress, h⟩ := bind_eq_ok.mp h
        cases h
        exact ⟨(addressOf_of_ok hAddress).symm, rfl⟩
      · rename_i hReal
        rw [if_neg hReal]
        cases h
        exact ⟨rfl, rfl⟩

end SecureCore.TrustedProxy

import Mathlib.Data.List.Forall2
import SecureCore.Net.ForwardedClients

/-! # The Forwarded header

A header that is rendered from its elements gives their addresses and the first scheme. A
header with a fault is refused. -/

namespace SecureCore.TrustedProxy

set_option autoImplicit false

open Coding Quoted

/-! ## Rendering -/

inductive Parameter where
  | client (address : Address)
  | proto (secure : Bool)
  | extension
  deriving DecidableEq, Repr

namespace Parameter

def address? : Parameter → Option Address
  | client address => some address
  | _ => none

def schemeText (secure : Bool) : List Char := if secure then "https".toList else "http".toList

def scheme? : Parameter → Option (List Char)
  | proto secure => some (schemeText secure)
  | _ => none

end Parameter

open Parameter

def clients (parameters : List Parameter) : List Address := parameters.filterMap address?

def firstScheme (parameters : List Parameter) : Option (List Char) := parameters.findSome? scheme?

/-- A character that has no meaning of its own. -/
def isPlain (c : Char) : Bool := !isBlank c && c != '"' && c != ',' && c != ';' && c != '='

def IsToken (text : List Char) : Prop := text ≠ [] ∧ ∀ c ∈ text, isPlain c = true

inductive ValueText : List Char → List Char → Prop
  | token {value : List Char} (hToken : IsToken value) : ValueText value value
  | quoted {value body : List Char} (hBody : Encodes (Code headerMarks) value body) :
      ValueText value ('"' :: body ++ ['"'])

variable (text : AddressText)

/-- The name and the value of a parameter, the names and the scheme in any letter case. -/
inductive Assignment : Parameter → List Char → List Char → Prop
  | client {address : Address} {name node value : List Char} (hName : lowercaseChars name = "for".toList)
      (hNode : NodeText text address node) (hValue : ValueText node value) :
      Assignment (.client address) name value
  | proto {secure : Bool} {name scheme value : List Char} (hName : lowercaseChars name = "proto".toList)
      (hScheme : lowercaseChars scheme = schemeText secure) (hValue : ValueText scheme value) :
      Assignment (.proto secure) name value
  | extension {name content value : List Char} (hName : IsToken name)
      (hFor : lowercaseChars name ≠ "for".toList) (hProto : lowercaseChars name ≠ "proto".toList)
      (hValue : ValueText content value) : Assignment .extension name value

def Blanks (blanks : List Char) : Prop := ∀ c ∈ blanks, isBlank c = true

/-- A parameter with blanks around its name and its value. -/
inductive ParameterText : Parameter → List Char → Prop
  | mk {parameter : Parameter} {name value b₁ b₂ b₃ b₄ : List Char}
      (hAssignment : Assignment text parameter name value) (h₁ : Blanks b₁) (h₂ : Blanks b₂)
      (h₃ : Blanks b₃) (h₄ : Blanks b₄) :
      ParameterText parameter (b₁ ++ (name ++ b₂ ++ '=' :: (b₃ ++ value)) ++ b₄)

def ElementText (element : List Parameter) (written : List Char) : Prop :=
  ∃ pieces, List.Forall₂ (ParameterText text) element pieces ∧ written = [';'].intercalate pieces

def HeaderText (elements : List (List Parameter)) (header : List Char) : Prop :=
  ∃ pieces, List.Forall₂ (ElementText text) elements pieces ∧ header = [','].intercalate pieces

/-! ## One parameter -/

variable {text}

theorem isPlain_ne {c : Char} (h : isPlain c = true) :
    isBlank c = false ∧ c ≠ '"' ∧ c ≠ ',' ∧ c ≠ ';' ∧ c ≠ '=' := by
  unfold isPlain at h
  simp only [Bool.and_eq_true, Bool.not_eq_true', bne_iff_ne, ne_eq] at h
  tauto

theorem toLower_of_not_plain {c : Char} (h : isPlain c = false) : toLower c = c := by
  have hMember : c ∈ [' ', '\t', '\r', '\n', '"', ',', ';', '='] := by
    unfold isPlain isBlank at h
    simp only [Bool.and_eq_false_iff, Bool.not_eq_false', Bool.or_eq_true, beq_iff_eq,
      bne_eq_false_iff_eq] at h
    simp only [List.mem_cons, List.not_mem_nil, or_false]
    tauto
  have hSame : [' ', '\t', '\r', '\n', '"', ',', ';', '='].all (fun other => toLower other == other) =
      true := by decide
  exact beq_iff_eq.mp (List.all_eq_true.mp hSame c hMember)

theorem isToken_of_lowercase {name letters : List Char} (hName : lowercaseChars name = letters)
    (hLetters : letters ≠ []) (hPlain : letters.all isPlain = true) : IsToken name := by
  constructor
  · rintro rfl
    exact hLetters hName.symm
  · intro c hc
    by_contra hNot
    rw [Bool.not_eq_true] at hNot
    have hMem : toLower c ∈ letters := hName ▸ List.mem_map_of_mem hc
    rw [toLower_of_not_plain hNot] at hMem
    rw [List.all_eq_true.mp hPlain c hMem] at hNot
    cases hNot

theorem isToken_of_all {text : List Char} (hText : text ≠ []) (hPlain : text.all isPlain = true) :
    IsToken text := ⟨hText, List.all_eq_true.mp hPlain⟩

theorem IsToken.not_mem {name : List Char} (h : IsToken name) {c : Char} (hc : isPlain c = false) :
    c ∉ name := by
  intro hMem
  rw [h.2 c hMem] at hc
  cases hc

theorem Assignment.name {parameter : Parameter} {name value : List Char}
    (h : Assignment text parameter name value) : IsToken name := by
  cases h with
  | client hName _ _ => exact isToken_of_lowercase hName (by decide) (by decide)
  | proto hName _ _ => exact isToken_of_lowercase hName (by decide) (by decide)
  | extension hName _ _ _ => exact hName

theorem Assignment.value {parameter : Parameter} {name value : List Char}
    (h : Assignment text parameter name value) : ∃ content, ValueText content value := by
  cases h with
  | client _ _ hValue => exact ⟨_, hValue⟩
  | proto _ _ hValue => exact ⟨_, hValue⟩
  | extension _ _ _ hValue => exact ⟨_, hValue⟩

theorem ValueText.says {content value : List Char} (h : ValueText content value) :
    Says value content := by
  cases h with
  | token hToken =>
    apply Says.plain
    intro hHead
    exact hToken.not_mem (by decide) (List.mem_of_mem_head? hHead)
  | quoted hBody => exact .quoted hBody

/-- A value begins and ends with characters that are not blank. -/
theorem ValueText.ends {content value : List Char} (h : ValueText content value) : value ≠ [] ∧
    (∀ c ∈ value.head?, isBlank c = false) ∧ ∀ c ∈ value.getLast?, isBlank c = false := by
  cases h with
  | token hToken =>
    refine ⟨hToken.1, ?_, ?_⟩
    · exact fun c hc => (isPlain_ne (hToken.2 c (List.mem_of_mem_head? hc))).1
    · exact fun c hc => (isPlain_ne (hToken.2 c (List.mem_of_mem_getLast? hc))).1
  | quoted hBody =>
    refine ⟨List.cons_ne_nil _ _, ?_, ?_⟩
    · rintro c ⟨⟩
      decide
    · intro c hc
      rw [List.getLast?_concat, Option.mem_some_iff] at hc
      rw [← hc]
      decide

/-- The name and the value as the parser cuts them out of a parameter. -/
theorem parameter_parts {parameter : Parameter} {name value b₂ b₃ : List Char}
    (h : Assignment text parameter name value) (h₂ : Blanks b₂) (h₃ : Blanks b₃) :
    parameterName (name ++ b₂ ++ '=' :: (b₃ ++ value)) = lowercaseChars name ∧
      parameterValue (name ++ b₂ ++ '=' :: (b₃ ++ value)) = value := by
  have hName := h.name
  obtain ⟨content, hValue⟩ := h.value
  obtain ⟨-, hFirst, hLast⟩ := hValue.ends
  have hEquals : '=' ∉ name ++ b₂ := by
    rw [List.mem_append, not_or]
    exact ⟨hName.not_mem (by decide), fun hMem => (isBlank_ne (h₂ _ hMem)).2.2.2 rfl⟩
  unfold parameterName parameterValue
  rw [takeWhile_ne hEquals, dropWhile_ne hEquals, trimChars_append_blank h₂, List.drop_one,
    List.tail_cons, trimChars_blank_append h₃, trimChars_eq_self hFirst hLast, trimChars_eq_self]
  · exact ⟨rfl, rfl⟩
  · exact fun c hc => (isPlain_ne (hName.2 c (List.mem_of_mem_head? hc))).1
  · exact fun c hc => (isPlain_ne (hName.2 c (List.mem_of_mem_getLast? hc))).1

theorem trimChars_parameter {parameter : Parameter} {name value b₁ b₂ b₃ b₄ : List Char}
    (h : Assignment text parameter name value) (h₁ : Blanks b₁) (h₄ : Blanks b₄) :
    trimChars (b₁ ++ (name ++ b₂ ++ '=' :: (b₃ ++ value)) ++ b₄) = name ++ b₂ ++ '=' :: (b₃ ++ value) := by
  have hName := h.name
  obtain ⟨content, hValue⟩ := h.value
  obtain ⟨hNonempty, -, hLast⟩ := hValue.ends
  rw [trimChars_append_blank h₄, trimChars_blank_append h₁]
  apply trimChars_eq_self
  · intro c hc
    have hMem : c ∈ name := by
      obtain ⟨first, rest, hSplit⟩ := List.exists_cons_of_ne_nil hName.1
      rw [hSplit] at hc ⊢
      cases hc
      exact List.mem_cons_self
    exact (isPlain_ne (hName.2 c hMem)).1
  · intro c hc
    apply hLast c
    rw [List.getLast?_append_of_ne_nil _ (List.cons_ne_nil _ _), List.getLast?_cons_of_ne_nil,
      List.getLast?_append_of_ne_nil _ hNonempty] at hc
    · exact hc
    · exact List.append_ne_nil_of_right_ne_nil _ hNonempty

/-- What is read from a parameter with a name and a value. -/
theorem parseParameter_parts {before after : List Char} (hBefore : before ≠ []) (hAfter : after ≠ [])
    (hEquals : '=' ∉ before) (values : ForwardedValues) (foundFor : Bool) :
    parseParameter text (values, foundFor) (before ++ '=' :: after) =
      if parameterName (before ++ '=' :: after) == "for".toList then
        if foundFor then .error (invalidForwardedHeader
          "A Forwarded element contains more than one for parameter.")
        else do
          let address ← parseIpToken text (parameterValue (before ++ '=' :: after))
          .ok (⟨values.addresses ++ [address], values.scheme⟩, true)
      else if parameterName (before ++ '=' :: after) == "proto".toList && values.scheme.isNone then do
        let value ← unquote (parameterValue (before ++ '=' :: after))
        let scheme := lowercaseChars value
        if validScheme scheme then .ok (⟨values.addresses, some scheme⟩, foundFor)
        else .error (invalidForwardedHeader "The Forwarded proto parameter must be http or https.")
      else .ok (values, foundFor) := by
  have hNonempty : (before ++ '=' :: after).isEmpty = false := by
    rw [List.isEmpty_eq_false_iff]
    exact List.append_ne_nil_of_left_ne_nil hBefore _
  have hMem : (before ++ '=' :: after).contains '=' = true := by
    rw [List.contains_iff_mem]
    exact List.mem_append_right _ List.mem_cons_self
  unfold parseParameter parameterName parameterValue
  simp only [hNonempty, hMem, takeWhile_ne hEquals, dropWhile_ne hEquals, List.drop_one, List.tail_cons,
    List.isEmpty_eq_false_iff.mpr hBefore, List.isEmpty_eq_false_iff.mpr hAfter]
  rfl

variable {parameter : Parameter} {piece : List Char} {values : ForwardedValues} {foundFor : Bool}

/-- The address and the scheme of a parameter are added to what is known. -/
theorem parseParameter_rendered (h : ParameterText text parameter piece)
    (hAddress : ∀ address ∈ parameter.address?, Rendered text address ∧
      address.isUnspecified = false ∧ address.isMulticast = false)
    (hOnce : parameter.address?.isSome = true → foundFor = false) :
    parseParameter text (values, foundFor) (trimChars piece) =
      .ok (⟨values.addresses ++ parameter.address?.toList, values.scheme.or parameter.scheme?⟩,
        foundFor || parameter.address?.isSome) := by
  obtain ⟨hAssignment, h₁, h₂, h₃, h₄⟩ := h
  rename_i name value b₁ b₂ b₃ b₄
  have hName := hAssignment.name
  obtain ⟨content, hValue⟩ := hAssignment.value
  have hBefore : name ++ b₂ ≠ [] := List.append_ne_nil_of_left_ne_nil hName.1 _
  have hAfter : b₃ ++ value ≠ [] := List.append_ne_nil_of_right_ne_nil _ hValue.ends.1
  have hEquals : '=' ∉ name ++ b₂ := by
    rw [List.mem_append, not_or]
    exact ⟨hName.not_mem (by decide), fun hMem => (isBlank_ne (h₂ _ hMem)).2.2.2 rfl⟩
  obtain ⟨hNamed, hValued⟩ := parameter_parts hAssignment h₂ h₃
  rw [trimChars_parameter hAssignment h₁ h₄, parseParameter_parts hBefore hAfter hEquals, hNamed, hValued]
  cases hAssignment with
  | @client address _ node _ hFor hNode hText =>
    obtain ⟨hRendered, hSpecified, hUnicast⟩ := hAddress address rfl
    have hClient : IsClient text (trimChars value) address := by
      rw [trimChars_eq_self hValue.ends.2.1 hValue.ends.2.2]
      exact isClient_of_rendered hText.says hNode hRendered hSpecified hUnicast
    have hFresh : foundFor = false := hOnce rfl
    rw [hFor, hFresh, parseIpToken_eq_ok_iff.mpr hClient]
    simp only [beq_self_eq_true, if_true, address?, scheme?, Option.or_none]
    rfl
  | @proto secure _ scheme _ hProto hScheme hText =>
    have hNotFor : ("proto".toList == "for".toList) = false := by decide
    have hValid : validScheme (schemeText secure) = true := by cases secure <;> decide
    rw [hProto, hNotFor, unquote_eq_ok_iff.mpr hText.says]
    cases hKnown : values.scheme with
    | none =>
      simp [bind, Except.bind, hScheme, hValid, address?, scheme?]
    | some known =>
      have hValues : (⟨values.addresses, some known⟩ : ForwardedValues) = values := by rw [← hKnown]
      simp [address?, hValues]
  | extension _ hFor hProto _ =>
    rw [beq_eq_false_iff_ne.mpr hFor, beq_eq_false_iff_ne.mpr hProto]
    simp [address?, scheme?]

/-! ## Elements -/

variable {parameters : List Parameter} {pieces : List (List Char)}

theorem clients_cons (parameter : Parameter) (parameters : List Parameter) :
    clients (parameter :: parameters) = parameter.address?.toList ++ clients parameters := by
  unfold clients
  rw [List.filterMap_cons]
  cases parameter.address? <;> rfl

theorem firstScheme_cons (parameter : Parameter) (parameters : List Parameter) :
    firstScheme (parameter :: parameters) = parameter.scheme?.or (firstScheme parameters) := by
  unfold firstScheme
  rw [List.findSome?_cons]
  cases parameter.scheme? <;> rfl

/-- The parameters of an element, at most one client among them. -/
theorem foldlM_rendered (h : List.Forall₂ (ParameterText text) parameters pieces)
    (hAddress : ∀ address ∈ clients parameters, Rendered text address ∧
      address.isUnspecified = false ∧ address.isMulticast = false)
    (hOnce : (clients parameters).length + foundFor.toNat ≤ 1) :
    (pieces.map trimChars).foldlM (parseParameter text) (values, foundFor) =
      .ok (⟨values.addresses ++ clients parameters, values.scheme.or (firstScheme parameters)⟩,
        foundFor || !(clients parameters).isEmpty) := by
  induction h generalizing values foundFor with
  | nil =>
    obtain ⟨addresses, scheme⟩ := values
    simp [clients, firstScheme, pure, Except.pure]
  | @cons parameter piece parameters pieces hPiece _ ih =>
    rw [clients_cons] at hAddress hOnce ⊢
    rw [firstScheme_cons]
    rw [List.length_append] at hOnce
    have hFirst : ∀ address ∈ parameter.address?, Rendered text address ∧
        address.isUnspecified = false ∧ address.isMulticast = false := by
      intro address hMem
      exact hAddress address (List.mem_append_left _ (Option.mem_toList.mpr hMem))
    have hFresh : parameter.address?.isSome = true → foundFor = false := by
      intro hSome
      obtain ⟨address, hAddress⟩ := Option.isSome_iff_exists.mp hSome
      rw [hAddress] at hOnce
      cases foundFor with
      | false => rfl
      | true =>
        simp only [Option.toList_some, List.length_singleton, Bool.toNat_true] at hOnce
        omega
    have hLater : (clients parameters).length + (foundFor || parameter.address?.isSome).toNat ≤ 1 := by
      cases hSome : parameter.address? with
      | none =>
        rw [hSome] at hOnce
        simpa using hOnce
      | some address =>
        rw [hSome] at hOnce
        simp only [Option.toList_some, List.length_singleton] at hOnce
        simp only [Option.isSome_some, Bool.or_true, Bool.toNat_true]
        omega
    rw [List.map_cons, List.foldlM_cons, parseParameter_rendered hPiece hFirst hFresh]
    simp only [bind, Except.bind]
    rw [ih (fun address hMem => hAddress address (List.mem_append_right _ hMem)) hLater]
    cases parameter.address? <;> simp [Option.or_assoc]

theorem closed_blanks {blanks : List Char} (h : Blanks blanks) :
    Closed headerMarks (fun c => c ≠ ';' ∧ c ≠ ',') blanks := by
  apply Closed.of_forall
  intro c hc
  obtain ⟨hQuote, hComma, hSemicolon, -⟩ := isBlank_ne (h c hc)
  exact ⟨hQuote, hSemicolon, hComma⟩

theorem closed_token {name : List Char} (h : IsToken name) :
    Closed headerMarks (fun c => c ≠ ';' ∧ c ≠ ',') name := by
  apply Closed.of_forall
  intro c hc
  obtain ⟨-, hQuote, hComma, hSemicolon, -⟩ := isPlain_ne (h.2 c hc)
  exact ⟨hQuote, hSemicolon, hComma⟩

/-- No separator stands outside of the quotes of a parameter. -/
theorem ParameterText.closed (h : ParameterText text parameter piece) :
    Closed headerMarks (fun c => c ≠ ';' ∧ c ≠ ',') piece := by
  obtain ⟨hAssignment, h₁, h₂, h₃, h₄⟩ := h
  obtain ⟨content, hValue⟩ := hAssignment.value
  have hText := hValue
  have hClosed : ∀ value, ValueText content value →
      Closed headerMarks (fun c => c ≠ ';' ∧ c ≠ ',') value := by
    intro value hValue
    cases hValue with
    | token hToken => exact closed_token hToken
    | quoted hBody => exact .quotedText (.of_encodes hBody)
  exact ((closed_blanks h₁).append (((closed_token hAssignment.name).append (closed_blanks h₂)).append
    (.plain (by decide) (by decide) ((closed_blanks h₃).append (hClosed _ hValue))))).append
    (closed_blanks h₄)

theorem closed_parameters (h : List.Forall₂ (ParameterText text) parameters pieces) :
    ∀ piece ∈ pieces, Closed headerMarks (fun c => c ≠ ';' ∧ c ≠ ',') piece := by
  induction h with
  | nil => exact nofun
  | cons hPiece _ ih =>
    rw [List.forall_mem_cons]
    exact ⟨hPiece.closed, ih⟩

theorem pieces_of_parameters (h : List.Forall₂ (ParameterText text) parameters pieces)
    (hNonempty : parameters ≠ []) : Pieces headerMarks ';' ([';'].intercalate pieces) pieces where
  nonempty := by
    cases h with
    | nil => exact absurd rfl hNonempty
    | cons _ _ => exact List.cons_ne_nil _ _
  closed piece hPiece := (closed_parameters h piece hPiece).mono (fun _ hPlain => hPlain.1)
  text_eq := rfl

theorem ElementText.closed {written : List Char} (h : ElementText text parameters written) :
    Closed headerMarks (fun c => c ≠ ',') written := by
  obtain ⟨pieces, hPieces, rfl⟩ := h
  apply Closed.intercalate (by decide) (by decide)
  intro piece hPiece
  exact (closed_parameters hPieces piece hPiece).mono (fun _ hPlain => hPlain.2)

/-- An element with one client adds its address. -/
theorem parseElement_rendered {written : List Char} {address : Address}
    (h : ElementText text parameters written) (hClient : clients parameters = [address])
    (hAddress : Rendered text address ∧ address.isUnspecified = false ∧ address.isMulticast = false)
    (hHops : values.addresses.length < maximumForwardedHops) :
    parseElement text values (trimChars written) =
      .ok ⟨values.addresses ++ [address], values.scheme.or (firstScheme parameters)⟩ := by
  obtain ⟨pieces, hPieces, rfl⟩ := h
  have hNonempty : parameters ≠ [] := by
    rintro rfl
    cases hClient
  have hSplit := splitTopLevel_pieces (by decide) (pieces_of_parameters hPieces hNonempty)
  rw [← splitTopLevel_trimChars (by decide)] at hSplit
  have hAddresses : ∀ other ∈ clients parameters, Rendered text other ∧
      other.isUnspecified = false ∧ other.isMulticast = false := by
    intro other hOther
    rw [hClient, List.mem_singleton] at hOther
    exact hOther ▸ hAddress
  have hOnce : (clients parameters).length + false.toNat ≤ 1 := by rw [hClient]; exact le_refl 1
  have hFold : (pieces.map trimChars).foldlM (parseParameter text) (values, false) =
      .ok (⟨values.addresses ++ clients parameters, values.scheme.or (firstScheme parameters)⟩,
        false || !(clients parameters).isEmpty) := foldlM_rendered hPieces hAddresses hOnce
  rw [hClient] at hFold
  have hText : (trimChars ([';'].intercalate pieces)).isEmpty = false := by
    rw [Bool.eq_false_iff]
    intro hEmpty
    rw [List.isEmpty_iff.mp hEmpty] at hSplit
    rw [← Except.ok.inj hSplit] at hFold
    cases hFold
  unfold parseElement
  rw [hText, hSplit]
  simp only [bind, Except.bind, Bool.false_eq_true, if_false]
  rw [hFold]
  simp only [List.length_append, List.length_singleton, List.isEmpty_cons, Bool.not_false, Bool.or_true,
    Bool.not_true, Bool.false_eq_true, if_false]
  exact if_neg (by omega)

/-! ## Headers -/

theorem foldlM_elements {elements : List (List Parameter)} {addresses : List Address}
    (h : List.Forall₂ (ElementText text) elements pieces)
    (hClients : List.Forall₂ (fun element address => clients element = [address]) elements addresses)
    (hAddress : ∀ address ∈ addresses, Rendered text address ∧
      address.isUnspecified = false ∧ address.isMulticast = false)
    (hHops : values.addresses.length + addresses.length ≤ maximumForwardedHops) :
    (pieces.map trimChars).foldlM (parseElement text) values =
      .ok ⟨values.addresses ++ addresses, values.scheme.or (firstScheme elements.flatten)⟩ := by
  induction h generalizing values addresses with
  | nil =>
    cases hClients
    obtain ⟨known, scheme⟩ := values
    simp [firstScheme, pure, Except.pure]
  | @cons element written elements pieces hElement _ ih =>
    cases hClients with
    | @cons _ address _ addresses hClient hRest =>
      rw [List.forall_mem_cons] at hAddress
      rw [List.length_cons] at hHops
      have hFirst := parseElement_rendered hElement hClient hAddress.1
        (show values.addresses.length < maximumForwardedHops by omega)
      rw [List.map_cons, List.foldlM_cons, hFirst]
      simp only [bind, Except.bind]
      rw [ih hRest hAddress.2 (by rw [List.length_append, List.length_singleton]; omega)]
      unfold firstScheme
      rw [List.flatten_cons, List.findSome?_append, List.append_assoc, Option.or_assoc]
      rfl

theorem pieces_of_elements {elements : List (List Parameter)}
    (h : List.Forall₂ (ElementText text) elements pieces) (hNonempty : elements ≠ []) :
    Pieces headerMarks ',' ([','].intercalate pieces) pieces where
  nonempty := by
    cases h with
    | nil => exact absurd rfl hNonempty
    | cons _ _ => exact List.cons_ne_nil _ _
  closed := by
    clear hNonempty
    induction h with
    | nil => exact nofun
    | cons hElement _ ih =>
      rw [List.forall_mem_cons]
      exact ⟨hElement.closed, ih⟩
  text_eq := rfl

theorem parseForwardedHeader_rendered {elements : List (List Parameter)} {addresses : List Address}
    {header : List Char} (hNonempty : elements ≠ []) (hHops : elements.length ≤ 64)
    (hClients : List.Forall₂ (fun element address => clients element = [address]) elements addresses)
    (hAddress : ∀ address ∈ addresses, Rendered text address ∧
      address.isUnspecified = false ∧ address.isMulticast = false)
    (h : HeaderText text elements header) :
    parseForwardedHeader text header = .ok ⟨addresses, firstScheme elements.flatten⟩ := by
  obtain ⟨pieces, hPieces, rfl⟩ := h
  have hLength : addresses.length ≤ maximumForwardedHops := by
    rw [← hClients.length_eq]
    exact hHops
  have hFold : (pieces.map trimChars).foldlM (parseElement text) .empty =
      .ok ⟨ForwardedValues.empty.addresses ++ addresses,
        ForwardedValues.empty.scheme.or (firstScheme elements.flatten)⟩ :=
    foldlM_elements hPieces hClients hAddress (by
      rw [show ForwardedValues.empty.addresses.length = 0 from rfl, Nat.zero_add]
      exact hLength)
  unfold parseForwardedHeader
  rw [splitTopLevel_pieces (by decide) (pieces_of_elements hPieces hNonempty)]
  exact hFold

/-! ## Faults -/

/-- What is wrong with an element: it is empty or has an empty parameter, it does not have
exactly one client, or has one that is not an address. -/
inductive Faulty (text : AddressText) : List Char → Prop
  | empty : Faulty text []
  | emptyParameter {element : List Char} {pieces : List (List Char)}
      (hPieces : Pieces headerMarks ';' element pieces) (hEmpty : [] ∈ pieces.map trimChars) :
      Faulty text element
  | clients {element : List Char} {pieces : List (List Char)}
      (hPieces : Pieces headerMarks ';' element pieces)
      (hCount : (pieces.map trimChars).countP (fun piece => parameterName piece = "for".toList) ≠ 1) :
      Faulty text element
  | invalidClient {element : List Char} {pieces : List (List Char)}
      (hPieces : Pieces headerMarks ';' element pieces) {piece : List Char}
      (hPiece : piece ∈ pieces.map trimChars) (hFor : parameterName piece = "for".toList)
      (hInvalid : ∀ address, ¬IsClient text (parameterValue piece) address) : Faulty text element

def Refused {α : Type} (result : ProxyHeader α) : Prop := ∃ error, result = .error error

theorem refused_iff {α : Type} {result : ProxyHeader α} : Refused result ↔ ∀ a, result ≠ .ok a := by
  cases result with
  | error error => exact iff_of_true ⟨error, rfl⟩ (fun _ h => nomatch h)
  | ok a => exact iff_of_false (fun h => nomatch h) (fun h => h a rfl)

/-- A loop with a step that always fails does not come to its end. -/
theorem foldlM_ne_ok {σ α : Type} {f : σ → α → ProxyHeader σ} {xs : List α} {x : α} (hx : x ∈ xs)
    (hFails : ∀ s s', f s x ≠ .ok s') (s s' : σ) : xs.foldlM f s ≠ .ok s' := by
  induction xs generalizing s with
  | nil => cases hx
  | cons first xs ih =>
    intro h
    rw [List.foldlM_cons] at h
    obtain ⟨t, hFirst, hRest⟩ := bind_eq_ok.mp h
    rcases List.mem_cons.mp hx with rfl | hx
    · exact hFails s t hFirst
    · exact ih hx t hRest

theorem parameterValue_trimmed (piece : List Char) :
    trimChars (parameterValue piece) = parameterValue piece := trimChars_trimChars _

/-- An accepted parameter is named `for` if it finds a client, and then is the first one. -/
theorem client_of_parseParameter {values' : ForwardedValues} {foundFor' : Bool}
    (h : parseParameter text (values, foundFor) piece = .ok (values', foundFor')) :
    (parameterName piece = "for".toList → foundFor = false ∧ foundFor' = true ∧
      ∃ address, IsClient text (parameterValue piece) address) ∧
    (parameterName piece ≠ "for".toList → foundFor' = foundFor) := by
  unfold parseParameter at h
  simp only at h
  split at h
  · cases h
  · split at h
    · cases h
    · split at h
      · rename_i hFor
        change (parameterName piece == "for".toList) = true at hFor
        rw [beq_iff_eq] at hFor
        split at h
        · cases h
        · rename_i hFresh
          obtain ⟨address, hAddress, h⟩ := bind_eq_ok.mp h
          cases h
          refine ⟨fun _ => ⟨by simpa using hFresh, rfl, address, ?_⟩, fun hNot => absurd hFor hNot⟩
          rw [← parameterValue_trimmed piece]
          exact parseIpToken_eq_ok_iff.mp hAddress
      · rename_i hNotFor
        change ¬(parameterName piece == "for".toList) = true at hNotFor
        rw [beq_iff_eq] at hNotFor
        refine ⟨fun hFor => absurd hFor hNotFor, fun _ => ?_⟩
        split at h
        · obtain ⟨value, hValue, h⟩ := bind_eq_ok.mp h
          split at h
          · cases h
            rfl
          · cases h
        · cases h
          rfl

theorem count_of_foldlM {values' : ForwardedValues} {foundFor' : Bool}
    (h : pieces.foldlM (parseParameter text) (values, foundFor) = .ok (values', foundFor')) :
    pieces.countP (fun piece => parameterName piece = "for".toList) + foundFor.toNat =
      foundFor'.toNat := by
  induction pieces generalizing values foundFor with
  | nil =>
    cases h
    rw [List.countP_nil, Nat.zero_add]
  | cons piece pieces ih =>
    rw [List.foldlM_cons] at h
    obtain ⟨⟨values₁, foundFor₁⟩, hFirst, hRest⟩ := bind_eq_ok.mp h
    obtain ⟨hClient, hOther⟩ := client_of_parseParameter hFirst
    rw [← ih hRest, List.countP_cons]
    by_cases hFor : parameterName piece = "for".toList
    · obtain ⟨rfl, rfl, -⟩ := hClient hFor
      simp only [hFor, decide_true, if_true, Bool.toNat_false, Bool.toNat_true, Nat.add_zero]
    · rw [hOther hFor]
      simp only [hFor, decide_false, Bool.false_eq_true, if_false, Nat.add_zero]

theorem Faulty.refused {element : List Char} (h : Faulty text element) (values values' : ForwardedValues) :
    parseElement text values element ≠ .ok values' := by
  intro hParsed
  unfold parseElement at hParsed
  split at hParsed
  · cases hParsed
  · rename_i hNonempty
    obtain ⟨parameters, hParameters, hParsed⟩ := bind_eq_ok.mp hParsed
    obtain ⟨⟨values₁, foundFor⟩, hFold, hParsed⟩ := bind_eq_ok.mp hParsed
    have hParts : ∀ pieces, Pieces headerMarks ';' element pieces → parameters = pieces.map trimChars := by
      intro pieces hPieces
      rw [splitTopLevel_pieces (by decide) hPieces] at hParameters
      exact (Except.ok.inj hParameters).symm
    cases h with
    | empty => exact hNonempty rfl
    | emptyParameter hPieces hEmpty =>
      rw [hParts _ hPieces] at hFold
      refine foldlM_ne_ok hEmpty ?_ _ _ hFold
      intro state state' hStep
      cases hStep
    | clients hPieces hCount =>
      rw [hParts _ hPieces] at hFold
      have hFound := count_of_foldlM hFold
      rw [Bool.toNat_false, Nat.add_zero] at hFound
      cases foundFor with
      | true => exact hCount hFound
      | false => cases hParsed
    | invalidClient hPieces hPiece hFor hInvalid =>
      rw [hParts _ hPieces] at hFold
      refine foldlM_ne_ok hPiece ?_ _ _ hFold
      rintro ⟨known, found⟩ ⟨known', found'⟩ hStep
      obtain ⟨-, -, address, hClient⟩ := (client_of_parseParameter hStep).1 hFor
      exact hInvalid address hClient

/-- The header of any elements is read back, and a header that leaves a quote open or has a
faulty element is refused. -/
theorem forwarded_header (text : AddressText) :
    (∀ elements addresses header, elements ≠ [] → elements.length ≤ 64 →
      List.Forall₂ (fun element address => clients element = [address]) elements addresses →
      (∀ address ∈ addresses, Rendered text address ∧
        address.isUnspecified = false ∧ address.isMulticast = false) →
      HeaderText text elements header →
      parseForwardedHeader text header = .ok ⟨addresses, firstScheme elements.flatten⟩) ∧
    (∀ header, ¬Closed headerMarks (fun _ => True) header →
      Refused (parseForwardedHeader text header)) ∧
    ∀ header pieces, Pieces headerMarks ',' header pieces →
      (∃ piece ∈ pieces, Faulty text (trimChars piece)) →
      Refused (parseForwardedHeader text header) := by
  refine ⟨?_, ?_, ?_⟩
  · intro elements addresses header hNonempty hHops hClients hAddress hHeader
    exact parseForwardedHeader_rendered hNonempty hHops hClients hAddress hHeader
  · intro header hOpen
    rw [refused_iff]
    intro values hParsed
    obtain ⟨parts, hParts, -⟩ := bind_eq_ok.mp hParsed
    obtain ⟨pieces, hPieces, -⟩ := (splitTopLevel_eq_ok_iff (by decide)).mp hParts
    exact hOpen (hPieces.closed_text (by decide))
  · rintro header pieces hPieces ⟨piece, hPiece, hFaulty⟩
    rw [refused_iff]
    intro values hParsed
    obtain ⟨parts, hParts, hFold⟩ := bind_eq_ok.mp hParsed
    rw [splitTopLevel_pieces (by decide) hPieces] at hParts
    cases hParts
    exact foldlM_ne_ok (List.mem_map_of_mem hPiece) (fun known known' => hFaulty.refused known known')
      _ _ hFold

/-! ## A header of two elements -/

namespace Sample

def v4Client : Address := .v4 0xc0000207#32

def v6Client : Address :=
  .v6 ⟨#[0x20, 0x01, 0x0d, 0xb8, 0, 0, 0, 0, 0, 0, 0, 0, 0, 0, 0, 1], rfl⟩ 0

def twoClients : AddressText where
  makeAddress value :=
    if value = "192.0.2.7".toList then some v4Client
    else if value = "2001:db8::1".toList then some v6Client
    else none
  toText
    | .v4 _ => "192.0.2.7".toList
    | .v6 _ _ => "2001:db8::1".toList

def twoElements : List Char :=
  "For=\"[2001:db8::1]:443\" ;proto=HTTPS, by=\"a,\\\"b\"; for=192.0.2.7".toList

end Sample

theorem forwarded_header_sample :
    parseForwardedHeader Sample.twoClients Sample.twoElements =
      .ok ⟨[Sample.v6Client, Sample.v4Client], some "https".toList⟩ := by
  have hNoBlanks : Blanks [] := nofun
  have hBlank : Blanks [' '] := fun c hc => List.mem_singleton.mp hc ▸ rfl
  have hV6 : ParameterText Sample.twoClients (.client Sample.v6Client) "For=\"[2001:db8::1]:443\" ".toList := by
    have hNode : NodeText Sample.twoClients Sample.v6Client "[2001:db8::1]:443".toList :=
      .v6Port _ _ (validPort_iff.mp (by decide))
    have hPlain : "[2001:db8::1]:443".toList.all (fun c => c != '"' && c != '\\') = true := by decide
    have hValue : ValueText "[2001:db8::1]:443".toList "\"[2001:db8::1]:443\"".toList := by
      change ValueText _ ('"' :: "[2001:db8::1]:443".toList ++ ['"'])
      apply ValueText.quoted
      apply encodes_self
      intro c hc
      simpa [headerMarks] using List.all_eq_true.mp hPlain c hc
    exact .mk (.client (show lowercaseChars "For".toList = _ by decide) hNode hValue) hNoBlanks hNoBlanks
      hNoBlanks hBlank
  have hProto : ParameterText Sample.twoClients (.proto true) "proto=HTTPS".toList := by
    have hValue : ValueText "HTTPS".toList "HTTPS".toList := .token (isToken_of_all (by decide) (by decide))
    exact .mk (.proto (show lowercaseChars "proto".toList = _ by decide) (by decide) hValue) hNoBlanks
      hNoBlanks hNoBlanks hNoBlanks
  have hBy : ParameterText Sample.twoClients .extension " by=\"a,\\\"b\"".toList := by
    have hA : Code headerMarks 'a' ['a'] := .plain (by decide) (by decide)
    have hComma : Code headerMarks ',' [','] := .plain (by decide) (by decide)
    have hQuote : Code headerMarks '"' ['\\', '"'] := .escaped (.inl rfl)
    have hB : Code headerMarks 'b' ['b'] := .plain (by decide) (by decide)
    have hBody : Encodes (Code headerMarks) ['a', ',', '"', 'b'] ['a', ',', '\\', '"', 'b'] :=
      .cons hA (.cons hComma (.cons hQuote (.cons hB .nil)))
    have hName : IsToken "by".toList := isToken_of_all (by decide) (by decide)
    exact .mk (.extension hName (by decide) (by decide) (.quoted hBody)) hBlank hNoBlanks hNoBlanks
      hNoBlanks
  have hV4 : ParameterText Sample.twoClients (.client Sample.v4Client) " for=192.0.2.7".toList := by
    have hNode : NodeText Sample.twoClients Sample.v4Client "192.0.2.7".toList := .v4 _
    have hValue : ValueText "192.0.2.7".toList "192.0.2.7".toList :=
      .token (isToken_of_all (by decide) (by decide))
    exact .mk (.client (show lowercaseChars "for".toList = _ by decide) hNode hValue) hBlank hNoBlanks
      hNoBlanks hNoBlanks
  have hFirst : ElementText Sample.twoClients [.client Sample.v6Client, .proto true]
      "For=\"[2001:db8::1]:443\" ;proto=HTTPS".toList :=
    ⟨_, .cons hV6 (.cons hProto .nil), by decide⟩
  have hSecond : ElementText Sample.twoClients [.extension, .client Sample.v4Client]
      " by=\"a,\\\"b\"; for=192.0.2.7".toList := ⟨_, .cons hBy (.cons hV4 .nil), by decide⟩
  have hHeader : HeaderText Sample.twoClients
      [[.client Sample.v6Client, .proto true], [.extension, .client Sample.v4Client]] Sample.twoElements :=
    ⟨_, .cons hFirst (.cons hSecond .nil), by decide⟩
  refine (forwarded_header Sample.twoClients).1 _ [Sample.v6Client, Sample.v4Client] _ (by decide) (by decide)
    (.cons rfl (.cons rfl .nil)) ?_ hHeader
  intro address hMem
  rcases List.mem_cons.mp hMem with rfl | hMem
  · refine ⟨⟨by decide, by decide, by decide⟩, by decide, by decide⟩
  · rw [List.mem_singleton] at hMem
    rw [hMem]
    have hDotted : "192.0.2.7".toList.all (fun c => c.isDigit || c == '.') = true := by decide
    refine ⟨⟨by decide, by decide, ?_⟩, by decide, by decide⟩
    intro c hc
    simpa using List.all_eq_true.mp hDotted c hc

end SecureCore.TrustedProxy

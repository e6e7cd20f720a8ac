import SecureCore.Net.QuotedText

/-! # Forwarded clients

The texts from which parse_ip_token reads an address. -/

namespace SecureCore.TrustedProxy

set_option autoImplicit false

/-! ## Nodes -/

def IsPort (port : List Char) : Prop := port ≠ [] ∧ ∀ c ∈ port, c.isDigit = true

theorem validPort_iff {port : List Char} : validPort port = true ↔ IsPort port := by
  unfold validPort IsPort
  rw [Bool.and_eq_true, Bool.not_eq_true', List.isEmpty_eq_false_iff, List.all_eq_true]

theorem IsPort.not_mem {port : List Char} (h : IsPort port) {c : Char} (hc : c.isDigit = false) :
    c ∉ port := by
  intro hMem
  rw [h.2 c hMem] at hc
  cases hc

/-- A node with the text of its address: with a port or without, an IPv6 address in
brackets. -/
inductive Node : List Char → List Char → Prop
  | plain {host : List Char} (hBracket : host.head? ≠ some '[')
      (hPort : ¬(host.count ':' = 1 ∧ '.' ∈ host)) : Node host host
  | withPort {host port : List Char} (hBracket : host.head? ≠ some '[') (hColon : ':' ∉ host)
      (hDot : '.' ∈ host) (hPort : IsPort port) : Node (host ++ ':' :: port) host
  | bracketed {host : List Char} (hClose : ']' ∉ host) : Node ('[' :: (host ++ [']'])) host
  | bracketedPort {host port : List Char} (hClose : ']' ∉ host) (hPort : IsPort port) :
      Node ('[' :: (host ++ ']' :: ':' :: port)) host

theorem node_of_addressText {node host : List Char} (h : addressText node = .ok host) :
    Node node host := by
  unfold addressText at h
  split at h
  · rename_i hBracket
    cases node with
    | nil => cases hBracket
    | cons c rest =>
      rw [List.head?_cons, beq_iff_eq, Option.some.injEq] at hBracket
      rw [hBracket] at h ⊢
      rw [List.tail_cons] at h
      by_cases hClose : ']' ∈ rest
      · obtain ⟨before, suffix, rfl, hBefore⟩ := List.eq_append_cons_of_mem hClose
        rw [dropWhile_ne hBefore, takeWhile_ne hBefore] at h
        cases suffix with
        | nil =>
          cases h
          exact .bracketed hBefore
        | cons colon port =>
          simp only at h
          split at h
          · cases h
          · rename_i hColon
            rw [bne_iff_ne, not_not] at hColon
            split at h
            · rename_i hPort
              cases h
              rw [hColon]
              exact .bracketedPort hBefore (validPort_iff.mp hPort)
            · cases h
      · have hOpen : rest.dropWhile (fun c => c != ']') = [] := by
          rw [List.dropWhile_eq_nil_iff]
          exact fun c hc => bne_iff_ne.mpr (fun hSame => hClose (hSame ▸ hc))
        rw [hOpen] at h
        cases h
  · rename_i hBracket
    rw [beq_iff_eq] at hBracket
    split at h
    · rename_i hColon
      rw [Bool.and_eq_true, beq_iff_eq, List.contains_iff_mem] at hColon
      obtain ⟨hOne, hDot⟩ := hColon
      split at h
      · rename_i hPort
        cases h
        have hMem : ':' ∈ node := List.count_pos_iff.mp (by omega)
        obtain ⟨before, after, rfl, hBefore⟩ := List.eq_append_cons_of_mem hMem
        rw [dropWhile_ne hBefore, validPort_iff] at hPort
        rw [takeWhile_ne hBefore]
        have hHost : '.' ∈ before := by
          rcases List.mem_append.mp hDot with hHost | hRest
          · exact hHost
          · rcases List.mem_cons.mp hRest with hSame | hAfter
            · exact absurd hSame (by decide)
            · exact absurd hAfter (hPort.not_mem (by decide))
        refine .withPort ?_ hBefore hHost hPort
        intro hHead
        apply hBracket
        rw [List.head?_append, hHead]
        rfl
      · cases h
    · rename_i hColon
      cases h
      rw [Bool.and_eq_true, beq_iff_eq, List.contains_iff_mem] at hColon
      exact .plain hBracket hColon

theorem addressText_of_node {node host : List Char} (h : Node node host) :
    addressText node = .ok host := by
  unfold addressText
  cases h with
  | plain hBracket hPort =>
    have hNoPort : (node.count ':' == 1 && node.contains '.') = false := by
      rw [Bool.eq_false_iff, ne_eq, Bool.and_eq_true, beq_iff_eq, List.contains_iff_mem]
      exact hPort
    rw [if_neg (by simpa using hBracket), hNoPort]
    rfl
  | @withPort host port hBracket hColon hDot hPort =>
    have hHead : (host ++ ':' :: port).head? ≠ some '[' := by
      cases host with
      | nil => cases hDot
      | cons c host => exact hBracket
    have hCount : (host ++ ':' :: port).count ':' = 1 := by
      rw [List.count_append, List.count_cons_self, List.count_eq_zero.mpr hColon,
        List.count_eq_zero.mpr (hPort.not_mem (by decide))]
    have hBoth : ((host ++ ':' :: port).count ':' == 1 && (host ++ ':' :: port).contains '.') = true := by
      rw [Bool.and_eq_true, beq_iff_eq, List.contains_iff_mem]
      exact ⟨hCount, List.mem_append_left _ hDot⟩
    rw [if_neg (by simpa using hHead), hBoth, takeWhile_ne hColon, dropWhile_ne hColon, List.drop_one,
      List.tail_cons, validPort_iff.mpr hPort]
    rfl
  | bracketed hClose =>
    rw [List.head?_cons, List.tail_cons, takeWhile_ne hClose, dropWhile_ne hClose]
    rfl
  | bracketedPort hClose hPort =>
    rw [List.head?_cons, List.tail_cons, takeWhile_ne hClose, dropWhile_ne hClose]
    simp only [validPort_iff.mpr hPort]
    rfl

theorem addressText_eq_ok_iff {node host : List Char} : addressText node = .ok host ↔ Node node host :=
  ⟨node_of_addressText, addressText_of_node⟩

/-! ## Clients -/

variable {text : AddressText}

/-- What names a client: an address of its own, plainly written. -/
structure IsClient (text : AddressText) (value : List Char) (address : Address) : Prop where
  written : ∃ node host, Says value node ∧ Node node host ∧ text.makeAddress host = some address ∧
    node ≠ [] ∧ hasControlCharacter node = false ∧ lowercaseChars node ≠ "unknown".toList ∧
    node.head? ≠ some '_'
  specified : address.isUnspecified = false
  unicast : address.isMulticast = false

theorem parseIpToken_eq_ok_iff {value : List Char} {address : Address} :
    parseIpToken text value = .ok address ↔ IsClient text (trimChars value) address := by
  constructor
  · intro h
    unfold parseIpToken at h
    obtain ⟨node, hNode, h⟩ := bind_eq_ok.mp h
    split at h
    · cases h
    · rename_i hClean
      rw [Bool.or_eq_true, not_or, List.isEmpty_iff, Bool.not_eq_true] at hClean
      split at h
      · cases h
      · rename_i hNamed
        rw [Bool.or_eq_true, not_or, beq_iff_eq, beq_iff_eq] at hNamed
        obtain ⟨host, hHost, h⟩ := bind_eq_ok.mp h
        cases hAddress : text.makeAddress host with
        | none =>
          simp only [hAddress] at h
          cases h
        | some parsed =>
          simp only [hAddress] at h
          split at h
          · cases h
          · rename_i hKind
            cases h
            rw [Bool.or_eq_true, not_or, Bool.not_eq_true, Bool.not_eq_true] at hKind
            exact ⟨⟨node, host, unquote_eq_ok_iff.mp hNode, addressText_eq_ok_iff.mp hHost, hAddress,
              hClean.1, hClean.2, hNamed.1, hNamed.2⟩, hKind.1, hKind.2⟩
  · rintro ⟨⟨node, host, hSays, hNode, hAddress, hNonempty, hControl, hUnknown, hObfuscated⟩,
      hSpecified, hUnicast⟩
    unfold parseIpToken
    rw [unquote_eq_ok_iff.mpr hSays]
    simp only [bind, Except.bind]
    rw [if_neg, if_neg, addressText_eq_ok_iff.mpr hNode]
    · simp only [hAddress, hSpecified, hUnicast]
      rfl
    · rw [Bool.or_eq_true, not_or, beq_iff_eq, beq_iff_eq]
      exact ⟨hUnknown, hObfuscated⟩
    · rw [Bool.or_eq_true, not_or, List.isEmpty_iff, hControl]
      exact ⟨hNonempty, Bool.false_ne_true⟩

/-! ## Rendered clients -/

/-- The documented texts of addresses: they are read back, and are made of the characters
of their notation. -/
def Rendered (text : AddressText) (address : Address) : Prop :=
  text.makeAddress (text.toText address) = some address ∧
    match address with
    | .v4 _ => '.' ∈ text.toText address ∧ ∀ c ∈ text.toText address, c.isDigit = true ∨ c = '.'
    | .v6 _ _ => ']' ∉ text.toText address ∧ hasControlCharacter (text.toText address) = false

/-- An address in a header: IPv6 in brackets, either with a port behind it or without. -/
inductive NodeText (text : AddressText) : Address → List Char → Prop
  | v4 (value : BitVec 32) : NodeText text (.v4 value) (text.toText (.v4 value))
  | v4Port (value : BitVec 32) {port : List Char} (hPort : IsPort port) :
      NodeText text (.v4 value) (text.toText (.v4 value) ++ ':' :: port)
  | v6 (bytes : Vector (BitVec 8) 16) (scopeId : BitVec 32) :
      NodeText text (.v6 bytes scopeId) ('[' :: (text.toText (.v6 bytes scopeId) ++ [']']))
  | v6Port (bytes : Vector (BitVec 8) 16) (scopeId : BitVec 32) {port : List Char}
      (hPort : IsPort port) :
      NodeText text (.v6 bytes scopeId) ('[' :: (text.toText (.v6 bytes scopeId) ++ ']' :: ':' :: port))

theorem hasControlCharacter_append (left right : List Char) : hasControlCharacter (left ++ right) =
    (hasControlCharacter left || hasControlCharacter right) := List.any_append

theorem hasControlCharacter_cons (c : Char) (rest : List Char) : hasControlCharacter (c :: rest) =
    (decide (c.toNat < 0x20) || c.toNat == 0x7f || hasControlCharacter rest) := List.any_cons

theorem isDigit_bounds {c : Char} (h : c.isDigit = true) : 0x30 ≤ c.toNat ∧ c.toNat ≤ 0x39 := by
  rw [Char.isDigit, Bool.and_eq_true, decide_eq_true_eq, decide_eq_true_eq] at h
  exact ⟨UInt32.le_iff_toNat_le.mp h.1, UInt32.le_iff_toNat_le.mp h.2⟩

theorem hasControlCharacter_digits {value : List Char} (h : ∀ c ∈ value, c.isDigit = true ∨ c = '.') :
    hasControlCharacter value = false := by
  unfold hasControlCharacter
  rw [List.any_eq_false]
  intro c hc
  rw [Bool.or_eq_true, decide_eq_true_eq, beq_iff_eq]
  rcases h c hc with hDigit | rfl
  · have hBounds := isDigit_bounds hDigit
    omega
  · decide

theorem IsPort.hasControlCharacter {port : List Char} (h : IsPort port) :
    hasControlCharacter (':' :: port) = false := by
  have hPort : TrustedProxy.hasControlCharacter port = false :=
    hasControlCharacter_digits (fun c hc => .inl (h.2 c hc))
  rw [hasControlCharacter_cons, hPort]
  decide

theorem not_mem_of_v4 {host : List Char} {c : Char} (h : ∀ c ∈ host, c.isDigit = true ∨ c = '.')
    (hc : c.isDigit = false) (hDot : c ≠ '.') : c ∉ host := by
  intro hMem
  rcases h c hMem with hDigit | hSame
  · rw [hDigit] at hc
    cases hc
  · exact hDot hSame

/-- The node of a rendered address is plainly written. -/
theorem NodeText.node {address : Address} {node : List Char} (h : NodeText text address node)
    (hRendered : Rendered text address) : Node node (text.toText address) ∧
      node ≠ [] ∧ hasControlCharacter node = false ∧ lowercaseChars node ≠ "unknown".toList ∧
      node.head? ≠ some '_' := by
  have hNamed : ∀ host rest : List Char, '.' ∈ host → (∀ c ∈ host, c.isDigit = true ∨ c = '.') →
      (host ++ rest) ≠ [] ∧ lowercaseChars (host ++ rest) ≠ "unknown".toList ∧
        ∀ c, c.isDigit = false → c ≠ '.' → (host ++ rest).head? ≠ some c := by
    intro host rest hDot hHost
    refine ⟨List.append_ne_nil_of_left_ne_nil (List.ne_nil_of_mem hDot) _, ?_, ?_⟩
    · intro hUnknown
      have hMem : toLower '.' ∈ lowercaseChars (host ++ rest) :=
        List.mem_map_of_mem (List.mem_append_left _ hDot)
      rw [hUnknown] at hMem
      exact absurd hMem (by decide)
    · intro c hc hNotDot hHead
      cases host with
      | nil => cases hDot
      | cons first host =>
        cases hHead
        exact not_mem_of_v4 hHost hc hNotDot List.mem_cons_self
  cases h with
  | v4 value =>
    obtain ⟨-, hDot, hHost⟩ := hRendered
    obtain ⟨hNonempty, hUnknown, hHead⟩ := hNamed _ [] hDot hHost
    rw [List.append_nil] at hNonempty hUnknown hHead
    refine ⟨.plain (hHead _ (by decide) (by decide)) ?_, hNonempty, hasControlCharacter_digits hHost,
      hUnknown, hHead _ (by decide) (by decide)⟩
    rintro ⟨hColon, -⟩
    rw [List.count_eq_zero.mpr (not_mem_of_v4 hHost (by decide) (by decide))] at hColon
    cases hColon
  | @v4Port value port hPort =>
    obtain ⟨-, hDot, hHost⟩ := hRendered
    obtain ⟨hNonempty, hUnknown, hHead⟩ := hNamed _ (':' :: port) hDot hHost
    obtain ⟨-, -, hHostHead⟩ := hNamed _ [] hDot hHost
    rw [List.append_nil] at hHostHead
    refine ⟨.withPort (hHostHead _ (by decide) (by decide))
      (not_mem_of_v4 hHost (by decide) (by decide)) hDot hPort, hNonempty, ?_, hUnknown,
      hHead _ (by decide) (by decide)⟩
    rw [hasControlCharacter_append, hasControlCharacter_digits hHost, hPort.hasControlCharacter]
    rfl
  | v6 bytes scopeId =>
    obtain ⟨-, hClose, hControl⟩ := hRendered
    refine ⟨.bracketed hClose, List.cons_ne_nil _ _, ?_, ?_, ?_⟩
    · rw [hasControlCharacter_cons, hasControlCharacter_append, hControl]
      decide
    · exact fun h => absurd (List.cons.inj h).1 (by decide)
    · simp
  | v6Port bytes scopeId hPort =>
    obtain ⟨-, hClose, hControl⟩ := hRendered
    refine ⟨.bracketedPort hClose hPort, List.cons_ne_nil _ _, ?_, ?_, ?_⟩
    · rw [hasControlCharacter_cons, hasControlCharacter_append, hControl, hasControlCharacter_cons,
        hPort.hasControlCharacter]
      decide
    · exact fun h => absurd (List.cons.inj h).1 (by decide)
    · simp

theorem isClient_of_rendered {address : Address} {value node : List Char} (hSays : Says value node)
    (hNode : NodeText text address node) (hRendered : Rendered text address)
    (hSpecified : address.isUnspecified = false) (hUnicast : address.isMulticast = false) :
    IsClient text value address where
  written := by
    obtain ⟨hHost, hNonempty, hControl, hUnknown, hObfuscated⟩ := hNode.node hRendered
    exact ⟨node, _, hSays, hHost, hRendered.1, hNonempty, hControl, hUnknown, hObfuscated⟩
  specified := hSpecified
  unicast := hUnicast

end SecureCore.TrustedProxy

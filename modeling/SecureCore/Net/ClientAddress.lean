import SecureCore.Net.AcceptedHeaders

/-! # What resolve makes of a request

Whose address a trusted peer vouches for, and who decides about the scheme. -/

namespace SecureCore

set_option autoImplicit false

open TrustedProxy

/-! ## A proxy in a private network -/

namespace Sample

open TrustedProxyResolver

/-- make_address and to_string on dotted quads. -/
def dottedQuads : AddressText where
  makeAddress value :=
    let parts := partsOf value '.'
    if parts.length == 4 && parts.all (fun part => !part.isEmpty && part.all Char.isDigit &&
        decimalValue part < 256) then
      some (.v4 (BitVec.ofNat 32 (parts.foldl (fun n part => 256 * n + decimalValue part) 0)))
    else none
  toText
    | .v4 value =>
      let octet (shift : Nat) := (toString (value.toNat / 2 ^ shift % 256)).toList
      octet 24 ++ '.' :: octet 16 ++ '.' :: octet 8 ++ '.' :: octet 0
    | .v6 _ _ => []

/-- 10.0.0.0/8 is trusted. -/
def proxies : TrustedProxyResolver :=
  ⟨[⟨.v4 0x0a000000#32, 8, by decide⟩], 4096, by decide⟩

def proxyPeer : List Char := "10.0.0.1".toList

def forwardedRequest (value : List Char) : HttpRequest := [⟨"forwarded", value⟩]

def forwardedBy (elements : String) : ForwardingHeaders := ⟨elements.toList, [], [], []⟩

end Sample

namespace TrustedProxyResolver

open Sample

variable {text : AddressText} {resolver : TrustedProxyResolver} {peerIp : List Char}
variable {peer : Address} {headers : ForwardingHeaders}

theorem forwarding_ok {values : ForwardedValues} (h : resolver.forwarding text headers = .ok values) :
    values.addresses = chainOf text headers ∧ values.scheme = schemeOf headers := by
  unfold forwarding at h
  split at h
  · cases h
  · obtain ⟨parsed, hParsed, h⟩ := bind_eq_ok.mp h
    obtain ⟨hAddresses, hScheme⟩ := parseChain_ok hParsed
    unfold schemeOf
    rw [← hScheme]
    split at h
    · rename_i hProto
      rw [Bool.and_eq_true, Option.isNone_iff_eq_none] at hProto
      obtain ⟨scheme, hParsedProto, h⟩ := bind_eq_ok.mp h
      cases h
      refine ⟨hAddresses, ?_⟩
      rw [hProto.1, Option.none_or]
      exact parseForwardedProto_ok hParsedProto
    · rename_i hNoProto
      cases h
      refine ⟨hAddresses, ?_⟩
      cases hNone : values.scheme with
      | some scheme => rfl
      | none =>
        have hEmpty : headers.xForwardedProto.isEmpty = true := by simpa [hNone] using hNoProto
        rw [firstEntry, if_pos hEmpty, Option.none_or]

/-! ## resolve -/

theorem isTrusted_of_makeAddress (hPeer : text.makeAddress peerIp = some peer) :
    resolver.isTrusted text peerIp = resolver.trusts peer := by
  unfold isTrusted
  rw [hPeer]

/-- An untrusted peer is the client, whatever it sends. -/
theorem resolve_untrusted (hUntrusted : resolver.isTrusted text peerIp = false)
    (request : HttpRequest) (directTls : Bool) :
    resolver.resolve text peerIp request directTls =
      .ok ⟨(text.makeAddress peerIp).elim peerIp text.toText, directTls, false⟩ := by
  unfold resolve
  cases text.makeAddress peerIp with
  | none => rfl
  | some address =>
    simp only [hUntrusted, Bool.not_false, if_true]
    rfl

theorem resolve_trusted {request : HttpRequest} (hPeer : text.makeAddress peerIp = some peer)
    (hTrusted : resolver.trusts peer = true) (hHeaders : readHeaders request = .ok headers)
    (directTls : Bool) :
    resolver.resolve text peerIp request directTls = (do
      let values ← resolver.forwarding text headers
      .ok ⟨text.toText (Hops.walk resolver.trusts peer values.addresses.reverse),
        secureTransport values.scheme directTls,
        values.scheme.isSome || !values.addresses.isEmpty⟩) := by
  unfold resolve
  rw [hPeer]
  simp only [isTrusted_of_makeAddress hPeer, hTrusted, hHeaders, Bool.not_true, Bool.false_eq_true,
    if_false]
  change (resolver.forwarding text headers >>= _) = _
  congr 1
  funext values
  cases values.addresses with
  | nil => simp [Hops.walk]
  | cons address rest => simp

/-- What an answer says of the headers. -/
theorem resolve_ok {request : HttpRequest} {directTls : Bool} {result : ResolvedClient}
    (hPeer : text.makeAddress peerIp = some peer) (hTrusted : resolver.trusts peer = true)
    (hHeaders : readHeaders request = .ok headers)
    (h : resolver.resolve text peerIp request directTls = .ok result) :
    result.clientIp = text.toText (Hops.walk resolver.trusts peer (chainOf text headers).reverse) ∧
      result.secureTransport = secureTransport (schemeOf headers) directTls := by
  rw [resolve_trusted hPeer hTrusted hHeaders] at h
  obtain ⟨values, hValues, h⟩ := bind_eq_ok.mp h
  obtain ⟨hAddresses, hScheme⟩ := forwarding_ok hValues
  cases h
  rw [hAddresses, hScheme]
  exact ⟨rfl, rfl⟩

/-! ## Headers with more in front

`prepend left value` is the value of a header to which proxies appended `value` when
the client had sent `left`, or nothing. -/

def prepend (left : Option (List Char)) (value : List Char) : List Char :=
  match left with
  | none => value
  | some left => left ++ ',' :: value

theorem prepend_isEmpty (left : Option (List Char)) {value : List Char}
    (h : value.isEmpty = false) : (prepend left value).isEmpty = false := by
  cases left with
  | none => exact h
  | some left => simp [prepend]

/-- Whether `left` can be read on its own by `parse`. -/
def Accepted {α : Type} (parse : List Char → ProxyHeader α) (left : Option (List Char)) : Prop :=
  ∀ value ∈ left, ∃ parsed, parse value = .ok parsed

variable {left : Option (List Char)} {value : List Char}

theorem partsOf_prepend (hLeft : ∀ l ∈ left, ∃ parts, splitTopLevel l ',' = .ok parts)
    (hValue : ∃ parts, splitTopLevel value ',' = .ok parts) :
    partsOf (prepend left value) ',' =
      left.elim [] (fun l => partsOf l ',') ++ partsOf value ',' := by
  cases left with
  | none => rfl
  | some l =>
    obtain ⟨leftParts, hLeftParts⟩ := hLeft l rfl
    obtain ⟨parts, hParts⟩ := hValue
    exact partsOf_append hLeftParts hParts

theorem chainOf_prepend_forwarded {values : ForwardedValues} (hNonempty : value.isEmpty = false)
    (hLeft : Accepted (parseForwardedHeader text) left)
    (hValue : parseForwardedHeader text value = .ok values) :
    ∃ more, chainOf text { headers with forwarded := prepend left value } =
      more ++ chainOf text { headers with forwarded := value } := by
  have hSplit : ∀ l ∈ left, ∃ parts, splitTopLevel l ',' = .ok parts := by
    intro l hl
    obtain ⟨parsed, hParsed⟩ := hLeft l hl
    exact splitTopLevel_of_forwarded hParsed
  unfold chainOf
  simp only [prepend_isEmpty left hNonempty, hNonempty, Bool.not_false, if_true]
  unfold addressesOf
  rw [partsOf_prepend hSplit (splitTopLevel_of_forwarded hValue), List.flatMap_append]
  exact ⟨_, rfl⟩

/-! ## The scheme -/

/-- Whether two first protos of elements in front say the same about https, where
`own` is what the rest of the request says. -/
def SameScheme (own : Bool) : Option (List Char) → Option (List Char) → Prop
  | none, none => True
  | some first, none => first = "https".toList ↔ own = true
  | none, some second => own = true ↔ second = "https".toList
  | some first, some second => first = "https".toList ↔ second = "https".toList

theorem secureTransport_or (scheme own : Option (List Char)) (directTls : Bool) :
    secureTransport (scheme.or own) directTls =
      secureTransport scheme (secureTransport own directTls) := by
  cases scheme <;> rfl

theorem sameScheme_iff (own : Bool) (first second : Option (List Char)) :
    SameScheme own first second ↔ secureTransport first own = secureTransport second own := by
  rw [Bool.eq_iff_iff]
  cases first with
  | none =>
    cases second with
    | none => simp [SameScheme, secureTransport]
    | some second => simp [SameScheme, secureTransport]
  | some first =>
    cases second with
    | none => simp [SameScheme, secureTransport]
    | some second => simp [SameScheme, secureTransport]

/-- Two valid schemes are the same if they say the same about https. -/
theorem validScheme_eq_iff {first second : List Char} (hFirst : validScheme first = true)
    (hSecond : validScheme second = true) :
    ((first == "https".toList) = (second == "https".toList)) ↔ first = second := by
  constructor
  · intro h
    unfold validScheme at hFirst hSecond
    cases hHttps : (first == "https".toList) with
    | true =>
      rw [hHttps] at h
      rw [eq_of_beq hHttps, eq_of_beq h.symm]
    | false =>
      rw [hHttps] at h
      rw [hHttps, Bool.or_false] at hFirst
      rw [← h, Bool.or_false] at hSecond
      rw [eq_of_beq hFirst, eq_of_beq hSecond]
  · intro h
    rw [h]

theorem firstProto_prepend {values : ForwardedValues}
    (hLeft : Accepted (parseForwardedHeader text) left)
    (hValue : parseForwardedHeader text value = .ok values) :
    firstProto (prepend left value) = (left.bind firstProto).or (firstProto value) := by
  have hSplit : ∀ l ∈ left, ∃ parts, splitTopLevel l ',' = .ok parts := by
    intro l hl
    obtain ⟨parsed, hParsed⟩ := hLeft l hl
    exact splitTopLevel_of_forwarded hParsed
  unfold firstProto
  rw [partsOf_prepend hSplit (splitTopLevel_of_forwarded hValue), List.findSome?_append]
  cases left <;> rfl

/-- Elements in front decide with their first proto, the rest only if they have none. -/
theorem resolve_prepend {request : HttpRequest} {directTls : Bool} {values : ForwardedValues}
    {client : Address} {right : List Address} {result : ResolvedClient}
    (hPeer : text.makeAddress peerIp = some peer) (hTrusted : resolver.trusts peer = true)
    (hHeaders : readHeaders request = .ok { headers with forwarded := prepend left value })
    (hLeft : Accepted (parseForwardedHeader text) left)
    (hValue : parseForwardedHeader text value = .ok values)
    (hAddresses : values.addresses = client :: right) (hClient : resolver.trusts client = false)
    (hRight : ∀ a ∈ right, resolver.trusts a = true)
    (h : resolver.resolve text peerIp request directTls = .ok result) :
    result.clientIp = text.toText client ∧
      result.secureTransport = secureTransport (left.bind firstProto)
        (secureTransport (schemeOf { headers with forwarded := value }) directTls) := by
  have hNonempty := isEmpty_of_forwarded hValue
  obtain ⟨hClientIp, hSecure⟩ := resolve_ok hPeer hTrusted hHeaders h
  constructor
  · have hChain : chainOf text { headers with forwarded := value } = client :: right := by
      rw [← hAddresses, (parseForwardedHeader_ok hValue).1]
      simp [chainOf, hNonempty]
    obtain ⟨more, hMore⟩ := chainOf_prepend_forwarded hNonempty hLeft hValue
    have hUntrusted : ∃ a ∈ client :: right, resolver.trusts a = false :=
      ⟨client, List.mem_cons_self, hClient⟩
    rw [hClientIp, hMore, hChain, Hops.walk_prepend hUntrusted]
    rw [Hops.walk_eq_of_untrusted hTrusted hClient hRight]
  · rw [hSecure, ← secureTransport_or]
    congr 1
    unfold schemeOf
    simp only [prepend_isEmpty left hNonempty, hNonempty, Bool.not_false, if_true]
    rw [firstProto_prepend hLeft hValue, Option.or_assoc]

/-- Who sends elements in front of the client's hop decides about the scheme if they
have a proto, and so does the front of a list of schemes: `secureTransport` is
independent of them exactly if they say the same. -/
theorem secureTransport_independent_iff (text : AddressText) (resolver : TrustedProxyResolver)
    (peerIp : List Char) (peer : Address) (hPeer : text.makeAddress peerIp = some peer)
    (hTrusted : resolver.trusts peer = true) :
    (∀ request₁ request₂ (headers : ForwardingHeaders) left₁ left₂ rest values client right directTls
        result₁ result₂,
      readHeaders request₁ = .ok { headers with forwarded := prepend left₁ rest } →
      readHeaders request₂ = .ok { headers with forwarded := prepend left₂ rest } →
      Accepted (parseForwardedHeader text) left₁ → Accepted (parseForwardedHeader text) left₂ →
      parseForwardedHeader text rest = .ok values → values.addresses = client :: right →
      resolver.trusts client = false → (∀ a ∈ right, resolver.trusts a = true) →
      resolver.resolve text peerIp request₁ directTls = .ok result₁ →
      resolver.resolve text peerIp request₂ directTls = .ok result₂ →
      result₁.clientIp = text.toText client ∧ result₂.clientIp = text.toText client ∧
        (result₁.secureTransport = result₂.secureTransport ↔
          SameScheme (secureTransport (schemeOf { headers with forwarded := rest }) directTls)
            (left₁.bind firstProto) (left₂.bind firstProto))) ∧
    ∀ request (headers : ForwardingHeaders) front back directTls result,
      readHeaders request = .ok headers →
      (headers.forwarded = [] ∨ firstProto headers.forwarded = none) →
      headers.xForwardedProto ≠ [] →
      (∀ entry ∈ partsOf headers.xForwardedProto ',', validScheme (lowercaseChars entry) = true) →
      (partsOf headers.xForwardedProto ',').head? = some front →
      (partsOf headers.xForwardedProto ',').getLast? = some back →
      resolver.resolve text peerIp request directTls = .ok result →
      (result.secureTransport = (lowercaseChars back == "https".toList) ↔
        lowercaseChars front = lowercaseChars back) := by
  constructor
  · intro request₁ request₂ headers left₁ left₂ rest values client right directTls result₁ result₂
      hHeaders₁ hHeaders₂ hLeft₁ hLeft₂ hRest hAddresses hClient hRight hResult₁ hResult₂
    obtain ⟨hClientIp₁, hSecure₁⟩ := resolve_prepend hPeer hTrusted hHeaders₁ hLeft₁ hRest hAddresses
      hClient hRight hResult₁
    obtain ⟨hClientIp₂, hSecure₂⟩ := resolve_prepend hPeer hTrusted hHeaders₂ hLeft₂ hRest hAddresses
      hClient hRight hResult₂
    refine ⟨hClientIp₁, hClientIp₂, ?_⟩
    rw [hSecure₁, hSecure₂, sameScheme_iff]
  · intro request headers front back directTls result hHeaders hNoProto hProto hValid hFront hBack
      hResult
    obtain ⟨-, hSecure⟩ := resolve_ok hPeer hTrusted hHeaders hResult
    have hScheme : schemeOf headers = some (lowercaseChars front) := by
      have hNone : (if !headers.forwarded.isEmpty then firstProto headers.forwarded else none) =
          none := by
        rcases hNoProto with hEmpty | hNone
        · rw [hEmpty]
          rfl
        · rw [hNone]
          exact ite_self none
      rw [schemeOf, hNone, Option.none_or, firstEntry, if_neg (by simpa using hProto), hFront]
      rfl
    have hFrontValid := hValid front (List.mem_of_mem_head? hFront)
    have hBackValid := hValid back (List.mem_of_mem_getLast? hBack)
    rw [hSecure, hScheme]
    exact validScheme_eq_iff hFrontValid hBackValid

/-- With `https` or `http` in front of the hop of one and the same client, the proxy's
answers differ, and the front of `https, http` is taken though the proxy wrote `http`. -/
theorem secureTransport_forged :
    Accepted (parseForwardedHeader dottedQuads) (some "for=1.2.3.4;proto=https".toList) ∧
      Accepted (parseForwardedHeader dottedQuads) (some "for=1.2.3.4;proto=http".toList) ∧
      parseForwardedHeader dottedQuads "for=5.6.7.8".toList = .ok ⟨[.v4 0x05060708#32], none⟩ ∧
      proxies.isTrusted dottedQuads proxyPeer = true ∧
      proxies.trusts (.v4 0x05060708#32) = false ∧
      proxies.resolve dottedQuads proxyPeer
        (forwardedRequest "for=1.2.3.4;proto=https,for=5.6.7.8".toList) false =
          .ok ⟨"5.6.7.8".toList, true, true⟩ ∧
      proxies.resolve dottedQuads proxyPeer
        (forwardedRequest "for=1.2.3.4;proto=http,for=5.6.7.8".toList) false =
          .ok ⟨"5.6.7.8".toList, false, true⟩ ∧
      proxies.resolve dottedQuads proxyPeer [⟨"X-Forwarded-For", "5.6.7.8".toList⟩,
          ⟨"X-Forwarded-Proto", "https, http".toList⟩] false = .ok ⟨"5.6.7.8".toList, true, true⟩ := by
  refine ⟨?_, ?_, by rfl, by decide +kernel, by decide, by rfl, by rfl, by rfl⟩
  · rintro l hl
    cases hl
    exact ⟨⟨[.v4 0x01020304#32], some "https".toList⟩, by rfl⟩
  · rintro l hl
    cases hl
    exact ⟨⟨[.v4 0x01020304#32], some "http".toList⟩, by rfl⟩

theorem secureTransport_independent_sample :
    (∃ result₁ result₂, proxies.resolve dottedQuads proxyPeer
        (forwardedRequest "for=1.2.3.4;proto=https,for=5.6.7.8".toList) false = .ok result₁ ∧
      proxies.resolve dottedQuads proxyPeer (forwardedRequest "for=5.6.7.8".toList) false =
        .ok result₂ ∧
      (result₁.secureTransport = result₂.secureTransport ↔
        SameScheme false (some "https".toList) none)) ∧
    ∃ result, proxies.resolve dottedQuads proxyPeer [⟨"X-Forwarded-Proto", "https, http".toList⟩]
        false = .ok result ∧
      (result.secureTransport = ("http".toList == "https".toList) ↔
        "https".toList = "http".toList) := by
  obtain ⟨hForwarded, hProto⟩ := secureTransport_independent_iff dottedQuads proxies proxyPeer
    (.v4 0x0a000001#32) (by decide +kernel) (by decide +kernel)
  constructor
  · refine ⟨⟨"5.6.7.8".toList, true, true⟩, ⟨"5.6.7.8".toList, false, true⟩, by rfl, by rfl, ?_⟩
    exact (hForwarded (forwardedRequest "for=1.2.3.4;proto=https,for=5.6.7.8".toList)
      (forwardedRequest "for=5.6.7.8".toList) (forwardedBy "") (some "for=1.2.3.4;proto=https".toList)
      none "for=5.6.7.8".toList ⟨[.v4 0x05060708#32], none⟩ (.v4 0x05060708#32) [] false _ _
      (by rfl) (by rfl)
      (by rintro l hl; cases hl; exact ⟨⟨[.v4 0x01020304#32], some "https".toList⟩, by rfl⟩)
      (by rintro l hl; cases hl) (by rfl) rfl (by decide) (by simp) (by rfl) (by rfl)).2.2
  · refine ⟨⟨proxyPeer, true, true⟩, by rfl, ?_⟩
    exact hProto [⟨"X-Forwarded-Proto", "https, http".toList⟩] ⟨[], [], [], "https, http".toList⟩
      "https".toList "http".toList false _ (by rfl) (.inl rfl) (by decide) (by decide +kernel)
      (by decide +kernel) (by decide +kernel) (by rfl)

end TrustedProxyResolver

end SecureCore

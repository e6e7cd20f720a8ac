import SecureCore.Net.ClientAddress
import SecureCore.Net.ForwardedHeader

/-! # Well-formed forwarding headers

A request that carries a well-formed header of one of the three kinds is accepted, and its
chain is the one that is written in the header. -/

namespace SecureCore

set_option autoImplicit false

namespace TrustedProxy

open Quoted

variable {text : AddressText} {request : HttpRequest} {headers : ForwardingHeaders} {chain : List Address}

/-! ## Fields -/

/-- A field that may stand once: without one the value is empty. -/
def Single (values : List (List Char)) (value : List Char) : Prop :=
  values = [] ∧ value = [] ∨ values = [value]

def valuesOf (request : HttpRequest) (name : String) : List (List Char) :=
  (request.filter (fun field => iequals field.name name)).map HttpField.value

/-- The request has none of the four headers twice, and these are their values. -/
structure Carries (request : HttpRequest) (headers : ForwardingHeaders) : Prop where
  forwarded : Single (valuesOf request "Forwarded") headers.forwarded
  xForwardedFor : Single (valuesOf request "X-Forwarded-For") headers.xForwardedFor
  xRealIp : Single (valuesOf request "X-Real-IP") headers.xRealIp
  xForwardedProto : Single (valuesOf request "X-Forwarded-Proto") headers.xForwardedProto

theorem headerValueFrom_eq_ok_iff {name : String} {result : Option (List Char)} {value : List Char} :
    headerValueFrom name result request = .ok value ↔ Single (result.toList ++ valuesOf request name) value := by
  induction request generalizing result with
  | nil =>
    have hEnd : headerValueFrom name result [] = .ok (result.getD []) := by unfold headerValueFrom; rfl
    rw [hEnd, valuesOf, List.filter_nil, List.map_nil, List.append_nil, Except.ok.injEq]
    cases result with
    | none => simp [Single, eq_comm]
    | some known => simp [Single]
  | cons field fields ih =>
    unfold headerValueFrom
    cases hName : iequals field.name name with
    | false =>
      have hValues : valuesOf (field :: fields) name = valuesOf fields name := by
        simp [valuesOf, hName]
      rw [hValues, Bool.not_false, if_pos rfl]
      exact ih
    | true =>
      have hValues : valuesOf (field :: fields) name = field.value :: valuesOf fields name := by
        simp [valuesOf, hName]
      rw [hValues, Bool.not_true, if_neg Bool.false_ne_true]
      cases result with
      | none =>
        rw [ih]
        rfl
      | some known => simp [Single]

theorem readHeaders_eq_ok_iff : readHeaders request = .ok headers ↔ Carries request headers := by
  have hRead : ∀ name value, headerValue request name = .ok value ↔ Single (valuesOf request name) value :=
    fun _ _ => headerValueFrom_eq_ok_iff
  constructor
  · intro h
    obtain ⟨forwarded, hForwarded, h⟩ := bind_eq_ok.mp h
    obtain ⟨xForwardedFor, hFor, h⟩ := bind_eq_ok.mp h
    obtain ⟨xRealIp, hReal, h⟩ := bind_eq_ok.mp h
    obtain ⟨xForwardedProto, hProto, h⟩ := bind_eq_ok.mp h
    cases h
    exact ⟨(hRead _ _).mp hForwarded, (hRead _ _).mp hFor, (hRead _ _).mp hReal, (hRead _ _).mp hProto⟩
  · rintro ⟨hForwarded, hFor, hReal, hProto⟩
    unfold readHeaders
    rw [(hRead _ _).mpr hForwarded, (hRead _ _).mpr hFor, (hRead _ _).mpr hReal, (hRead _ _).mpr hProto]
    rfl

/-! ## Chains -/

/-- A list of clients, separated by commas. -/
structure ForText (text : AddressText) (chain : List Address) (value : List Char) : Prop where
  written : ∃ pieces, Pieces headerMarks ',' value pieces ∧
    List.Forall₂ (fun piece address => IsClient text (trimChars piece) address) pieces chain

/-- An empty X-Forwarded-Proto counts as none. Of a list the first scheme must be one of the two. -/
def ProtoText (value : List Char) : Prop :=
  value = [] ∨ ∃ front rest secure, Pieces headerMarks ',' value (front :: rest) ∧
    lowercaseChars (trimChars front) = Parameter.schemeText secure

/-- The headers are well-formed and give this chain: Forwarded goes before X-Forwarded-For, and
this before X-Real-IP. A header that another one precedes may be anything. -/
inductive WellFormed (text : AddressText) (headers : ForwardingHeaders) : List Address → Prop
  | forwarded {elements : List (List Parameter)} {chain : List Address} (hNonempty : elements ≠ [])
      (hClients : List.Forall₂ (fun element address => clients element = [address]) elements chain)
      (hAddress : ∀ address ∈ chain, Rendered text address ∧
        address.isUnspecified = false ∧ address.isMulticast = false)
      (hText : HeaderText text elements headers.forwarded) : WellFormed text headers chain
  | xForwardedFor {chain : List Address} (hForwarded : headers.forwarded = [])
      (hText : ForText text chain headers.xForwardedFor) : WellFormed text headers chain
  | xRealIp {address : Address} (hForwarded : headers.forwarded = []) (hFor : headers.xForwardedFor = [])
      (hClient : IsClient text (trimChars headers.xRealIp) address) : WellFormed text headers [address]
  | absent (hForwarded : headers.forwarded = []) (hFor : headers.xForwardedFor = [])
      (hReal : headers.xRealIp = []) : WellFormed text headers []

/-- Within the limits of the size and of the hops. -/
structure WithinLimits (resolver : TrustedProxyResolver) (headers : ForwardingHeaders) (chain : List Address) :
    Prop where
  size : headers.forwarded.length + headers.xForwardedFor.length + headers.xRealIp.length +
    headers.xForwardedProto.length ≤ resolver.forwardedHeaderMaxBytes
  hops : chain.length ≤ maximumForwardedHops

theorem IsClient.nonempty {value : List Char} {address : Address} (h : IsClient text value address) :
    value ≠ [] := by
  obtain ⟨node, host, hSays, -, -, hNode, -⟩ := h.written
  rintro rfl
  have hEmpty : unquote [] = .ok node := unquote_eq_ok_iff.mpr hSays
  exact hNode (Except.ok.inj hEmpty).symm

theorem foldlM_forParts {pieces : List (List Char)} {known : List Address}
    (h : List.Forall₂ (fun piece address => IsClient text (trimChars piece) address) pieces chain)
    (hHops : known.length + chain.length ≤ maximumForwardedHops) :
    (pieces.map trimChars).foldlM (parseForPart text) known = .ok (known ++ chain) := by
  induction h generalizing known with
  | nil =>
    rw [List.append_nil]
    rfl
  | @cons piece address pieces chain hPiece _ ih =>
    rw [List.length_cons] at hHops
    have hToken : parseIpToken text (trimChars piece) = .ok address := by
      rw [parseIpToken_eq_ok_iff, trimChars_trimChars]
      exact hPiece
    have hFirst : parseForPart text known (trimChars piece) = .ok (known ++ [address]) := by
      unfold parseForPart
      rw [if_neg (fun hEmpty => hPiece.nonempty (List.isEmpty_iff.mp hEmpty)), hToken]
      exact if_neg (by omega)
    have hLength : (known ++ [address]).length + chain.length ≤ maximumForwardedHops := by
      rw [List.length_append, List.length_singleton]
      omega
    rw [List.map_cons, List.foldlM_cons, hFirst]
    change (pieces.map trimChars).foldlM (parseForPart text) (known ++ [address]) = _
    rw [ih hLength, List.append_assoc, List.singleton_append]

theorem parseXForwardedFor_text {value : List Char} (h : ForText text chain value)
    (hHops : chain.length ≤ maximumForwardedHops) : parseXForwardedFor text value = .ok chain := by
  obtain ⟨pieces, hPieces, hClients⟩ := h.written
  unfold parseXForwardedFor
  rw [splitTopLevel_pieces (by decide) hPieces]
  change (pieces.map trimChars).foldlM (parseForPart text) [] = _
  exact foldlM_forParts hClients (by rwa [List.length_nil, Nat.zero_add])

theorem parseForwardedProto_text {value : List Char} (h : ProtoText value) :
    ∃ scheme, parseForwardedProto value = .ok scheme := by
  rcases h with rfl | ⟨front, rest, secure, hPieces, hFront⟩
  · exact ⟨none, rfl⟩
  · have hValid : validScheme (Parameter.schemeText secure) = true := by cases secure <;> decide
    have hNonempty : (trimChars front).isEmpty = false := by
      rw [List.isEmpty_eq_false_iff]
      intro hEmpty
      rw [hEmpty] at hFront
      cases secure <;> cases hFront
    unfold parseForwardedProto
    split
    · exact ⟨none, rfl⟩
    · rw [splitTopLevel_pieces (by decide) hPieces]
      refine ⟨some (Parameter.schemeText secure), ?_⟩
      change (if (trimChars front).isEmpty then _ else if validScheme (lowercaseChars (trimChars front)) then
        Except.ok (some (lowercaseChars (trimChars front))) else _) = _
      rw [hNonempty, hFront, hValid]
      rfl

theorem parseChain_wellFormed (h : WellFormed text headers chain) (hHops : chain.length ≤ maximumForwardedHops) :
    ∃ values, parseChain text headers = .ok values ∧ values.addresses = chain := by
  unfold parseChain
  cases h with
  | @forwarded elements _ hNonempty hClients hAddress hText =>
    have hParsed := parseForwardedHeader_rendered hNonempty (hClients.length_eq ▸ hHops) hClients hAddress hText
    have hPresent : (!headers.forwarded.isEmpty) = true := by rw [isEmpty_of_forwarded hParsed, Bool.not_false]
    rw [if_pos hPresent]
    exact ⟨_, hParsed, rfl⟩
  | xForwardedFor hForwarded hText =>
    have hParsed := parseXForwardedFor_text hText hHops
    have hPresent : (!headers.xForwardedFor.isEmpty) = true := by
      rw [isEmpty_of_forwardedFor hParsed, Bool.not_false]
    rw [hForwarded, if_pos hPresent, hParsed]
    exact ⟨_, rfl, rfl⟩
  | xRealIp hForwarded hFor hClient =>
    have hPresent : (!headers.xRealIp.isEmpty) = true := by
      rw [Bool.not_eq_true', List.isEmpty_eq_false_iff]
      intro hEmpty
      rw [hEmpty] at hClient
      exact hClient.nonempty rfl
    rw [hForwarded, hFor, if_pos hPresent, parseIpToken_eq_ok_iff.mpr hClient]
    exact ⟨_, rfl, rfl⟩
  | absent hForwarded hFor hReal =>
    rw [hForwarded, hFor, hReal]
    exact ⟨_, rfl, rfl⟩

/-! ## More in front -/

theorem intercalate_append {α : Type} {delimiter : α} {left right : List (List α)} (hLeft : left ≠ [])
    (hRight : right ≠ []) : [delimiter].intercalate (left ++ right) =
      [delimiter].intercalate left ++ delimiter :: [delimiter].intercalate right := by
  induction left with
  | nil => exact absurd rfl hLeft
  | cons piece left ih =>
    cases left with
    | nil =>
      rw [List.singleton_append, List.intercalate_cons_of_ne_nil hRight, List.intercalate_singleton,
        List.append_assoc, List.singleton_append]
    | cons next left =>
      rw [List.cons_append, List.cons_append, List.intercalate_cons_cons, List.intercalate_cons_cons,
        ← List.cons_append, ih (List.cons_ne_nil _ _)]
      simp only [List.append_assoc]

/-- Elements in front of a header, and a comma between. -/
theorem HeaderText.append {left right : List (List Parameter)} {leftText rightText : List Char}
    (hLeft : left ≠ []) (hRight : right ≠ []) (hLeftText : HeaderText text left leftText)
    (hRightText : HeaderText text right rightText) :
    HeaderText text (left ++ right) (leftText ++ ',' :: rightText) := by
  obtain ⟨leftPieces, hLeftPieces, rfl⟩ := hLeftText
  obtain ⟨rightPieces, hRightPieces, rfl⟩ := hRightText
  refine ⟨leftPieces ++ rightPieces, List.rel_append hLeftPieces hRightPieces, ?_⟩
  rw [intercalate_append]
  · rintro rfl
    cases hLeftPieces
    exact hLeft rfl
  · rintro rfl
    cases hRightPieces
    exact hRight rfl

theorem ForText.append {more : List Address} {left right : List Char} (hLeft : ForText text more left)
    (hRight : ForText text chain right) : ForText text (more ++ chain) (left ++ ',' :: right) := by
  obtain ⟨leftPieces, hLeftPieces, hLeftClients⟩ := hLeft.written
  obtain ⟨rightPieces, hRightPieces, hRightClients⟩ := hRight.written
  refine ⟨leftPieces ++ rightPieces, ⟨?_, ?_, ?_⟩, List.rel_append hLeftClients hRightClients⟩
  · exact List.append_ne_nil_of_left_ne_nil hLeftPieces.nonempty _
  · intro piece hPiece
    rcases List.mem_append.mp hPiece with hPiece | hPiece
    · exact hLeftPieces.closed piece hPiece
    · exact hRightPieces.closed piece hPiece
  · rw [intercalate_append hLeftPieces.nonempty hRightPieces.nonempty, ← hLeftPieces.text_eq,
      ← hRightPieces.text_eq]

end TrustedProxy

/-! ## The client address -/

namespace TrustedProxyResolver

open TrustedProxy

variable {text : AddressText} {resolver : TrustedProxyResolver} {peerIp : List Char} {peer : Address}
  {request : HttpRequest} {headers : ForwardingHeaders} {chain : List Address}

/-- Well-formed headers within the limits are accepted, and their chain is the one written in them. -/
theorem forwarding_wellFormed (h : WellFormed text headers chain) (hProto : ProtoText headers.xForwardedProto)
    (hLimits : WithinLimits resolver headers chain) :
    ∃ values, resolver.forwarding text headers = .ok values ∧ values.addresses = chain := by
  obtain ⟨values, hValues, hChain⟩ := parseChain_wellFormed h hLimits.hops
  obtain ⟨scheme, hScheme⟩ := parseForwardedProto_text hProto
  unfold forwarding
  rw [if_neg (Nat.not_lt.mpr hLimits.size), hValues]
  change ∃ values', (if values.scheme.isNone && !headers.xForwardedProto.isEmpty then
    parseForwardedProto headers.xForwardedProto >>= fun scheme => .ok ⟨values.addresses, scheme⟩
    else .ok values) = .ok values' ∧ _
  rw [hScheme]
  split
  · exact ⟨_, rfl, hChain⟩
  · exact ⟨_, rfl, hChain⟩

theorem chainOf_wellFormed (h : WellFormed text headers chain) (hHops : chain.length ≤ maximumForwardedHops) :
    chainOf text headers = chain := by
  obtain ⟨values, hValues, hChain⟩ := parseChain_wellFormed h hHops
  rw [← (parseChain_ok hValues).1, hChain]

theorem resolve_wellFormed (hPeer : text.makeAddress peerIp = some peer) (hTrusted : resolver.trusts peer = true)
    (hCarries : Carries request headers) (h : WellFormed text headers chain)
    (hProto : ProtoText headers.xForwardedProto) (hLimits : WithinLimits resolver headers chain)
    (directTls : Bool) : ∃ result, resolver.resolve text peerIp request directTls = .ok result ∧
      result.clientIp = text.toText (Hops.walk resolver.trusts peer chain.reverse) := by
  obtain ⟨values, hValues, hChain⟩ := forwarding_wellFormed h hProto hLimits
  rw [resolve_trusted hPeer hTrusted (readHeaders_eq_ok_iff.mpr hCarries), hValues]
  exact ⟨_, rfl, by rw [hChain]⟩

/-- The headers of an untrusted peer are ignored. A trusted peer's well-formed headers are accepted,
and the client is read off their chain from the right, as from the chain of any header that is
accepted. What stands left of an untrusted address in a chain does not matter. -/
theorem resolve_client (text : AddressText) (resolver : TrustedProxyResolver) (peerIp : List Char) :
    (resolver.isTrusted text peerIp = false → ∀ request directTls,
      resolver.resolve text peerIp request directTls =
        .ok ⟨(text.makeAddress peerIp).elim peerIp text.toText, directTls, false⟩) ∧
    ∀ peer, text.makeAddress peerIp = some peer → resolver.trusts peer = true →
      (∀ request headers chain directTls, Carries request headers → WellFormed text headers chain →
        ProtoText headers.xForwardedProto → WithinLimits resolver headers chain →
        chainOf text headers = chain ∧
        ∃ client result, resolver.resolve text peerIp request directTls = .ok result ∧
          Hops.Client resolver.trusts peer chain client ∧ result.clientIp = text.toText client) ∧
      (∀ request headers directTls result, Carries request headers →
        resolver.resolve text peerIp request directTls = .ok result →
        ∃ client, Hops.Client resolver.trusts peer (chainOf text headers) client ∧
          result.clientIp = text.toText client) ∧
      (∀ request request' headers headers' chain more directTls directTls',
        Carries request headers → Carries request' headers' →
        WellFormed text headers chain → WellFormed text headers' (more ++ chain) →
        ProtoText headers.xForwardedProto → ProtoText headers'.xForwardedProto →
        WithinLimits resolver headers chain → WithinLimits resolver headers' (more ++ chain) →
        (∃ a ∈ chain, resolver.trusts a = false) →
        ∃ result result', resolver.resolve text peerIp request directTls = .ok result ∧
          resolver.resolve text peerIp request' directTls' = .ok result' ∧
          result'.clientIp = result.clientIp) ∧
      ∀ request request' headers headers' more directTls directTls' result result',
        Carries request headers → Carries request' headers' →
        chainOf text headers' = more ++ chainOf text headers →
        (∃ a ∈ chainOf text headers, resolver.trusts a = false) →
        resolver.resolve text peerIp request directTls = .ok result →
        resolver.resolve text peerIp request' directTls' = .ok result' →
        result'.clientIp = result.clientIp := by
  refine ⟨fun hUntrusted => resolve_untrusted hUntrusted, ?_⟩
  intro peer hPeer hTrusted
  refine ⟨?_, ?_, ?_, ?_⟩
  · intro request headers chain directTls hCarries hHeaders hProto hLimits
    obtain ⟨result, hResult, hClientIp⟩ :=
      resolve_wellFormed hPeer hTrusted hCarries hHeaders hProto hLimits directTls
    refine ⟨chainOf_wellFormed hHeaders hLimits.hops, ?_⟩
    exact ⟨_, result, hResult, Hops.walk_client hTrusted chain, hClientIp⟩
  · intro request headers directTls result hCarries hResult
    have hClientIp := (resolve_ok hPeer hTrusted (readHeaders_eq_ok_iff.mpr hCarries) hResult).1
    exact ⟨_, Hops.walk_client hTrusted _, hClientIp⟩
  · intro request request' headers headers' chain more directTls directTls' hCarries hCarries' hHeaders
      hHeaders' hProto hProto' hLimits hLimits' hUntrusted
    obtain ⟨result, hResult, hClientIp⟩ :=
      resolve_wellFormed hPeer hTrusted hCarries hHeaders hProto hLimits directTls
    obtain ⟨result', hResult', hClientIp'⟩ :=
      resolve_wellFormed hPeer hTrusted hCarries' hHeaders' hProto' hLimits' directTls'
    refine ⟨result, result', hResult, hResult', ?_⟩
    rw [hClientIp, hClientIp', Hops.walk_prepend hUntrusted]
  · intro request request' headers headers' more directTls directTls' result result' hCarries hCarries'
      hMore hUntrusted hResult hResult'
    rw [(resolve_ok hPeer hTrusted (readHeaders_eq_ok_iff.mpr hCarries) hResult).1,
      (resolve_ok hPeer hTrusted (readHeaders_eq_ok_iff.mpr hCarries') hResult').1, hMore,
      Hops.walk_prepend hUntrusted]

/-! ## The three kinds, from a trusted proxy -/

theorem headerText_for {value : BitVec 32} (hToken : IsToken (text.toText (.v4 value))) :
    HeaderText text [[.client (.v4 value)]] ("for=".toList ++ text.toText (.v4 value)) := by
  have hNoBlanks : Blanks [] := fun _ hc => absurd hc List.not_mem_nil
  have hParameter := ParameterText.mk
    (.client (show lowercaseChars "for".toList = _ by decide) (.v4 value) (.token hToken))
    hNoBlanks hNoBlanks hNoBlanks hNoBlanks
  refine ⟨_, .cons ⟨_, .cons hParameter .nil, rfl⟩ .nil, ?_⟩
  rw [List.intercalate_singleton, List.intercalate_singleton]
  simp

theorem forText_singleton {value : List Char} {address : Address} (hToken : parseIpToken text value = .ok address)
    (hPlain : value.all (fun c => c != '"' && c != ',') = true) : ForText text [address] value := by
  refine ⟨[value], .singleton (.of_forall ?_), .cons (parseIpToken_eq_ok_iff.mp hToken) .nil⟩
  intro c hc
  simpa [headerMarks] using List.all_eq_true.mp hPlain c hc

open SecureCore.Sample

theorem rendered_dottedQuads {value : BitVec 32}
    (hRead : dottedQuads.makeAddress (dottedQuads.toText (.v4 value)) = some (.v4 value))
    (hText : (dottedQuads.toText (.v4 value)).all (fun c => c.isDigit || c == '.') = true) :
    Rendered dottedQuads (.v4 value) := by
  refine ⟨hRead, List.mem_append_right _ List.mem_cons_self, ?_⟩
  intro c hc
  simpa using List.all_eq_true.mp hText c hc

theorem resolve_client_sample :
    proxies.resolve dottedQuads "8.8.8.8".toList (forwardedRequest "for=9.9.9.9".toList) true =
      .ok ⟨"8.8.8.8".toList, true, false⟩ ∧
    (∃ result, proxies.resolve dottedQuads proxyPeer (forwardedRequest "for=9.9.9.9,for=5.6.7.8".toList) false =
      .ok result ∧ result.clientIp = "5.6.7.8".toList) ∧
    (∃ result, proxies.resolve dottedQuads proxyPeer [⟨"X-Forwarded-For", "9.9.9.9,5.6.7.8, 10.0.0.2".toList⟩]
      false = .ok result ∧ result.clientIp = "5.6.7.8".toList) ∧
    ∃ result, proxies.resolve dottedQuads proxyPeer [⟨"X-Real-IP", " 5.6.7.8".toList⟩] false = .ok result ∧
      result.clientIp = "5.6.7.8".toList := by
  have hFirst := (resolve_client dottedQuads proxies "8.8.8.8".toList).1 (by decide +kernel)
    (forwardedRequest "for=9.9.9.9".toList) true
  obtain ⟨hAccepted, -, hPrepended, -⟩ := (resolve_client dottedQuads proxies proxyPeer).2 (.v4 0x0a000001#32)
    (by decide +kernel) (by decide +kernel)
  refine ⟨hFirst, ?_, ?_, ?_⟩
  · have hLast : HeaderText dottedQuads [[.client (.v4 0x05060708#32)]] "for=5.6.7.8".toList :=
      headerText_for (isToken_of_all (by decide) (by decide))
    have hMore : HeaderText dottedQuads [[.client (.v4 0x09090909#32)]] "for=9.9.9.9".toList :=
      headerText_for (isToken_of_all (by decide) (by decide))
    have hBoth := hMore.append (by decide) (by decide) hLast
    have hLastAddress : ∀ address ∈ [Address.v4 0x05060708#32], Rendered dottedQuads address ∧
        address.isUnspecified = false ∧ address.isMulticast = false :=
      List.forall_mem_singleton.mpr ⟨rendered_dottedQuads (by rfl) (by decide), by decide, by decide⟩
    have hAddress : ∀ address ∈ [Address.v4 0x09090909#32, .v4 0x05060708#32], Rendered dottedQuads address ∧
        address.isUnspecified = false ∧ address.isMulticast = false :=
      List.forall_mem_cons.mpr
        ⟨⟨rendered_dottedQuads (by rfl) (by decide), by decide, by decide⟩, hLastAddress⟩
    obtain ⟨result, result', hResult, hResult', hSame⟩ := hPrepended
      (forwardedRequest "for=5.6.7.8".toList) (forwardedRequest "for=9.9.9.9,for=5.6.7.8".toList)
      ⟨"for=5.6.7.8".toList, [], [], []⟩ ⟨"for=9.9.9.9,for=5.6.7.8".toList, [], [], []⟩ [.v4 0x05060708#32]
      [.v4 0x09090909#32] false false (readHeaders_eq_ok_iff.mp (by rfl)) (readHeaders_eq_ok_iff.mp (by rfl))
      (.forwarded (by decide) (.cons rfl .nil) hLastAddress hLast)
      (.forwarded (by decide) (.cons rfl (.cons rfl .nil)) hAddress hBoth) (.inl rfl) (.inl rfl)
      ⟨by decide, by decide⟩ ⟨by decide, by decide⟩ ⟨_, List.mem_cons_self, by decide⟩
    refine ⟨result', hResult', hSame.trans ?_⟩
    cases (show proxies.resolve dottedQuads proxyPeer (forwardedRequest "for=5.6.7.8".toList) false =
      .ok ⟨"5.6.7.8".toList, false, true⟩ by rfl).symm.trans hResult
    rfl
  · have hClient : ForText dottedQuads [.v4 0x05060708#32] "5.6.7.8".toList :=
      forText_singleton (by rfl) (by decide)
    have hProxy : ForText dottedQuads [.v4 0x0a000002#32] " 10.0.0.2".toList :=
      forText_singleton (by rfl) (by decide)
    have hMore : ForText dottedQuads [.v4 0x09090909#32] "9.9.9.9".toList :=
      forText_singleton (by rfl) (by decide)
    have hLast := hClient.append hProxy
    obtain ⟨result, result', hResult, hResult', hSame⟩ := hPrepended
      [⟨"X-Forwarded-For", "5.6.7.8, 10.0.0.2".toList⟩] [⟨"X-Forwarded-For", "9.9.9.9,5.6.7.8, 10.0.0.2".toList⟩]
      ⟨[], "5.6.7.8, 10.0.0.2".toList, [], []⟩ ⟨[], "9.9.9.9,5.6.7.8, 10.0.0.2".toList, [], []⟩
      [.v4 0x05060708#32, .v4 0x0a000002#32] [.v4 0x09090909#32] false false
      (readHeaders_eq_ok_iff.mp (by rfl)) (readHeaders_eq_ok_iff.mp (by rfl))
      (.xForwardedFor rfl hLast) (.xForwardedFor rfl (hMore.append hLast)) (.inl rfl) (.inl rfl)
      ⟨by decide, by decide⟩ ⟨by decide, by decide⟩ ⟨_, List.mem_cons_self, by decide⟩
    refine ⟨result', hResult', hSame.trans ?_⟩
    cases (show proxies.resolve dottedQuads proxyPeer [⟨"X-Forwarded-For", "5.6.7.8, 10.0.0.2".toList⟩] false =
      .ok ⟨"5.6.7.8".toList, false, true⟩ by rfl).symm.trans hResult
    rfl
  · have hClient : IsClient dottedQuads (trimChars " 5.6.7.8".toList) (.v4 0x05060708#32) :=
      parseIpToken_eq_ok_iff.mp (by rfl)
    obtain ⟨-, client, result, hResult, hWalk, hClientIp⟩ := hAccepted [⟨"X-Real-IP", " 5.6.7.8".toList⟩]
      ⟨[], [], " 5.6.7.8".toList, []⟩ [.v4 0x05060708#32] false (readHeaders_eq_ok_iff.mp (by rfl))
      (.xRealIp rfl rfl hClient) (.inl rfl) ⟨by decide, by decide⟩
    refine ⟨result, hResult, hClientIp.trans ?_⟩
    have hOnly : client = .v4 0x05060708#32 := by
      generalize hChain : [Address.v4 0x05060708#32] = chain at hWalk
      cases hWalk with
      | untrusted _ _ =>
        have hMem : client ∈ [Address.v4 0x05060708#32] :=
          hChain ▸ List.mem_append_right _ List.mem_cons_self
        exact List.mem_singleton.mp hMem
      | leftmost _ => exact (List.cons.inj hChain).1.symm
      | peer => cases hChain
    rw [hOnly]
    rfl

end TrustedProxyResolver

end SecureCore

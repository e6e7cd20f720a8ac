import SecureCore.Hops.Walk
import SecureCore.Model.Records
import SecureCore.Model.Text
import SecureCore.Net.Network

/-! # TrustedProxyResolver

Header texts are lists of bytes here, since the parsers read them byte by byte. -/

namespace SecureCore

set_option autoImplicit false

structure ProxyHeaderError where
  code : String
  message : String
  deriving DecidableEq, Repr

abbrev ProxyHeader (α : Type) := Except ProxyHeaderError α

structure HttpField where
  name : String
  value : List Char
  deriving DecidableEq, Repr

abbrev HttpRequest := List HttpField

namespace TrustedProxy

def invalidForwardedHeader (message : String) : ProxyHeaderError :=
  ⟨"invalid_forwarded_header", message⟩

def maximumForwardedHops : Nat := 64

def hasControlCharacter (value : List Char) : Bool :=
  value.any (fun c => c.toNat < 0x20 || c.toNat == 0x7f)

/-! ## Quoted text -/

def unterminatedQuote : ProxyHeaderError :=
  invalidForwardedHeader "The proxy forwarding header contains an unterminated quoted value."

/-- The loop of split_top_level; `part` is what stands between `start` and the next
character. -/
def splitFrom (delimiter : Char) (quoted escaped : Bool) (part : List Char) :
    List Char → ProxyHeader (List (List Char))
  | [] => if quoted || escaped then .error unterminatedQuote else .ok [trimChars part]
  | c :: rest =>
    if escaped then splitFrom delimiter quoted false (part ++ [c]) rest
    else if quoted && c == '\\' then splitFrom delimiter quoted true (part ++ [c]) rest
    else if c == '"' then splitFrom delimiter (!quoted) false (part ++ [c]) rest
    else if !quoted && c == delimiter then do
      let parts ← splitFrom delimiter quoted false [] rest
      .ok (trimChars part :: parts)
    else splitFrom delimiter quoted false (part ++ [c]) rest

def splitTopLevel (value : List Char) (delimiter : Char) : ProxyHeader (List (List Char)) :=
  splitFrom delimiter false false [] value

/-- The loop of unquote over the characters between the quotes. -/
def unescape (escaped : Bool) : List Char → ProxyHeader (List Char)
  | [] =>
    if escaped then .error (invalidForwardedHeader
      "The proxy forwarding header contains an incomplete escape sequence.")
    else .ok []
  | c :: rest =>
    if escaped then
      if c != '\\' && c != '"' then .error (invalidForwardedHeader
        "The proxy forwarding header contains an invalid escape sequence.")
      else do
        let result ← unescape false rest
        .ok (c :: result)
    else if c == '\\' then unescape true rest
    else if c == '"' then .error (invalidForwardedHeader
      "The proxy forwarding header contains an unescaped quote.")
    else do
      let result ← unescape false rest
      .ok (c :: result)

def unquote (value : List Char) : ProxyHeader (List Char) :=
  if value.head? != some '"' then .ok value
  else if value.length < 2 || value.getLast? != some '"' then .error (invalidForwardedHeader
    "The proxy forwarding header contains an invalid quoted value.")
  else unescape false value.tail.dropLast

/-! ## Addresses -/

def validPort (port : List Char) : Bool := !port.isEmpty && port.all Char.isDigit

def invalidPort : ProxyHeaderError :=
  invalidForwardedHeader "The forwarded address contains an invalid port."

/-- The address without brackets and port. -/
def addressText (rawValue : List Char) : ProxyHeader (List Char) :=
  if rawValue.head? == some '[' then
    match rawValue.tail.dropWhile (fun c => c != ']') with
    | [] => .error (invalidForwardedHeader
        "The forwarded IPv6 address is missing a closing bracket.")
    | _ :: suffix =>
      let address := rawValue.tail.takeWhile (fun c => c != ']')
      match suffix with
      | [] => .ok address
      | c :: port =>
        if c != ':' then .error (invalidForwardedHeader
          "The forwarded IPv6 address has an invalid suffix.")
        else if validPort port then .ok address
        else .error invalidPort
  else if rawValue.count ':' == 1 && rawValue.contains '.' then
    if validPort ((rawValue.dropWhile (fun c => c != ':')).drop 1) then
      .ok (rawValue.takeWhile (fun c => c != ':'))
    else .error invalidPort
  else .ok rawValue

def parseIpToken (text : AddressText) (rawValue : List Char) : ProxyHeader Address := do
  let rawValue ← unquote (trimChars rawValue)
  if rawValue.isEmpty || hasControlCharacter rawValue then
    .error (invalidForwardedHeader "The proxy forwarding header contains an invalid client address.")
  else if lowercaseChars rawValue == "unknown".toList || rawValue.head? == some '_' then
    .error (invalidForwardedHeader
      "Obfuscated or unknown forwarded client identifiers are not accepted.")
  else
    let host ← addressText rawValue
    let invalid := invalidForwardedHeader
      "The proxy forwarding header contains an invalid client IP address."
    match text.makeAddress host with
    | none => .error invalid
    | some address => if address.isUnspecified || address.isMulticast then .error invalid else .ok address

/-! ## Headers -/

/-- beast::iequals. -/
def iequals (a b : String) : Bool := lowercaseCopy a == lowercaseCopy b

/-- The loop of header_value. -/
def headerValueFrom (name : String) (result : Option (List Char)) :
    HttpRequest → ProxyHeader (List Char)
  | [] => .ok (result.getD [])
  | field :: fields =>
    if !iequals field.name name then headerValueFrom name result fields
    else match result with
      | some _ => .error (invalidForwardedHeader
          "Duplicate proxy forwarding headers are not accepted.")
      | none => headerValueFrom name (some field.value) fields

def headerValue (request : HttpRequest) (name : String) : ProxyHeader (List Char) :=
  headerValueFrom name none request

structure ForwardedValues where
  addresses : List Address
  scheme : Option (List Char)
  deriving DecidableEq, Repr

namespace ForwardedValues

def empty : ForwardedValues := ⟨[], none⟩

end ForwardedValues

def validScheme (scheme : List Char) : Bool := scheme == "http".toList || scheme == "https".toList

def tooManyHops : ProxyHeaderError :=
  invalidForwardedHeader "The proxy forwarding chain contains too many hops."

/-- One parameter of an element, with found_for before and after it. -/
def parseParameter (text : AddressText) (state : ForwardedValues × Bool) (parameter : List Char) :
    ProxyHeader (ForwardedValues × Bool) :=
  let (values, foundFor) := state
  let name := parameter.takeWhile (fun c => c != '=')
  let value := (parameter.dropWhile (fun c => c != '=')).drop 1
  if parameter.isEmpty then
    .error (invalidForwardedHeader "The Forwarded header contains an empty parameter.")
  else if !parameter.contains '=' || name.isEmpty || value.isEmpty then
    .error (invalidForwardedHeader "The Forwarded header contains an invalid parameter.")
  else
    let name := lowercaseChars (trimChars name)
    let value := trimChars value
    if name == "for".toList then
      if foundFor then .error (invalidForwardedHeader
        "A Forwarded element contains more than one for parameter.")
      else do
        let address ← parseIpToken text value
        .ok (⟨values.addresses ++ [address], values.scheme⟩, true)
    else if name == "proto".toList && values.scheme.isNone then do
      let value ← unquote value
      let scheme := lowercaseChars value
      if validScheme scheme then .ok (⟨values.addresses, some scheme⟩, foundFor)
      else .error (invalidForwardedHeader "The Forwarded proto parameter must be http or https.")
    else .ok (values, foundFor)

def parseElement (text : AddressText) (values : ForwardedValues) (element : List Char) :
    ProxyHeader ForwardedValues :=
  if element.isEmpty then
    .error (invalidForwardedHeader "The Forwarded header contains an empty element.")
  else do
    let parameters ← splitTopLevel element ';'
    let (values, foundFor) ← parameters.foldlM (parseParameter text) (values, false)
    if !foundFor then
      .error (invalidForwardedHeader "Every Forwarded element must include a for parameter.")
    else if maximumForwardedHops < values.addresses.length then .error tooManyHops
    else .ok values

def parseForwardedHeader (text : AddressText) (value : List Char) : ProxyHeader ForwardedValues := do
  let elements ← splitTopLevel value ','
  elements.foldlM (parseElement text) .empty

def parseForPart (text : AddressText) (addresses : List Address) (part : List Char) :
    ProxyHeader (List Address) :=
  if part.isEmpty then
    .error (invalidForwardedHeader "X-Forwarded-For contains an empty address.")
  else do
    let address ← parseIpToken text part
    if maximumForwardedHops < addresses.length + 1 then .error tooManyHops
    else .ok (addresses ++ [address])

def parseXForwardedFor (text : AddressText) (value : List Char) : ProxyHeader (List Address) := do
  let parts ← splitTopLevel value ','
  parts.foldlM (parseForPart text) []

/-- The first entry of the list is taken. -/
def parseForwardedProto (value : List Char) : ProxyHeader (Option (List Char)) :=
  if value.isEmpty then .ok none
  else do
    let parts ← splitTopLevel value ','
    let front := parts.headD []
    if front.isEmpty then .error (invalidForwardedHeader "X-Forwarded-Proto is empty.")
    else if validScheme (lowercaseChars front) then .ok (some (lowercaseChars front))
    else .error (invalidForwardedHeader "X-Forwarded-Proto must be http or https.")

structure ForwardingHeaders where
  forwarded : List Char
  xForwardedFor : List Char
  xRealIp : List Char
  xForwardedProto : List Char
  deriving DecidableEq, Repr

def readHeaders (request : HttpRequest) : ProxyHeader ForwardingHeaders := do
  let forwarded ← headerValue request "Forwarded"
  let xForwardedFor ← headerValue request "X-Forwarded-For"
  let xRealIp ← headerValue request "X-Real-IP"
  let xForwardedProto ← headerValue request "X-Forwarded-Proto"
  .ok ⟨forwarded, xForwardedFor, xRealIp, xForwardedProto⟩

/-- The chain and the scheme that the first present header of three gives. -/
def parseChain (text : AddressText) (headers : ForwardingHeaders) : ProxyHeader ForwardedValues :=
  if !headers.forwarded.isEmpty then parseForwardedHeader text headers.forwarded
  else if !headers.xForwardedFor.isEmpty then do
    let chain ← parseXForwardedFor text headers.xForwardedFor
    .ok ⟨chain, none⟩
  else if !headers.xRealIp.isEmpty then do
    let address ← parseIpToken text headers.xRealIp
    .ok ⟨[address], none⟩
  else .ok .empty

end TrustedProxy

open TrustedProxy

structure ResolvedClient where
  clientIp : List Char
  secureTransport : Bool
  usedForwardedHeaders : Bool
  deriving DecidableEq, Repr

structure TrustedProxyResolver where
  trustedNetworks : List Network
  forwardedHeaderMaxBytes : Nat
  positive : 0 < forwardedHeaderMaxBytes

namespace TrustedProxyResolver

variable (text : AddressText)

/-! ## The constructor -/

def decimalValue (digits : List Char) : Nat :=
  digits.foldl (fun value digit => 10 * value + (digit.toNat - '0'.toNat)) 0

def invalidPrefix (cidr : List Char) : Exception :=
  .invalidArgument ("Invalid trusted proxy CIDR prefix: " ++ String.ofList cidr)

/-- `std::stoul` fails only on numbers that are too large anyway. -/
def parseNetwork (cidr : List Char) : Except Exception Network :=
  let cidr := trimChars cidr
  if cidr.isEmpty then .error (.invalidArgument "Trusted proxy CIDR must not be empty")
  else match text.makeAddress (cidr.takeWhile (fun c => c != '/')) with
    | none => .error (.invalidArgument ("Invalid trusted proxy CIDR: " ++ String.ofList cidr))
    | some address =>
      if cidr.contains '/' then
        let prefixText := (cidr.dropWhile (fun c => c != '/')).drop 1
        if prefixText.isEmpty || !prefixText.all Char.isDigit then .error (invalidPrefix cidr)
        else if hParsed : decimalValue prefixText ≤ address.width then
          .ok ⟨address, decimalValue prefixText, hParsed⟩
        else .error (invalidPrefix cidr)
      else .ok ⟨address, address.width, Nat.le_refl _⟩

def make (trustedCidrs : List (List Char)) (forwardedHeaderMaxBytes : Nat) :
    Except Exception TrustedProxyResolver :=
  if hPositive : 0 < forwardedHeaderMaxBytes then do
    let trustedNetworks ← trustedCidrs.mapM (parseNetwork text)
    .ok ⟨trustedNetworks, forwardedHeaderMaxBytes, hPositive⟩
  else .error (.invalidArgument "Forwarded header byte limit must be positive")

/-! ## resolve -/

variable (resolver : TrustedProxyResolver)

def trusts (address : Address) : Bool :=
  resolver.trustedNetworks.any (fun network => network.contains address)

def isTrusted (address : List Char) : Bool :=
  match text.makeAddress address with
  | none => false
  | some address => resolver.trusts address

/-- resolve up to the walk: the size limit, the chain and the scheme. -/
def forwarding (headers : ForwardingHeaders) : ProxyHeader ForwardedValues :=
  if resolver.forwardedHeaderMaxBytes < headers.forwarded.length + headers.xForwardedFor.length +
      headers.xRealIp.length + headers.xForwardedProto.length then
    .error ⟨"forwarded_header_too_large",
      "Proxy forwarding headers exceed the configured size limit."⟩
  else do
    let values ← parseChain text headers
    if values.scheme.isNone && !headers.xForwardedProto.isEmpty then do
      let scheme ← parseForwardedProto headers.xForwardedProto
      .ok ⟨values.addresses, scheme⟩
    else .ok values

def secureTransport (scheme : Option (List Char)) (directTls : Bool) : Bool :=
  match scheme with
  | some scheme => scheme == "https".toList
  | none => directTls

def resolve (peerIp : List Char) (request : HttpRequest) (directTls : Bool) :
    ProxyHeader ResolvedClient :=
  match text.makeAddress peerIp with
  | none => .ok ⟨peerIp, directTls, false⟩
  | some peerAddress =>
    if !resolver.isTrusted text peerIp then .ok ⟨text.toText peerAddress, directTls, false⟩
    else do
      let headers ← readHeaders request
      let ⟨chain, scheme⟩ ← resolver.forwarding text headers
      let secure := secureTransport scheme directTls
      if chain.isEmpty then .ok ⟨text.toText peerAddress, secure, scheme.isSome⟩
      else .ok ⟨text.toText (Hops.walk resolver.trusts peerAddress chain.reverse), secure, true⟩

end TrustedProxyResolver

end SecureCore

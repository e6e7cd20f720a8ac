import Mathlib.Data.Nat.Notation

/-! # Addresses and networks -/

namespace SecureCore

set_option autoImplicit false

/-- boost::asio::ip::address. -/
inductive Address where
  | v4 (value : BitVec 32)
  | v6 (bytes : Vector (BitVec 8) 16) (scopeId : BitVec 32)
  deriving DecidableEq, Repr

namespace Address

def isUnspecified : Address → Bool
  | v4 value => value == 0
  | v6 bytes _ => bytes.toList.all (fun byte => byte == 0)

def isMulticast : Address → Bool
  | v4 value => value &&& 0xf0000000#32 == 0xe0000000#32
  | v6 bytes _ => bytes.get 0 == 0xff#8

/-- The number of its bits. -/
def width : Address → Nat
  | v4 _ => 32
  | v6 _ _ => 128

end Address

/-- The text functions of boost::asio::ip: make_address, none on an error, and to_string. -/
structure AddressText where
  makeAddress : List Char → Option Address
  toText : Address → List Char

structure Network where
  address : Address
  prefixLength : Nat
  bounded : prefixLength ≤ address.width

namespace Network

/-- The loop over the bytes of two IPv6 addresses. -/
def samePrefix : Nat → List (BitVec 8 × BitVec 8) → Bool
  | _, [] => true
  | remaining, (networkByte, addressByte) :: rest =>
    if remaining = 0 then true
    else
      let bits := min remaining 8
      let mask : BitVec 8 := (0xff#32 <<< (8 - bits)).setWidth 8
      if networkByte &&& mask != addressByte &&& mask then false
      else samePrefix (remaining - bits) rest

def contains (network : Network) (address : Address) : Bool :=
  match network.address, address with
  | .v4 networkValue, .v4 addressValue =>
    if network.prefixLength = 0 then true
    else
      let mask : BitVec 32 := if network.prefixLength = 32 then 0xffffffff#32
        else 0xffffffff#32 <<< (32 - network.prefixLength)
      networkValue &&& mask == addressValue &&& mask
  | .v6 networkBytes _, .v6 addressBytes _ =>
    samePrefix network.prefixLength (networkBytes.toList.zip addressBytes.toList)
  | _, _ => false

end Network

end SecureCore

import SecureCore.Net.Network
import SecureCore.Words.Prefix

/-! # Prefixes of addresses

A network contains the addresses of its family that begin with its prefix. -/

namespace SecureCore

set_option autoImplicit false

open Words

namespace Address

def isV4 : Address → Bool
  | v4 _ => true
  | v6 _ _ => false

/-- The bits of an address in the order of the network. -/
def bits : Address → List Bool
  | v4 value => Words.bits value
  | v6 bytes _ => bytes.toList.flatMap Words.bits

end Address

namespace Network

/-! ## Masks -/

/-- The mask of one byte, computed as an unsigned int and cut off. -/
theorem byteMask_eq (amount : Nat) : (0xff#32 <<< amount).setWidth 8 = BitVec.allOnes 8 <<< amount := by
  apply BitVec.eq_of_getLsbD_eq
  intro i hi
  rw [BitVec.getLsbD_setWidth, BitVec.getLsbD_shiftLeft, BitVec.getLsbD_shiftLeft,
    show 0xff#32 = (BitVec.allOnes 8).setWidth 32 by decide, BitVec.getLsbD_setWidth,
    decide_eq_true hi, decide_eq_true (show i < 32 by omega),
    decide_eq_true (show i - amount < 32 by omega)]
  simp only [Bool.true_and]

theorem samePrefix_iff (remaining : Nat) (pairs : List (BitVec 8 × BitVec 8)) :
    samePrefix remaining pairs = true ↔
      ((pairs.map Prod.fst).flatMap Words.bits).take remaining =
        ((pairs.map Prod.snd).flatMap Words.bits).take remaining := by
  induction pairs generalizing remaining with
  | nil => exact iff_of_true rfl rfl
  | cons pair pairs ih =>
    obtain ⟨networkByte, addressByte⟩ := pair
    unfold samePrefix
    split
    · rename_i hNone
      rw [hNone, List.take_zero, List.take_zero]
      exact iff_of_true rfl rfl
    · have hMask : (0xff#32 <<< (8 - min remaining 8)).setWidth 8 = mask 8 (min remaining 8) :=
        byteMask_eq _
      rw [List.map_cons, List.map_cons, take_flatMap_bits_cons, ← ih,
        ← and_mask_eq_iff (Nat.min_le_right remaining 8)]
      simp only [hMask]
      split
      · rename_i hDiffers
        rw [bne_iff_ne] at hDiffers
        exact iff_of_false Bool.false_ne_true (fun h => hDiffers h.1)
      · rename_i hSame
        rw [bne_iff_ne, not_not] at hSame
        exact ⟨fun h => ⟨hSame, h⟩, And.right⟩

/-- The mask of an IPv4 prefix; the shift by the whole width is not taken. -/
theorem v4Mask_eq (prefixLength : Nat) :
    (if prefixLength = 32 then 0xffffffff#32 else 0xffffffff#32 <<< (32 - prefixLength)) =
      mask 32 prefixLength := by
  split
  · rename_i hFull
    rw [hFull]
    rfl
  · rfl

theorem contains_iff (network : Network) (address : Address) :
    network.contains address = true ↔ network.address.isV4 = address.isV4 ∧
      network.address.bits.take network.prefixLength = address.bits.take network.prefixLength := by
  obtain ⟨networkAddress, prefixLength, hBounded⟩ := network
  unfold contains
  cases networkAddress with
  | v4 networkValue =>
    cases address with
    | v4 addressValue =>
      simp only [v4Mask_eq]
      split
      · rename_i hNone
        rw [hNone, List.take_zero, List.take_zero]
        exact iff_of_true rfl ⟨rfl, rfl⟩
      · rw [beq_iff_eq, and_mask_eq_iff (show prefixLength ≤ 32 from hBounded)]
        exact ⟨fun h => ⟨rfl, h⟩, And.right⟩
    | v6 addressBytes addressScope => exact iff_of_false Bool.false_ne_true (fun h => nomatch h.1)
  | v6 networkBytes networkScope =>
    cases address with
    | v4 addressValue => exact iff_of_false Bool.false_ne_true (fun h => nomatch h.1)
    | v6 addressBytes addressScope =>
      simp only
      rw [samePrefix_iff, List.map_fst_zip (by simp), List.map_snd_zip (by simp)]
      exact ⟨fun h => ⟨rfl, h⟩, And.right⟩

/-! ## Shifts -/

/-- A left shift that is only defined below the given width. -/
def shiftWithin {w : Nat} (width : Nat) (value : BitVec w) (amount : Int) : Option (BitVec w) :=
  if 0 ≤ amount ∧ amount < width then some (value <<< amount.toNat) else none

/-- The loop of contains with partial shifts. -/
def samePrefixWithin : Nat → List (BitVec 8 × BitVec 8) → Option Bool
  | _, [] => some true
  | remaining, (networkByte, addressByte) :: rest =>
    if remaining = 0 then some true
    else do
      let bits := min remaining 8
      let shifted ← shiftWithin 8 0xff#32 (8 - bits)
      let mask := shifted.setWidth 8
      if networkByte &&& mask != addressByte &&& mask then some false
      else samePrefixWithin (remaining - bits) rest

/-- contains with partial shifts: below 32 for a word and below 8 for a byte. -/
def containsWithin (network : Network) (address : Address) : Option Bool :=
  match network.address, address with
  | .v4 networkValue, .v4 addressValue =>
    if network.prefixLength = 0 then some true
    else do
      let mask : BitVec 32 ← if network.prefixLength = 32 then some 0xffffffff#32
        else shiftWithin 32 0xffffffff#32 (32 - network.prefixLength)
      some (networkValue &&& mask == addressValue &&& mask)
  | .v6 networkBytes _, .v6 addressBytes _ =>
    samePrefixWithin network.prefixLength (networkBytes.toList.zip addressBytes.toList)
  | _, _ => some false

theorem shiftWithin_sub {w width n : Nat} (value : BitVec w) (hPositive : 0 < n) (hBounded : n ≤ width) :
    shiftWithin width value (width - n) = some (value <<< (width - n)) := by
  have hAmount : ((width : Int) - n).toNat = width - n := by omega
  unfold shiftWithin
  rw [if_pos (by omega), hAmount]

theorem samePrefixWithin_eq (remaining : Nat) (pairs : List (BitVec 8 × BitVec 8)) :
    samePrefixWithin remaining pairs = some (samePrefix remaining pairs) := by
  induction pairs generalizing remaining with
  | nil => rfl
  | cons pair pairs ih =>
    obtain ⟨networkByte, addressByte⟩ := pair
    unfold samePrefixWithin samePrefix
    split
    · rfl
    · rename_i hSome
      have hShift : shiftWithin 8 0xff#32 (8 - (min remaining 8 : Nat)) =
          some (0xff#32 <<< (8 - min remaining 8)) :=
        shiftWithin_sub 0xff#32 (by omega) (Nat.min_le_right remaining 8)
      simp only [hShift, Option.bind_eq_bind, Option.bind_some, ih]
      split <;> rfl

theorem containsWithin_eq (network : Network) (address : Address) :
    network.containsWithin address = some (network.contains address) := by
  obtain ⟨networkAddress, prefixLength, hBounded⟩ := network
  unfold containsWithin contains
  cases networkAddress with
  | v4 networkValue =>
    cases address with
    | v4 addressValue =>
      simp only
      split
      · rfl
      · rename_i hSome
        split
        · rfl
        · have hShift : shiftWithin 32 0xffffffff#32 (32 - (prefixLength : Int)) =
              some (0xffffffff#32 <<< (32 - prefixLength)) :=
            shiftWithin_sub 0xffffffff#32 (Nat.pos_of_ne_zero hSome) hBounded
          rw [hShift]
          rfl
    | v6 addressBytes addressScope => rfl
  | v6 networkBytes networkScope =>
    cases address with
    | v4 addressValue => rfl
    | v6 addressBytes addressScope => exact samePrefixWithin_eq _ _

/-- Containment is equality of the first bits, computed without a shift that is out of
range. -/
theorem contains_prefix (network : Network) (address : Address) :
    (network.contains address = true ↔ network.address.isV4 = address.isV4 ∧
      network.address.bits.take network.prefixLength = address.bits.take network.prefixLength) ∧
    network.containsWithin address = some (network.contains address) :=
  ⟨contains_iff network address, containsWithin_eq network address⟩

end Network

end SecureCore

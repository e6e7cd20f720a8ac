import SecureCore.Coding.Pieces
import SecureCore.Http.Router

/-! # Percent-encoding

decode_component reads every coding in which the percent sign is escaped, and what it
reads is one. -/

namespace SecureCore

set_option autoImplicit false

open Coding

/-- The ways to write one byte: as it stands unless it is reserved, as an escape with
digits of either case, a blank as a plus. -/
inductive Escapes (reserved : List Char) (plusAsSpace : Bool) : Char → List Char → Prop
  | plain {c : Char} (hPlain : c ∉ reserved) : Escapes reserved plusAsSpace c [c]
  | plus (hPlus : plusAsSpace = true) : Escapes reserved plusAsSpace ' ' ['+']
  | escaped {high low : Char} (hHigh : isHexDigit high = true) (hLow : isHexDigit low = true) :
      Escapes reserved plusAsSpace (Char.ofNat (hexValue high <<< 4 ||| hexValue low)) ['%', high, low]

/-- The escaped forms of a component, with nothing reserved but what decoding needs. -/
def escapes (plusAsSpace : Bool) : Char → List Char → Prop :=
  Escapes (if plusAsSpace then ['%', '+'] else ['%']) plusAsSpace

variable {reserved : List Char} {plusAsSpace : Bool} {value text : List Char}

theorem Escapes.ne_nil {c : Char} {piece : List Char} (h : Escapes reserved plusAsSpace c piece) :
    piece ≠ [] := by
  cases h <;> exact List.cons_ne_nil _ _

/-- A reserved byte that no escape needs does not occur. -/
theorem Escapes.not_mem {c delimiter : Char} {piece : List Char}
    (h : Escapes reserved plusAsSpace c piece) (hReserved : delimiter ∈ reserved)
    (hDigit : isHexDigit delimiter = false) (hPercent : delimiter ≠ '%') (hPlus : delimiter ≠ '+') :
    delimiter ∉ piece := by
  intro hMem
  cases h with
  | plain hPlain =>
    rw [List.mem_singleton] at hMem
    exact hPlain (hMem ▸ hReserved)
  | plus _ => exact hPlus (List.mem_singleton.mp hMem)
  | escaped hHigh hLow =>
    simp only [List.mem_cons, List.not_mem_nil, or_false] at hMem
    rcases hMem with rfl | rfl | rfl
    · exact hPercent rfl
    · rw [hHigh] at hDigit
      cases hDigit
    · rw [hLow] at hDigit
      cases hDigit

theorem encodes_not_mem {delimiter : Char} (hReserved : delimiter ∈ reserved)
    (hDigit : isHexDigit delimiter = false) (hPercent : delimiter ≠ '%') (hPlus : delimiter ≠ '+')
    (h : Encodes (Escapes reserved plusAsSpace) value text) : delimiter ∉ text := by
  have hOther : ∀ c ∈ text, c ≠ delimiter := h.forall_mem (fun _ _ hPiece _ hc hSame =>
    hPiece.not_mem hReserved hDigit hPercent hPlus (hSame ▸ hc))
  exact fun hMem => hOther delimiter hMem rfl

theorem decodeComponent_cons_of_ne {c : Char} (h : c ≠ '%') (rest : List Char) :
    decodeComponent (c :: rest) plusAsSpace = (decodeComponent rest plusAsSpace).map
      (fun result => (if plusAsSpace && c == '+' then ' ' else c) :: result) := by
  conv_lhs => unfold decodeComponent
  exact if_neg (by simpa using h)

theorem decodeComponent_escape (high low : Char) (rest : List Char) :
    decodeComponent ('%' :: high :: low :: rest) plusAsSpace =
      if !isHexDigit high || !isHexDigit low then none
      else (decodeComponent rest plusAsSpace).map
        (fun result => Char.ofNat (hexValue high <<< 4 ||| hexValue low) :: result) := by
  conv_lhs => unfold decodeComponent
  exact if_pos (beq_self_eq_true '%')

theorem decodeComponent_piece {c : Char} {piece : List Char}
    (hPercent : '%' ∈ reserved) (hPlus : plusAsSpace = true → '+' ∈ reserved) (rest : List Char)
    (h : Escapes reserved plusAsSpace c piece) :
    decodeComponent (piece ++ rest) plusAsSpace =
      (fun value => c :: value) <$> decodeComponent rest plusAsSpace := by
  cases h with
  | plain hPlain =>
    have hNotPercent : c ≠ '%' := fun hc => hPlain (hc ▸ hPercent)
    rw [List.singleton_append, decodeComponent_cons_of_ne hNotPercent, if_neg]
    · rfl
    · rw [Bool.and_eq_true, beq_iff_eq]
      rintro ⟨hSpace, hc⟩
      exact hPlain (hc ▸ hPlus hSpace)
  | plus hSpace =>
    rw [List.singleton_append, decodeComponent_cons_of_ne (by decide), if_pos]
    · rfl
    · rw [hSpace]
      rfl
  | escaped hHigh hLow =>
    rw [List.cons_append, List.cons_append, List.singleton_append, decodeComponent_escape, hHigh, hLow]
    rfl

theorem decodeComponent_of_encodes (hPercent : '%' ∈ reserved)
    (hPlus : plusAsSpace = true → '+' ∈ reserved)
    (h : Encodes (Escapes reserved plusAsSpace) value text) :
    decodeComponent text plusAsSpace = some value :=
  h.decode (fun text => decodeComponent text plusAsSpace) rfl
    (fun _ _ rest hPiece => decodeComponent_piece hPercent hPlus rest hPiece)

theorem encodes_of_decodeComponent (h : decodeComponent text plusAsSpace = some value) :
    Encodes (escapes plusAsSpace) value text := by
  fun_induction decodeComponent text plusAsSpace generalizing value with
  | case1 =>
    cases h
    exact .nil
  | case2 character hPercent high low rest hDigits => cases h
  | case3 character hPercent high low rest hDigits ih =>
    obtain ⟨result, hResult, rfl⟩ := Option.map_eq_some_iff.mp h
    rw [beq_iff_eq.mp hPercent]
    have hBoth : isHexDigit high = true ∧ isHexDigit low = true := by simpa using hDigits
    exact .cons (.escaped hBoth.1 hBoth.2) (ih hResult)
  | case4 character rest hPercent hShort => cases h
  | case5 character rest hPercent ih =>
    obtain ⟨result, hResult, rfl⟩ := Option.map_eq_some_iff.mp h
    rw [beq_iff_eq] at hPercent
    have hPiece : escapes plusAsSpace (if plusAsSpace && character == '+' then ' ' else character)
        [character] := by
      by_cases hSpace : plusAsSpace = true ∧ character = '+'
      · obtain ⟨rfl, rfl⟩ := hSpace
        exact .plus rfl
      · have hSame : ¬(plusAsSpace && character == '+') = true := by
          rw [Bool.and_eq_true, beq_iff_eq]
          exact hSpace
        rw [if_neg hSame]
        apply Escapes.plain
        cases plusAsSpace with
        | false => simpa using hPercent
        | true => simpa [hPercent] using hSpace
    exact .cons hPiece (ih hResult)

theorem decodeComponent_eq_some_iff :
    decodeComponent text plusAsSpace = some value ↔ Encodes (escapes plusAsSpace) value text := by
  constructor
  · exact encodes_of_decodeComponent
  · intro h
    unfold escapes at h
    cases plusAsSpace with
    | false => exact decodeComponent_of_encodes (by decide) (fun h => nomatch h) h
    | true => exact decodeComponent_of_encodes (by decide) (fun _ => by decide) h

end SecureCore

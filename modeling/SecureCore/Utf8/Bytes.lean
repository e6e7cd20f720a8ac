import Mathlib.Data.List.Basic

/-! # UTF-8 and the bytes below 128

A byte below 128 is a character of its own, so it may be taken out of a text anywhere. -/

namespace Utf8

set_option autoImplicit false

def Valid (bytes : List UInt8) : Prop := ByteArray.IsValidUTF8 bytes.toByteArray

instance (bytes : List UInt8) : Decidable (Valid bytes) :=
  inferInstanceAs (Decidable (ByteArray.IsValidUTF8 bytes.toByteArray))

variable {bytes : List UInt8}

theorem valid_iff : Valid bytes ↔ ∃ chars : List Char, bytes = chars.flatMap String.utf8EncodeChar := by
  constructor
  · rintro ⟨chars, h⟩
    have hData := congrArg (fun b => b.data.toList) h
    exact ⟨chars, by simpa [List.utf8Encode] using hData⟩
  · rintro ⟨chars, rfl⟩
    exact ⟨chars, rfl⟩

theorem encode_of_lt {c : Char} (h : c.val.toNat < 128) :
    String.utf8EncodeChar c = [UInt8.ofNat c.val.toNat] := by
  unfold String.utf8EncodeChar
  exact if_pos (by omega)

theorem le_of_mem_encode {c : Char} (h : 128 ≤ c.val.toNat) {b : UInt8}
    (hb : b ∈ String.utf8EncodeChar c) : 128 ≤ b := by
  unfold String.utf8EncodeChar at hb
  simp only at hb
  rw [if_neg (by omega)] at hb
  rw [UInt8.le_iff_toNat_le]
  split at hb
  · simp only [List.mem_cons, List.not_mem_nil, or_false] at hb
    rcases hb with rfl | rfl <;> simp <;> omega
  · split at hb
    · simp only [List.mem_cons, List.not_mem_nil, or_false] at hb
      rcases hb with rfl | rfl | rfl <;> simp <;> omega
    · simp only [List.mem_cons, List.not_mem_nil, or_false] at hb
      rcases hb with rfl | rfl | rfl | rfl <;> simp <;> omega

theorem valid_of_ascii (h : ∀ b ∈ bytes, b < 128) : Valid bytes := by
  apply valid_iff.mpr
  induction bytes with
  | nil => exact ⟨[], rfl⟩
  | cons b bytes ih =>
    obtain ⟨chars, hChars⟩ := ih (fun b hb => h b (List.mem_cons_of_mem _ hb))
    have hLess : b.toNat < 128 := UInt8.lt_iff_toNat_lt.mp (h b List.mem_cons_self)
    have hScalar : (Char.ofNat b.toNat).val.toNat = b.toNat := by
      rw [Char.ofNat, dif_pos (.inl (by omega))]
      rfl
    refine ⟨Char.ofNat b.toNat :: chars, ?_⟩
    rw [List.flatMap_cons, ← hChars, encode_of_lt (by omega), hScalar, UInt8.ofNat_toNat]
    rfl

theorem Valid.tail {b : UInt8} (hb : b < 128) (h : Valid (b :: bytes)) : Valid bytes := by
  obtain ⟨chars, hChars⟩ := valid_iff.mp h
  cases chars with
  | nil => cases hChars
  | cons c chars =>
    rw [List.flatMap_cons] at hChars
    have hLess : c.val.toNat < 128 := by
      by_contra hMore
      have hFirst : b ∈ String.utf8EncodeChar c := by
        cases hEncoded : String.utf8EncodeChar c with
        | nil =>
          have hLength := String.length_utf8EncodeChar c
          rw [hEncoded] at hLength
          exact absurd hLength.symm (Nat.ne_of_gt (Char.utf8Size_pos c))
        | cons first rest =>
          rw [hEncoded, List.cons_append] at hChars
          cases hChars
          exact List.mem_cons_self
      have hHigh := le_of_mem_encode (Nat.le_of_not_lt hMore) hFirst
      rw [UInt8.le_iff_toNat_le] at hHigh
      rw [UInt8.lt_iff_toNat_lt] at hb
      omega
    rw [encode_of_lt hLess, List.singleton_append] at hChars
    cases hChars
    exact valid_iff.mpr ⟨chars, rfl⟩

/-- No character ends in the first byte of a longer one. -/
theorem not_valid_concat {front : List UInt8} (hFront : ∀ b ∈ front, b < 128) {last : UInt8}
    (hLast : 128 ≤ last) : ¬ Valid (front ++ [last]) := by
  induction front with
  | nil =>
    intro h
    obtain ⟨chars, hChars⟩ := valid_iff.mp h
    cases chars with
    | nil => cases hChars
    | cons c chars =>
      rw [List.nil_append, List.flatMap_cons] at hChars
      have hLength := congrArg List.length hChars
      simp only [List.length_singleton, List.length_append, String.length_utf8EncodeChar] at hLength
      have hSize : c.utf8Size = 1 := by
        have hPositive := Char.utf8Size_pos c
        omega
      have hLess : c.val.toNat < 128 := by
        have hSmall := Char.utf8Size_eq_one_iff.mp hSize
        rw [UInt32.le_iff_toNat_le] at hSmall
        change c.val.toNat ≤ 127 at hSmall
        omega
      rw [encode_of_lt hLess, List.singleton_append] at hChars
      injection hChars with hByte
      rw [hByte, UInt8.le_iff_toNat_le, UInt8.toNat_ofNat'] at hLast
      change 128 ≤ c.val.toNat % 256 at hLast
      omega
  | cons b front ih =>
    intro h
    rw [List.cons_append] at h
    exact ih (fun b hb => hFront b (List.mem_cons_of_mem _ hb))
      (h.tail (hFront b List.mem_cons_self))

theorem filter_encode {keep : UInt8 → Bool} (hKeep : ∀ b, 128 ≤ b → keep b = true) (c : Char) :
    ∃ chars : List Char, (String.utf8EncodeChar c).filter keep = chars.flatMap String.utf8EncodeChar := by
  rcases Nat.lt_or_ge c.val.toNat 128 with hLess | hMore
  · rw [encode_of_lt hLess, List.filter_singleton]
    cases keep (UInt8.ofNat c.val.toNat) with
    | false => exact ⟨[], rfl⟩
    | true =>
      refine ⟨[c], ?_⟩
      rw [List.flatMap_singleton, encode_of_lt hLess]
      rfl
  · refine ⟨[c], ?_⟩
    rw [List.flatMap_singleton]
    exact List.filter_eq_self.mpr (fun b hb => hKeep b (le_of_mem_encode hMore hb))

/-- Dropping bytes below 128 leaves a valid text valid. -/
theorem Valid.filter (h : Valid bytes) {keep : UInt8 → Bool} (hKeep : ∀ b, 128 ≤ b → keep b = true) :
    Valid (bytes.filter keep) := by
  obtain ⟨chars, rfl⟩ := valid_iff.mp h
  apply valid_iff.mpr
  clear h
  induction chars with
  | nil => exact ⟨[], rfl⟩
  | cons c chars ih =>
    obtain ⟨first, hFirst⟩ := filter_encode hKeep c
    obtain ⟨rest, hRest⟩ := ih
    refine ⟨first ++ rest, ?_⟩
    rw [List.flatMap_cons, List.filter_append, hFirst, hRest, List.flatMap_append]

end Utf8

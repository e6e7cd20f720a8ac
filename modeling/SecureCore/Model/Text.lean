import Mathlib.Algebra.Group.Int.Defs
import Mathlib.Algebra.Group.Nat.Defs
import Mathlib.Data.List.DropRight

/-! # Byte strings

A std::string is a Lean string with one character for each byte, so its length is
the number of bytes and characters from code 128 on stand for the upper bytes. -/

namespace SecureCore

set_option autoImplicit false

/-! ## The first occurrence of a character -/

theorem takeWhile_ne {before : List Char} {c : Char} (h : c ∉ before) (after : List Char) :
    (before ++ c :: after).takeWhile (fun other => other != c) = before := by
  rw [List.takeWhile_append_of_pos, List.takeWhile_cons_of_neg (by simp), List.append_nil]
  exact fun other hOther => bne_iff_ne.mpr (fun hSame => h (hSame ▸ hOther))

theorem dropWhile_ne {before : List Char} {c : Char} (h : c ∉ before) (after : List Char) :
    (before ++ c :: after).dropWhile (fun other => other != c) = c :: after := by
  rw [List.dropWhile_append_of_pos, List.dropWhile_cons_of_neg (by simp)]
  exact fun other hOther => bne_iff_ne.mpr (fun hSame => h (hSame ▸ hOther))

/-! ## Trimming -/

/-- The characters that every `trim_copy` of the program cuts off. -/
def isBlank (c : Char) : Bool := c == ' ' || c == '\t' || c == '\r' || c == '\n'

def trimChars (value : List Char) : List Char := (value.dropWhile isBlank).rdropWhile isBlank

theorem trimChars_trimChars (value : List Char) : trimChars (trimChars value) = trimChars value := by
  have hHead : ((value.dropWhile isBlank).rdropWhile isBlank).dropWhile isBlank =
      (value.dropWhile isBlank).rdropWhile isBlank := by
    obtain ⟨cut, hCut⟩ := List.rdropWhile_prefix isBlank (value.dropWhile isBlank)
    have hFirst := List.head?_dropWhile_not isBlank value
    cases hTrimmed : (value.dropWhile isBlank).rdropWhile isBlank with
    | nil => rfl
    | cons c rest =>
      rw [hTrimmed] at hCut
      rw [← hCut, List.cons_append, List.head?_cons] at hFirst
      exact List.dropWhile_cons_of_neg (by simpa using hFirst)
  unfold trimChars
  rw [hHead, List.rdropWhile_idempotent]

theorem trimChars_blank_append {blanks : List Char} (hBlanks : ∀ c ∈ blanks, isBlank c = true)
    (value : List Char) : trimChars (blanks ++ value) = trimChars value := by
  unfold trimChars
  rw [List.dropWhile_append_of_pos hBlanks]

theorem trimChars_append_blank {blanks : List Char} (hBlanks : ∀ c ∈ blanks, isBlank c = true)
    (value : List Char) : trimChars (value ++ blanks) = trimChars value := by
  unfold trimChars
  rw [List.dropWhile_append]
  split
  · rename_i hEmpty
    rw [List.isEmpty_iff] at hEmpty
    rw [hEmpty, List.dropWhile_eq_nil_iff.mpr hBlanks]
  · unfold List.rdropWhile
    rw [List.reverse_append, List.dropWhile_append_of_pos]
    intro c hc
    exact hBlanks c (List.mem_reverse.mp hc)

theorem trimChars_eq_self {value : List Char} (hFirst : ∀ c ∈ value.head?, isBlank c = false)
    (hLast : ∀ c ∈ value.getLast?, isBlank c = false) : trimChars value = value := by
  cases value with
  | nil => rfl
  | cons first rest =>
    have hHead : (first :: rest).dropWhile isBlank = first :: rest :=
      List.dropWhile_cons_of_neg (by simpa using hFirst first rfl)
    unfold trimChars
    rw [hHead, List.rdropWhile_eq_self_iff]
    intro hNonempty
    rw [hLast _ (List.getLast?_eq_some_getLast hNonempty)]
    exact Bool.false_ne_true

theorem trimChars_surroundings (value : List Char) :
    ∃ left right, (∀ c ∈ left, isBlank c = true) ∧ (∀ c ∈ right, isBlank c = true) ∧
      value = left ++ trimChars value ++ right := by
  refine ⟨value.takeWhile isBlank, (value.dropWhile isBlank).rtakeWhile isBlank, ?_, ?_, ?_⟩
  · exact fun c hc => List.mem_takeWhile_imp hc
  · exact fun c hc => List.mem_rtakeWhile_imp hc
  · unfold trimChars
    rw [List.append_assoc, List.rdropWhile_append_rtakeWhile, List.takeWhile_append_dropWhile]

/-! ## Letter case -/

def trimCopy (value : String) : String := String.ofList (trimChars value.toList)

/-- `std::tolower` on one byte in the C locale. -/
def toLower (c : Char) : Char := if 'A' ≤ c ∧ c ≤ 'Z' then Char.ofNat (c.toNat + 32) else c

def lowercaseChars (value : List Char) : List Char := value.map toLower

def lowercaseCopy (value : String) : String := String.ofList (lowercaseChars value.toList)

/-- The bytes that `sqlite3StrNICmp` compares: up to the first NUL of both strings. -/
def sameUpToNul : List Char → List Char → Bool
  | a :: as, b :: bs => toLower a == toLower b && (a == '\x00' || sameUpToNul as bs)
  | _, _ => true

/-- Equality under the SQLite collation NOCASE. -/
def nocaseEq (a b : String) : Bool := a.length == b.length && sameUpToNul a.toList b.toList

end SecureCore

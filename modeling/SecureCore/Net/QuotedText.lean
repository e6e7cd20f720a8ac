import SecureCore.Net.AcceptedHeaders
import SecureCore.Quoted.Text

/-! # Quoted text in headers

split_top_level cuts a text at the delimiters outside of quotes, and unquote reads what
stands between two quotes. Both take the same quotes for closed. -/

namespace SecureCore.TrustedProxy

set_option autoImplicit false

open Coding Quoted

def headerMarks : Marks Char := ⟨'"', '\\', by decide⟩

variable {delimiter : Char} {part value : List Char} {parts : List (List Char)}

/-! ## Splitting -/

theorem splitFrom_body {body : List Char} (h : Body headerMarks body) (part rest : List Char) :
    splitFrom delimiter true false part (body ++ '"' :: rest) =
      splitFrom delimiter false false (part ++ body ++ ['"']) rest := by
  induction h generalizing part with
  | nil =>
    rw [List.nil_append, List.append_nil, splitFrom_cons]
    rfl
  | @plain c body hQuote hEscape _ ih =>
    have hBackslash : (true && c == '\\') = false := beq_eq_false_iff_ne.mpr hEscape
    have hOther : (c == '"') = false := beq_eq_false_iff_ne.mpr hQuote
    rw [List.cons_append, splitFrom_cons, hBackslash, hOther]
    simp only [Bool.false_eq_true, if_false, Bool.not_true, Bool.false_and]
    rw [ih, List.append_assoc part, List.singleton_append]
  | @escaped c body _ ih =>
    have hFirst : splitFrom delimiter true false part (headerMarks.escape :: c :: (body ++ '"' :: rest)) =
        splitFrom delimiter true false (part ++ [headerMarks.escape] ++ [c]) (body ++ '"' :: rest) :=
      rfl
    rw [List.cons_append, List.cons_append, hFirst, ih]
    simp only [List.append_assoc, List.cons_append, List.nil_append]

/-- A piece without delimiters outside of quotes is passed over. -/
theorem splitFrom_closed {piece : List Char}
    (h : Closed headerMarks (fun c => c ≠ delimiter) piece) (part rest : List Char) :
    splitFrom delimiter false false part (piece ++ rest) =
      splitFrom delimiter false false (part ++ piece) rest := by
  induction h generalizing part with
  | nil => rw [List.nil_append, List.append_nil]
  | @plain c piece hQuote hPlain _ ih =>
    have hOther : (c == '"') = false := beq_eq_false_iff_ne.mpr hQuote
    have hNext : (c == delimiter) = false := beq_eq_false_iff_ne.mpr hPlain
    rw [List.cons_append, splitFrom_cons, hOther, hNext]
    simp only [Bool.false_eq_true, if_false, Bool.false_and, Bool.and_false]
    rw [ih, List.append_assoc, List.singleton_append]
  | @quoted body piece hBody _ ih =>
    have hOpen : splitFrom delimiter false false part (headerMarks.quote :: (body ++ '"' :: (piece ++ rest))) =
        splitFrom delimiter true false (part ++ ['"']) (body ++ '"' :: (piece ++ rest)) := rfl
    have hText : headerMarks.quote :: (body ++ headerMarks.quote :: piece) ++ rest =
        headerMarks.quote :: (body ++ '"' :: (piece ++ rest)) := by
      rw [List.cons_append, List.append_assoc]
      rfl
    rw [hText, hOpen, splitFrom_body hBody, ih]
    simp only [List.append_assoc, List.cons_append]
    rfl

theorem splitFrom_delimiter (hDelimiter : delimiter ≠ '"') (part rest : List Char) :
    splitFrom delimiter false false part (delimiter :: rest) =
      (splitFrom delimiter false false [] rest >>= fun parts => .ok (trimChars part :: parts)) := by
  have hOther : (delimiter == '"') = false := beq_eq_false_iff_ne.mpr hDelimiter
  rw [splitFrom_cons, hOther, beq_self_eq_true]
  rfl

theorem splitFrom_pieces (hDelimiter : delimiter ≠ '"') {piece : List Char} {pieces : List (List Char)}
    (hPiece : Closed headerMarks (fun c => c ≠ delimiter) piece)
    (hPieces : ∀ next ∈ pieces, Closed headerMarks (fun c => c ≠ delimiter) next)
    (part : List Char) :
    splitFrom delimiter false false part ([delimiter].intercalate (piece :: pieces)) =
      .ok (trimChars (part ++ piece) :: pieces.map trimChars) := by
  induction pieces generalizing piece part with
  | nil =>
    rw [List.intercalate_singleton, ← List.append_nil piece, splitFrom_closed hPiece,
      List.append_nil]
    rfl
  | cons next pieces ih =>
    rw [List.forall_mem_cons] at hPieces
    rw [List.intercalate_cons_cons, List.append_assoc, splitFrom_closed hPiece, List.singleton_append,
      splitFrom_delimiter hDelimiter, ih hPieces.1 hPieces.2]
    rfl

theorem splitTopLevel_pieces (hDelimiter : delimiter ≠ '"') {pieces : List (List Char)}
    (h : Pieces headerMarks delimiter value pieces) :
    splitTopLevel value delimiter = .ok (pieces.map trimChars) := by
  obtain ⟨hNonempty, hClosed, hText⟩ := h
  cases pieces with
  | nil => exact absurd rfl hNonempty
  | cons piece pieces =>
    rw [List.forall_mem_cons] at hClosed
    unfold splitTopLevel
    rw [hText, splitFrom_pieces hDelimiter hClosed.1 hClosed.2, List.nil_append]
    rfl

/-- A text that is read to its end inside of quotes has them closed. -/
theorem splitFrom_inside {escaped : Bool} (h : splitFrom delimiter true escaped part value = .ok parts) :
    ∃ body rest, Body headerMarks (if escaped then headerMarks.escape :: body else body) ∧
      value = body ++ '"' :: rest ∧
      splitFrom delimiter false false (part ++ body ++ ['"']) rest = .ok parts := by
  induction value generalizing escaped part with
  | nil => cases h
  | cons c value ih =>
    rw [splitFrom_cons] at h
    cases escaped with
    | true =>
      obtain ⟨body, rest, hBody, rfl, hRest⟩ := ih h
      refine ⟨c :: body, rest, .escaped hBody, rfl, ?_⟩
      rw [← hRest, List.append_assoc part [c], List.singleton_append]
    | false =>
      simp only [Bool.false_eq_true, if_false, Bool.true_and, Bool.not_true, Bool.false_and] at h
      split at h
      · rename_i hEscape
        rw [beq_iff_eq] at hEscape
        obtain ⟨body, rest, hBody, rfl, hRest⟩ := ih h
        refine ⟨c :: body, rest, ?_, rfl, ?_⟩
        · rw [hEscape]
          exact hBody
        · rw [← hRest, List.append_assoc part [c], List.singleton_append]
      · rename_i hEscape
        split at h
        · rename_i hQuote
          rw [beq_iff_eq] at hQuote
          refine ⟨[], value, .nil, ?_, ?_⟩
          · rw [hQuote, List.nil_append]
          · rw [← h, hQuote, List.append_nil]
        · rename_i hQuote
          obtain ⟨body, rest, hBody, rfl, hRest⟩ := ih h
          refine ⟨c :: body, rest, ?_, rfl, ?_⟩
          · rw [beq_iff_eq] at hQuote hEscape
            exact .plain hQuote hEscape hBody
          · rw [← hRest, List.append_assoc part [c], List.singleton_append]

theorem exists_pieces_of_splitFrom
    (h : splitFrom delimiter false false part value = .ok parts) :
    ∃ piece pieces, Pieces headerMarks delimiter value (piece :: pieces) ∧
      parts = trimChars (part ++ piece) :: pieces.map trimChars := by
  induction hLength : value.length using Nat.strong_induction_on generalizing value part parts with
  | _ length ih =>
    cases value with
    | nil =>
      cases h
      refine ⟨[], [], .singleton .nil, ?_⟩
      rw [List.append_nil]
      rfl
    | cons c value =>
      rw [List.length_cons] at hLength
      rw [splitFrom_cons] at h
      simp only [Bool.false_eq_true, if_false, Bool.false_and, Bool.not_false, Bool.true_and] at h
      split at h
      · rename_i hQuote
        rw [beq_iff_eq] at hQuote
        obtain ⟨body, rest, hBody, rfl, hRest⟩ := splitFrom_inside h
        have hShorter : rest.length < length := by
          rw [List.length_append, List.length_cons] at hLength
          omega
        obtain ⟨piece, pieces, hPieces, rfl⟩ := ih rest.length hShorter hRest rfl
        have hQuoted : Closed headerMarks (fun c => c ≠ delimiter) ('"' :: body ++ ['"']) :=
          .quotedText hBody
        have hText : c :: (body ++ '"' :: rest) = '"' :: body ++ ['"'] ++ rest := by
          rw [hQuote, List.cons_append, List.cons_append, List.append_assoc]
          rfl
        rw [hText]
        refine ⟨'"' :: body ++ ['"'] ++ piece, pieces, hPieces.append hQuoted, ?_⟩
        rw [hQuote]
        simp only [List.append_assoc, List.cons_append, List.nil_append]
      · rename_i hQuote
        rw [beq_iff_eq] at hQuote
        split at h
        · rename_i hNext
          rw [beq_iff_eq] at hNext
          obtain ⟨later, hLater, hParts⟩ := bind_eq_ok.mp h
          cases hParts
          obtain ⟨piece, pieces, hPieces, rfl⟩ := ih value.length (by omega) hLater rfl
          rw [hNext]
          refine ⟨[], piece :: pieces, hPieces.cons, ?_⟩
          rw [List.append_nil]
          rfl
        · rename_i hNext
          rw [beq_iff_eq] at hNext
          obtain ⟨piece, pieces, hPieces, rfl⟩ := ih value.length (by omega) h rfl
          have hPlain : Closed headerMarks (fun c => c ≠ delimiter) [c] := .plain hQuote hNext .nil
          refine ⟨[c] ++ piece, pieces, hPieces.append hPlain, ?_⟩
          rw [List.append_assoc]

/-- Splitting fails exactly on texts with an open quote. -/
theorem splitTopLevel_eq_ok_iff (hDelimiter : delimiter ≠ '"') :
    splitTopLevel value delimiter = .ok parts ↔
      ∃ pieces, Pieces headerMarks delimiter value pieces ∧ parts = pieces.map trimChars := by
  constructor
  · intro h
    obtain ⟨piece, pieces, hPieces, hParts⟩ := exists_pieces_of_splitFrom h
    exact ⟨piece :: pieces, hPieces, hParts⟩
  · rintro ⟨pieces, hPieces, rfl⟩
    exact splitTopLevel_pieces hDelimiter hPieces

/-! ## Surrounding blanks -/

theorem isBlank_ne {c : Char} (h : isBlank c = true) : c ≠ '"' ∧ c ≠ ',' ∧ c ≠ ';' ∧ c ≠ '=' := by
  refine ⟨?_, ?_, ?_, ?_⟩ <;> rintro rfl <;> exact absurd h (by decide)

theorem splitFrom_blank_append {blanks : List Char} (hBlanks : ∀ c ∈ blanks, isBlank c = true)
    (quoted escaped : Bool) (part : List Char) :
    splitFrom delimiter quoted escaped (blanks ++ part) value =
      splitFrom delimiter quoted escaped part value := by
  induction value generalizing quoted escaped part with
  | nil =>
    unfold splitFrom
    rw [trimChars_blank_append hBlanks]
  | cons c value ih =>
    rw [splitFrom_cons, splitFrom_cons, trimChars_blank_append hBlanks, List.append_assoc, ih, ih, ih]

/-- Blanks behind a text that leaves a quote open do not close it. -/
theorem splitFrom_open {blanks : List Char} (hBlanks : ∀ c ∈ blanks, isBlank c = true)
    (escaped : Bool) (part : List Char) :
    splitFrom delimiter true escaped part blanks = .error unterminatedQuote := by
  induction blanks generalizing escaped part with
  | nil => rfl
  | cons c blanks ih =>
    rw [List.forall_mem_cons] at hBlanks
    have hQuote : (c == '"') = false := beq_eq_false_iff_ne.mpr (isBlank_ne hBlanks.1).1
    rw [splitFrom_cons, hQuote, ih hBlanks.2, ih hBlanks.2]
    simp

theorem splitFrom_append_blank {blanks : List Char} (hBlanks : ∀ c ∈ blanks, isBlank c = true)
    (hDelimiter : isBlank delimiter = false) (quoted escaped : Bool)
    (hEscaped : escaped = true → quoted = true) (part : List Char) :
    splitFrom delimiter quoted escaped part (value ++ blanks) =
      splitFrom delimiter quoted escaped part value := by
  induction value generalizing quoted escaped part with
  | nil =>
    rw [List.nil_append]
    cases quoted with
    | true =>
      rw [splitFrom_open hBlanks]
      rfl
    | false =>
      have hPlain : escaped = false := by simpa using hEscaped
      have hClosed : Closed headerMarks (fun c => c ≠ delimiter) blanks := by
        apply Closed.of_forall
        intro c hc
        refine ⟨(isBlank_ne (hBlanks c hc)).1, ?_⟩
        rintro rfl
        rw [hBlanks c hc] at hDelimiter
        cases hDelimiter
      rw [hPlain, ← List.append_nil blanks, splitFrom_closed hClosed]
      unfold splitFrom
      rw [trimChars_append_blank hBlanks]
  | cons c value ih =>
    have hFalse : false = true → quoted = true := fun h => absurd h Bool.false_ne_true
    rw [List.cons_append, splitFrom_cons, splitFrom_cons, ih quoted false hFalse,
      ih (!quoted) false (fun h => absurd h Bool.false_ne_true),
      ih quoted false hFalse]
    split
    · rfl
    · split
      · rename_i hBackslash
        rw [Bool.and_eq_true] at hBackslash
        exact ih quoted true (fun _ => hBackslash.1) _
      · rfl

theorem splitTopLevel_trimChars (hDelimiter : isBlank delimiter = false) :
    splitTopLevel (trimChars value) delimiter = splitTopLevel value delimiter := by
  obtain ⟨left, right, hLeft, hRight, hValue⟩ := trimChars_surroundings value
  have hClosed : Closed headerMarks (fun c => c ≠ delimiter) left := by
    apply Closed.of_forall
    intro c hc
    refine ⟨(isBlank_ne (hLeft c hc)).1, ?_⟩
    rintro rfl
    rw [hLeft c hc] at hDelimiter
    cases hDelimiter
  unfold splitTopLevel
  conv_rhs => rw [hValue]
  rw [splitFrom_append_blank hRight hDelimiter false false nofun, splitFrom_closed hClosed,
    List.nil_append, ← List.append_nil left, splitFrom_blank_append hLeft]

/-! ## Reading quotes -/

theorem unescape_of_encodes {body : List Char} (h : Encodes (Code headerMarks) value body) :
    unescape false body = .ok value := by
  have hNil : unescape false [] = pure [] := rfl
  apply h.decode (unescape false) hNil
  intro c piece rest hPiece
  cases hPiece with
  | plain hQuote hEscape =>
    have hBackslash : (c == '\\') = false := beq_eq_false_iff_ne.mpr hEscape
    have hOther : (c == '"') = false := beq_eq_false_iff_ne.mpr hQuote
    rw [List.singleton_append, unescape, hBackslash, hOther]
    rfl
  | escaped hMark =>
    have hEscaped : (c != '\\' && c != '"') = false := by
      rcases hMark with rfl | rfl <;> rfl
    have hFirst : unescape false (headerMarks.escape :: c :: rest) = unescape true (c :: rest) := rfl
    rw [List.cons_append, List.singleton_append, hFirst, unescape, hEscaped]
    rfl

theorem encodes_of_unescape {escaped : Bool} {body : List Char}
    (h : unescape escaped body = .ok value) :
    Encodes (Code headerMarks) value (if escaped then headerMarks.escape :: body else body) := by
  induction body generalizing escaped value with
  | nil =>
    cases escaped with
    | true => cases h
    | false =>
      cases h
      exact .nil
  | cons c body ih =>
    unfold unescape at h
    cases escaped with
    | true =>
      simp only [if_true] at h
      split at h
      · cases h
      · rename_i hMark
        obtain ⟨result, hResult, h⟩ := bind_eq_ok.mp h
        cases h
        have hEither : c = '"' ∨ c = '\\' := by
          by_contra hNeither
          rw [not_or] at hNeither
          exact hMark (by simp [hNeither])
        exact .cons (.escaped hEither) (ih hResult)
    | false =>
      simp only [Bool.false_eq_true, if_false] at h
      split at h
      · rename_i hEscape
        rw [beq_iff_eq] at hEscape
        rw [hEscape]
        exact ih h
      · rename_i hEscape
        rw [beq_iff_eq] at hEscape
        split at h
        · cases h
        · rename_i hQuote
          rw [beq_iff_eq] at hQuote
          obtain ⟨result, hResult, h⟩ := bind_eq_ok.mp h
          cases h
          exact .cons (.plain hQuote hEscape) (ih hResult)

/-- What a value says, as it stands or in quotes. -/
inductive Says : List Char → List Char → Prop
  | plain {value : List Char} (hPlain : value.head? ≠ some '"') : Says value value
  | quoted {value body : List Char} (hBody : Encodes (Code headerMarks) value body) :
      Says ('"' :: body ++ ['"']) value

theorem quotes_of_ends (hFirst : value.head? = some '"') (hLast : value.getLast? = some '"')
    (hLong : 2 ≤ value.length) : value = '"' :: value.tail.dropLast ++ ['"'] := by
  cases value with
  | nil => cases hFirst
  | cons c rest =>
    cases hFirst
    have hRest : rest ≠ [] := by
      rintro rfl
      simp at hLong
    have hEnd : rest.getLast hRest = '"' := by
      rw [List.getLast?_cons_of_ne_nil hRest, List.getLast?_eq_some_getLast hRest] at hLast
      exact Option.some.inj hLast
    have hSplit := List.dropLast_append_getLast hRest
    rw [hEnd] at hSplit
    rw [List.tail_cons, List.cons_append, hSplit]

theorem unquote_eq_ok_iff {text : List Char} : unquote text = .ok value ↔ Says text value := by
  constructor
  · intro h
    unfold unquote at h
    split at h
    · rename_i hPlain
      cases h
      exact .plain (bne_iff_ne.mp hPlain)
    · rename_i hQuoted
      rw [bne_iff_ne, not_not] at hQuoted
      split at h
      · cases h
      · rename_i hEnds
        rw [Bool.or_eq_true, not_or, bne_iff_ne, not_not, decide_eq_true_eq, Nat.not_lt] at hEnds
        rw [quotes_of_ends hQuoted hEnds.2 hEnds.1]
        exact .quoted (encodes_of_unescape h)
  · intro h
    unfold unquote
    cases h with
    | plain hPlain => exact if_pos (bne_iff_ne.mpr hPlain)
    | @quoted value body hBody =>
      have hLast : ('"' :: body ++ ['"']).getLast? = some '"' := List.getLast?_concat
      have hMiddle : ('"' :: body ++ ['"']).tail.dropLast = body := by simp
      rw [if_neg (by simp), hLast, hMiddle, if_neg (by simp)]
      exact unescape_of_encodes hBody

end SecureCore.TrustedProxy

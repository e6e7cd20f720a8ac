import SecureCore.Coding.Pieces

/-! # Texts with quotes

A quote begins and ends a quoted part, in which an escape takes the meaning from the next
symbol. Outside of quotes the escape is a symbol like any other. -/

namespace Quoted

set_option autoImplicit false

structure Marks (α : Type) where
  quote : α
  escape : α
  distinct : quote ≠ escape

variable {α : Type} (marks : Marks α)

/-- What may stand between two quotes. -/
inductive Body : List α → Prop
  | nil : Body []
  | plain {c : α} {rest : List α} (hQuote : c ≠ marks.quote) (hEscape : c ≠ marks.escape)
      (hRest : Body rest) : Body (c :: rest)
  | escaped {c : α} {rest : List α} (hRest : Body rest) : Body (marks.escape :: c :: rest)

/-- A text in which every quote is closed, with what the symbols outside satisfy. -/
inductive Closed (p : α → Prop) : List α → Prop
  | nil : Closed p []
  | plain {c : α} {rest : List α} (hQuote : c ≠ marks.quote) (hPlain : p c) (hRest : Closed p rest) :
      Closed p (c :: rest)
  | quoted {body rest : List α} (hBody : Body marks body) (hRest : Closed p rest) :
      Closed p (marks.quote :: (body ++ marks.quote :: rest))

variable {marks} {p q : α → Prop} {left right : List α}

theorem Closed.append (hLeft : Closed marks p left) (hRight : Closed marks p right) :
    Closed marks p (left ++ right) := by
  induction hLeft with
  | nil => exact hRight
  | plain hQuote hPlain _ ih => exact .plain hQuote hPlain ih
  | quoted hBody _ ih =>
    rw [List.cons_append, List.append_assoc]
    exact .quoted hBody ih

theorem Closed.mono (hp : ∀ c, p c → q c) (h : Closed marks p left) : Closed marks q left := by
  induction h with
  | nil => exact .nil
  | plain hQuote hPlain _ ih => exact .plain hQuote (hp _ hPlain) ih
  | quoted hBody _ ih => exact .quoted hBody ih

theorem Closed.of_forall (h : ∀ c ∈ left, c ≠ marks.quote ∧ p c) : Closed marks p left := by
  induction left with
  | nil => exact .nil
  | cons c left ih =>
    obtain ⟨hQuote, hPlain⟩ := h c List.mem_cons_self
    exact .plain hQuote hPlain (ih (fun other hOther => h other (List.mem_cons_of_mem _ hOther)))

theorem Closed.quotedText {body : List α} (hBody : Body marks body) :
    Closed marks p (marks.quote :: body ++ [marks.quote]) := .quoted hBody .nil

/-- Closed texts with symbols in between that are not special outside of quotes. -/
theorem Closed.intercalate {delimiter : α} (hDelimiter : delimiter ≠ marks.quote) (hPlain : p delimiter)
    {pieces : List (List α)} (h : ∀ piece ∈ pieces, Closed marks p piece) :
    Closed marks p ([delimiter].intercalate pieces) := by
  induction pieces with
  | nil => exact .nil
  | cons piece pieces ih =>
    rw [List.forall_mem_cons] at h
    obtain ⟨hPiece, hRest⟩ := h
    cases pieces with
    | nil =>
      rw [List.intercalate_singleton]
      exact hPiece
    | cons next pieces =>
      rw [List.intercalate_cons_cons, List.append_assoc]
      exact hPiece.append (.plain hDelimiter hPlain (ih hRest))

/-- The ways to write a symbol between quotes: only the two marks are escaped. -/
inductive Code (marks : Marks α) : α → List α → Prop
  | plain {c : α} (hQuote : c ≠ marks.quote) (hEscape : c ≠ marks.escape) : Code marks c [c]
  | escaped {c : α} (hMark : c = marks.quote ∨ c = marks.escape) : Code marks c [marks.escape, c]

theorem Body.of_encodes {value body : List α} (h : Coding.Encodes (Code marks) value body) :
    Body marks body := by
  induction h with
  | nil => exact .nil
  | cons hPiece _ ih =>
    cases hPiece with
    | plain hQuote hEscape => exact .plain hQuote hEscape ih
    | escaped _ => exact .escaped ih

/-- Without marks a text is its own code. -/
theorem encodes_self {value : List α} (h : ∀ c ∈ value, c ≠ marks.quote ∧ c ≠ marks.escape) :
    Coding.Encodes (Code marks) value value := by
  induction value with
  | nil => exact .nil
  | cons c value ih =>
    rw [List.forall_mem_cons] at h
    exact .cons (.plain h.1.1 h.1.2) (ih h.2)

/-- The parts of a text between the delimiters outside of quotes. -/
structure Pieces (marks : Marks α) (delimiter : α) (text : List α) (pieces : List (List α)) : Prop where
  nonempty : pieces ≠ []
  closed : ∀ piece ∈ pieces, Closed marks (fun c => c ≠ delimiter) piece
  text_eq : text = [delimiter].intercalate pieces

variable {delimiter : α} {text : List α} {pieces : List (List α)}

theorem Pieces.singleton (h : Closed marks (fun c => c ≠ delimiter) text) :
    Pieces marks delimiter text [text] where
  nonempty := List.cons_ne_nil _ _
  closed _ hPiece := List.mem_singleton.mp hPiece ▸ h
  text_eq := List.intercalate_singleton.symm

/-- What is put before a text belongs to the first piece. -/
theorem Pieces.append {piece : List α} (hLeft : Closed marks (fun c => c ≠ delimiter) left)
    (h : Pieces marks delimiter text (piece :: pieces)) :
    Pieces marks delimiter (left ++ text) ((left ++ piece) :: pieces) := by
  have hClosed := h.closed
  rw [List.forall_mem_cons] at hClosed
  refine ⟨List.cons_ne_nil _ _, ?_, ?_⟩
  · rw [List.forall_mem_cons]
    exact ⟨hLeft.append hClosed.1, hClosed.2⟩
  · rw [h.text_eq]
    cases pieces with
    | nil => rw [List.intercalate_singleton, List.intercalate_singleton]
    | cons next pieces =>
      rw [List.intercalate_cons_cons, List.intercalate_cons_cons]
      simp only [List.append_assoc]

theorem Pieces.cons (h : Pieces marks delimiter text pieces) :
    Pieces marks delimiter (delimiter :: text) ([] :: pieces) := by
  refine ⟨List.cons_ne_nil _ _, ?_, ?_⟩
  · rw [List.forall_mem_cons]
    exact ⟨.nil, h.closed⟩
  · rw [List.intercalate_cons_of_ne_nil h.nonempty, h.text_eq]
    rfl

theorem Pieces.closed_text (hDelimiter : delimiter ≠ marks.quote)
    (h : Pieces marks delimiter text pieces) : Closed marks (fun _ => True) text := by
  rw [h.text_eq]
  apply Closed.intercalate hDelimiter trivial
  intro piece hPiece
  exact (h.closed piece hPiece).mono (fun _ _ => trivial)

end Quoted

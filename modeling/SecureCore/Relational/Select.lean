import Mathlib.Data.List.Sort
import SecureCore.Relational.Table

/-! # Prepared SELECT statements over one table

The text of a statement is cut into tokens and read by a small grammar: the output, the
comparisons of a WHERE that starts with 1 = 1, and perhaps the descending order of the
key with LIMIT and OFFSET. A placeholder ?n stands for whatever is bound to n, and for
NULL until then. -/

namespace Relational

set_option autoImplicit false

open Keyed

inductive Value where
  | null
  | integer (n : Int)
  | text (s : String)
  deriving DecidableEq, Repr

/-- The `=` of SQL between values of the column's own type: NULL equals nothing. -/
def Value.equals : Value → Value → Bool
  | .integer m, .integer n => m == n
  | .text s, .text t => s == t
  | _, _ => false

inductive Output (κ : Type) where
  | count
  | columns (list : List κ)
  deriving DecidableEq, Repr

structure Select (κ : Type) where
  output : Output κ
  /-- A column and the placeholder that it is compared to. -/
  conditions : List (κ × Nat)
  /-- The placeholders of LIMIT and OFFSET, with the key in descending order. -/
  page : Option (Nat × Nat)
  deriving DecidableEq, Repr

/-! ## Reading the text -/

def isWordChar (c : Char) : Bool := c.isAlphanum || c == '_' || c == '?'

def flushWord (word : List Char) : List String := if word.isEmpty then [] else [String.ofList word]

/-- A token is a word, or another character that is no blank. -/
def tokensFrom (word : List Char) : List Char → List String
  | [] => flushWord word
  | c :: rest =>
    if isWordChar c then tokensFrom (word ++ [c]) rest
    else if c.isWhitespace then flushWord word ++ tokensFrom [] rest
    else flushWord word ++ String.ofList [c] :: tokensFrom [] rest

def sqlTokens (sql : String) : List String := tokensFrom [] sql.toList

def placeholder (n : Nat) : String := "?" ++ toString n

def readPlaceholder (token : String) : Option Nat :=
  match token.toList with
  | '?' :: digits =>
    if digits.isEmpty || !digits.all Char.isDigit then none else some (Nat.ofDigitChars 10 digits 0)
  | _ => none

variable {κ : Type} (column : String → Option κ)

/-- The columns up to FROM. -/
def readColumns : List String → Option (List κ × List String)
  | name :: separator :: rest => do
    let first ← column name
    if separator = "," then
      let (others, rest) ← readColumns rest
      some (first :: others, rest)
    else if separator = "FROM" then some ([first], rest)
    else none
  | _ => none

def readOutput : List String → Option (Output κ × List String)
  | "COUNT" :: "(" :: "*" :: ")" :: "FROM" :: rest => some (.count, rest)
  | rest => do
    let (list, rest) ← readColumns column rest
    some (.columns list, rest)

def readConditions : List String → Option (List (κ × Nat) × List String)
  | "AND" :: name :: "=" :: token :: rest => do
    let condition := (← column name, ← readPlaceholder token)
    let (others, rest) ← readConditions rest
    some (condition :: others, rest)
  | rest => some ([], rest)

def readPage (keyName : String) : List String → Option (Option (Nat × Nat))
  | [";"] => some none
  | ["ORDER", "BY", name, "DESC", "LIMIT", limit, "OFFSET", offset, ";"] => do
    guard (name = keyName)
    some (some (← readPlaceholder limit, ← readPlaceholder offset))
  | _ => none

def readSelect (table keyName : String) : List String → Option (Select κ)
  | "SELECT" :: rest => do
    let (output, rest) ← readOutput column rest
    match rest with
    | name :: "WHERE" :: "1" :: "=" :: "1" :: rest => do
      guard (name = table)
      let (conditions, rest) ← readConditions column rest
      some ⟨output, conditions, ← readPage keyName rest⟩
    | _ => none
  | _ => none

/-! ## Binding -/

structure SqliteError where
  code : Int
  message : String
  deriving DecidableEq, Repr

def Select.placeholders (select : Select κ) : List Nat :=
  select.conditions.map Prod.snd ++ (select.page.map (fun (limit, offset) => [limit, offset])).getD []

/-- A prepared statement, with a value for each placeholder up to the largest. -/
structure Prepared (κ : Type) where
  select : Select κ
  bindings : List Value

def prepare (table keyName : String) (sql : String) : Except SqliteError (Prepared κ) :=
  match readSelect column table keyName (sqlTokens sql) with
  | some select => .ok ⟨select, List.replicate (select.placeholders.foldl max 0) .null⟩
  | none => .error ⟨1, "syntax error"⟩

namespace Prepared

def bind (statement : Prepared κ) (index : Nat) (value : Value) : Except SqliteError (Prepared κ) :=
  if 0 < index ∧ index ≤ statement.bindings.length then
    .ok { statement with bindings := statement.bindings.set (index - 1) value }
  else .error ⟨25, "column index out of range"⟩

def value (statement : Prepared κ) (placeholder : Nat) : Value :=
  statement.bindings.getD (placeholder - 1) .null

/-! ## Rows of the result -/

variable {ρ : Type} [Keyed ρ] (columnValue : ρ → κ → Value)

def keeps (statement : Prepared κ) (row : ρ) : Bool :=
  statement.select.conditions.all (fun (column, placeholder) =>
    (columnValue row column).equals (statement.value placeholder))

/-- A negative LIMIT is none, and a negative OFFSET is zero. -/
def window {α : Type} (limit offset : Int) (rows : List α) : List α :=
  if limit < 0 then rows.drop offset.toNat else (rows.drop offset.toNat).take limit.toNat

def newestFirst (rows : List ρ) : List ρ := rows.mergeSort (fun a b => decide (key b ≤ key a))

def selected (statement : Prepared κ) (t : Table ρ) : Except SqliteError (List ρ) :=
  let rows := t.rows.filter (statement.keeps columnValue)
  match statement.select.page with
  | none => .ok rows
  | some (limit, offset) =>
    match statement.value limit, statement.value offset with
    | .integer limit, .integer offset => .ok (window limit offset (newestFirst rows))
    | _, _ => .error ⟨20, "datatype mismatch"⟩

/-- The rows of the result, in the order in which the steps return them. -/
def rows (statement : Prepared κ) (t : Table ρ) : Except SqliteError (List (List Value)) := do
  let chosen ← statement.selected columnValue t
  match statement.select.output with
  | .count => .ok [[.integer chosen.length]]
  | .columns list => .ok (chosen.map (fun row => list.map (columnValue row)))

end Prepared

/-! ## Rules for the text -/

theorem tokensFrom_append {c : Char} (hc : isWordChar c = false) (text rest word : List Char) :
    tokensFrom word (text ++ c :: rest) = tokensFrom word text ++ tokensFrom [] (c :: rest) := by
  induction text generalizing word with
  | nil => cases hBlank : c.isWhitespace <;> simp [tokensFrom, hc, hBlank, flushWord]
  | cons d text ih =>
    cases hWord : isWordChar d <;> cases hBlank : d.isWhitespace <;> simp [tokensFrom, hWord, hBlank, ih]

theorem tokens_append {a b : String} {c : Char} {rest : List Char} (hText : b.toList = c :: rest)
    (hc : isWordChar c = false) : sqlTokens (a ++ b) = sqlTokens a ++ sqlTokens b := by
  rw [sqlTokens, sqlTokens, sqlTokens, String.toList_append, hText]
  exact tokensFrom_append hc a.toList rest []

theorem tokensFrom_word {text : List Char} (hText : ∀ c ∈ text, isWordChar c = true) (word : List Char) :
    tokensFrom word text = flushWord (word ++ text) := by
  induction text generalizing word with
  | nil => simp [tokensFrom]
  | cons c text ih =>
    obtain ⟨hc, hRest⟩ := List.forall_mem_cons.mp hText
    rw [tokensFrom, if_pos hc, ih hRest, List.append_assoc, List.singleton_append]

theorem isDigit_of_mem_toDigits (n : Nat) : ∀ c ∈ Nat.toDigits 10 n, c.isDigit = true :=
  fun c hc => Nat.isDigit_of_mem_toDigits (by decide) (by decide) hc

theorem toList_placeholder (n : Nat) : (placeholder n).toList = '?' :: Nat.toDigits 10 n := by
  rw [placeholder, String.toList_append]
  simp [toString, Nat.repr]

theorem readPlaceholder_placeholder (n : Nat) : readPlaceholder (placeholder n) = some n := by
  have hDigits : (Nat.toDigits 10 n).all Char.isDigit = true :=
    List.all_eq_true.mpr (isDigit_of_mem_toDigits n)
  simp [readPlaceholder, toList_placeholder, hDigits]

/-- A placeholder after a blank is a token. -/
theorem tokens_placeholder {text : String} {before : List Char} (hText : text.toList = before ++ [' ', '?'])
    (n : Nat) : sqlTokens (text ++ toString n) = tokensFrom [] before ++ [placeholder n] := by
  have hWord : ∀ c ∈ '?' :: Nat.toDigits 10 n, isWordChar c = true := by
    intro c hc
    rcases List.mem_cons.mp hc with rfl | hc
    · decide
    · simp [isWordChar, Char.isAlphanum, isDigit_of_mem_toDigits n c hc]
  have hToken : (text ++ toString n).toList = before ++ ' ' :: (placeholder n).toList := by
    simp [toList_placeholder, hText, toString, Nat.repr]
  have hFlush : flushWord (placeholder n).toList = [placeholder n] := by
    rw [flushWord, if_neg (by simp [toList_placeholder]), String.ofList_toList]
  rw [sqlTokens, hToken, tokensFrom_append (by decide), tokensFrom, if_neg (by decide), if_pos (by decide),
    toList_placeholder, tokensFrom_word hWord, ← toList_placeholder, List.nil_append, hFlush]
  rfl

/-! ## Rules for the rows -/

variable {ρ : Type} [Keyed ρ]

/-- Sorting selected rows by descending key turns them around. -/
theorem newestFirst_filter (t : Table ρ) (condition : ρ → Bool) :
    Prepared.newestFirst (t.rows.filter condition) = (t.rows.filter condition).reverse := by
  have hSorted : (Prepared.newestFirst (t.rows.filter condition)).Pairwise (fun a b => key b ≤ key a) := by
    have hSort := @List.pairwise_mergeSort ρ (fun a b => decide (key b ≤ key a))
      (fun a b c hab hbc => by simp only [decide_eq_true_eq] at *; omega)
      (fun a b => by simp only [Bool.or_eq_true, decide_eq_true_eq]; omega) (t.rows.filter condition)
    exact hSort.imp of_decide_eq_true
  have hReverse : (t.rows.filter condition).reverse.Pairwise (fun a b => key b ≤ key a) :=
    List.pairwise_reverse.mpr ((t.ordered.filter condition).imp Int.le_of_lt)
  have hSort := List.mergeSort_perm (t.rows.filter condition) (fun a b => decide (key b ≤ key a))
  refine (hSort.trans (List.reverse_perm _).symm).eq_of_pairwise ?_ hSorted hReverse
  intro a b ha hb hBA hAB
  have haRows : a ∈ t.rows := (List.mem_filter.mp (hSort.mem_iff.mp ha)).1
  have hbRows : b ∈ t.rows := (List.mem_filter.mp (List.mem_reverse.mp hb)).1
  exact Table.eq_of_key haRows hbRows (Int.le_antisymm hAB hBA)

/-- Consecutive pages of `size` rows are the rows up to the last page's end. -/
theorem flatMap_pages {α : Type} (xs : List α) (size n : Nat) :
    (List.range n).flatMap (fun page => (xs.drop (page * size)).take size) = xs.take (n * size) := by
  induction n with
  | zero => simp
  | succ n ih =>
    calc
      (List.range (n + 1)).flatMap (fun page => (xs.drop (page * size)).take size)
        = xs.take (n * size) ++ (xs.drop (n * size)).take size := by
          rw [List.range_succ, List.flatMap_append, ih, List.flatMap_singleton]
      _ = xs.take (n * size + size) := (List.take_add ..).symm
      _ = xs.take ((n + 1) * size) := by rw [Nat.succ_mul]

end Relational

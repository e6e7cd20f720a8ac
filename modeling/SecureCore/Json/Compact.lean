import SecureCore.Json.Value
import Mathlib.Data.List.TakeWhile

/-! # Compact JSON texts

A printer that puts no blanks between tokens, and a reader of what it prints. Doubles are
written by their bits, everything else as JSON has it. -/

set_option autoImplicit false

namespace Json

/-! ## The printer -/

/-- The control characters with an escape of two characters, and its second one. -/
def shortEscapes : List (Char × Char) :=
  [('\x08', 'b'), ('\t', 't'), ('\n', 'n'), ('\x0c', 'f'), ('\r', 'r')]

def escaped (c : Char) : List Char :=
  if c = '"' ∨ c = '\\' then ['\\', c]
  else match shortEscapes.find? (fun escape => escape.1 == c) with
    | some escape => ['\\', escape.2]
    | none =>
      if c.toNat < 0x20 then
        ['\\', 'u', '0', '0', Nat.digitChar (c.toNat / 16), Nat.digitChar (c.toNat % 16)]
      else [c]

def printString (value : String) : List Char := '"' :: (value.toList.flatMap escaped ++ ['"'])

def printInteger : Int → List Char
  | .ofNat n => Nat.toDigits 10 n
  | .negSucc n => '-' :: Nat.toDigits 10 (n + 1)

def separator (first : Bool) : List Char := if first then [] else [',']

mutual

def print : Json → List Char
  | null => "null".toList
  | boolean true => "true".toList
  | boolean false => "false".toList
  | integer value => printInteger value
  | float bits => '~' :: Nat.toDigits 10 bits.toNat
  | string value => printString value
  | array items => '[' :: printItems true items
  | object members => '{' :: printMembers true members

def printItems (first : Bool) : List Json → List Char
  | [] => [']']
  | item :: items => separator first ++ print item ++ printItems false items

def printMembers (first : Bool) : Members → List Char
  | [] => ['}']
  | (key, value) :: members =>
    separator first ++ printString key ++ ':' :: print value ++ printMembers false members

end

/-! ## The reader -/

def expect (word input : List Char) : Option (List Char) :=
  if word.isPrefixOf input then some (input.drop word.length) else none

def readDigits (input : List Char) : Nat × List Char :=
  (Nat.ofDigitChars 10 (input.takeWhile Char.isDigit) 0, input.dropWhile Char.isDigit)

def hexValue (c : Char) : Nat := if c.isDigit then c.toNat - 48 else c.toNat - 87

/-- The rest of a string, from behind the opening quote. -/
def readText : Nat → List Char → Option (List Char × List Char)
  | 0, _ => none
  | _ + 1, [] => none
  | fuel + 1, c :: rest =>
    if c = '"' then some ([], rest)
    else if c = '\\' then
      match rest with
      | [] => none
      | e :: rest =>
        if e = '"' ∨ e = '\\' then (readText fuel rest).map (fun (text, rest) => (e :: text, rest))
        else match shortEscapes.find? (fun escape => escape.2 == e) with
          | some escape => (readText fuel rest).map (fun (text, rest) => (escape.1 :: text, rest))
          | none => (readText fuel (rest.drop 4)).map (fun (text, behind) =>
            (Char.ofNat (16 * hexValue (rest.getD 2 '0') + hexValue (rest.getD 3 '0')) :: text, behind))
    else (readText fuel rest).map (fun (text, rest) => (c :: text, rest))

def readString (fuel : Nat) (input : List Char) : Option (String × List Char) := do
  let input ← expect ['"'] input
  let (text, input) ← readText fuel input
  some (String.ofList text, input)

mutual

def read : Nat → List Char → Option (Json × List Char)
  | 0, _ => none
  | _ + 1, [] => none
  | fuel + 1, c :: rest =>
    if c = 'n' then (expect "ull".toList rest).map (fun rest => (null, rest))
    else if c = 't' then (expect "rue".toList rest).map (fun rest => (boolean true, rest))
    else if c = 'f' then (expect "alse".toList rest).map (fun rest => (boolean false, rest))
    else if c = '~' then some (float (BitVec.ofNat 64 (readDigits rest).1), (readDigits rest).2)
    else if c = '-' then some (integer (-(readDigits rest).1), (readDigits rest).2)
    else if c = '"' then (readString (fuel + 1) (c :: rest)).map (fun (text, rest) => (string text, rest))
    else if c = '[' then (readItems fuel true rest).map (fun (items, rest) => (array items, rest))
    else if c = '{' then
      (readMembers fuel true rest).map (fun (members, rest) => (object members, rest))
    else if c.isDigit then some (integer (readDigits (c :: rest)).1, (readDigits (c :: rest)).2)
    else none

def readItems : Nat → Bool → List Char → Option (List Json × List Char)
  | 0, _, _ => none
  | fuel + 1, first, input =>
    if input.head? = some ']' then some ([], input.tail)
    else do
      let input ← expect (separator first) input
      let (item, input) ← read fuel input
      let (items, input) ← readItems fuel false input
      some (item :: items, input)

def readMembers : Nat → Bool → List Char → Option (Members × List Char)
  | 0, _, _ => none
  | fuel + 1, first, input =>
    if input.head? = some '}' then some ([], input.tail)
    else do
      let input ← expect (separator first) input
      let (key, input) ← readString fuel input
      let input ← expect [':'] input
      let (value, input) ← read fuel input
      let (members, input) ← readMembers fuel false input
      some ((key, value) :: members, input)

end

/-! ## What is printed can be read -/

theorem expect_append (word rest : List Char) : expect word (word ++ rest) = some rest := by
  unfold expect
  rw [if_pos (by simp), List.drop_left]

def Stops (rest : List Char) : Prop := ∀ c ∈ rest.head?, c.isDigit = false

theorem readDigits_toDigits (n : Nat) {rest : List Char} (h : Stops rest) :
    readDigits (Nat.toDigits 10 n ++ rest) = (n, rest) := by
  have hDigits : ∀ c ∈ Nat.toDigits 10 n, c.isDigit = true :=
    fun c hc => Nat.isDigit_of_mem_toDigits (by decide) (by decide) hc
  have hRest : rest.takeWhile Char.isDigit = [] ∧ rest.dropWhile Char.isDigit = rest := by
    cases rest with
    | nil => exact ⟨rfl, rfl⟩
    | cons c rest =>
      have hStop : c.isDigit = false := h c rfl
      simp [hStop]
  unfold readDigits
  rw [List.takeWhile_append_of_pos hDigits, List.dropWhile_append_of_pos hDigits, hRest.1, hRest.2,
    List.append_nil, Nat.ofDigitChars_ten_toDigits]

theorem hexValue_digitChar {n : Nat} (h : n < 16) : hexValue (Nat.digitChar n) = n := by
  have hEach : ∀ i : Fin 16, hexValue (Nat.digitChar i) = i := by decide
  exact hEach ⟨n, h⟩

theorem escaped_ne_nil (c : Char) : 0 < (escaped c).length := by
  unfold escaped
  split
  · exact Nat.zero_lt_succ _
  · split
    · exact Nat.zero_lt_succ _
    · split <;> exact Nat.zero_lt_succ _

/-- The reader finds the escape that the printer has found. -/
theorem shortEscapes_read {c : Char} {escape : Char × Char}
    (h : shortEscapes.find? (fun escape => escape.1 == c) = some escape) :
    ¬(escape.2 = '"' ∨ escape.2 = '\\') ∧
      shortEscapes.find? (fun other => other.2 == escape.2) = some (c, escape.2) := by
  have hEach : ∀ escape ∈ shortEscapes, ¬(escape.2 = '"' ∨ escape.2 = '\\') ∧
      shortEscapes.find? (fun other => other.2 == escape.2) = some (escape.1, escape.2) := by decide
  have hSame : (escape.1 == c) = true := List.find?_some (p := fun escape : Char × Char => escape.1 == c) h
  rw [← beq_iff_eq.mp hSame]
  exact hEach escape (List.mem_of_find?_eq_some h)

theorem readText_step (c : Char) (fuel : Nat) (input : List Char) :
    readText (fuel + 1) (escaped c ++ input) =
      (readText fuel input).map (fun (text, rest) => (c :: text, rest)) := by
  unfold escaped
  split
  · rename_i hQuote
    simp only [List.cons_append, List.nil_append, readText]
    rw [if_neg (by decide), if_pos trivial, if_pos hQuote]
  · rename_i hPlain
    rw [not_or] at hPlain
    split
    · rename_i escape hFound
      obtain ⟨hEscape, hRead⟩ := shortEscapes_read hFound
      simp only [List.cons_append, List.nil_append, readText]
      rw [if_neg (by decide), if_pos trivial, if_neg hEscape, hRead]
    · split
      · have hValue : Char.ofNat (16 * (c.toNat / 16) + c.toNat % 16) = c := by
          rw [Nat.div_add_mod, Char.ofNat_toNat]
        have hUnicode : shortEscapes.find? (fun escape => escape.2 == 'u') = none := by decide
        simp only [List.cons_append, List.nil_append, readText]
        rw [if_neg (by decide), if_pos trivial, if_neg (by decide), hUnicode]
        simp only [List.drop_succ_cons, List.drop_zero, List.getD_cons_succ, List.getD_cons_zero]
        rw [hexValue_digitChar (by omega), hexValue_digitChar (by omega), hValue]
      · simp only [List.cons_append, List.nil_append, readText]
        rw [if_neg hPlain.1, if_neg hPlain.2]

theorem readText_escaped (text rest : List Char) {fuel : Nat}
    (hFuel : (text.flatMap escaped).length < fuel) :
    readText fuel (text.flatMap escaped ++ '"' :: rest) = some (text, rest) := by
  induction text generalizing fuel with
  | nil =>
    cases fuel with
    | zero => cases hFuel
    | succ fuel => rfl
  | cons c text ih =>
    cases fuel with
    | zero => cases hFuel
    | succ fuel =>
      have hHead := escaped_ne_nil c
      rw [List.flatMap_cons, List.length_append] at hFuel
      rw [List.flatMap_cons, List.append_assoc, readText_step, ih (by omega)]
      rfl

theorem readString_print (value : String) (rest : List Char) (fuel : Nat)
    (hFuel : (printString value).length < fuel) :
    readString fuel (printString value ++ rest) = some (value, rest) := by
  unfold printString at hFuel ⊢
  rw [List.length_cons, List.length_append, List.length_singleton] at hFuel
  have hText : readText fuel _ = some _ := readText_escaped value.toList rest (by omega)
  have hQuote := expect_append ['"'] (value.toList.flatMap escaped ++ '"' :: rest)
  unfold readString
  rw [List.cons_append, List.append_assoc, List.singleton_append]
  rw [List.singleton_append] at hQuote
  rw [hQuote, Option.bind_eq_bind, Option.bind_some, hText]
  simp

theorem print_head (value : Json) : ∃ c rest, print value = c :: rest ∧ c ≠ ']' := by
  cases value with
  | null => exact ⟨_, _, rfl, by decide⟩
  | boolean value => cases value <;> exact ⟨_, _, rfl, by decide⟩
  | integer value =>
    cases value with
    | ofNat n =>
      rw [print, printInteger]
      cases hDigits : Nat.toDigits 10 n with
      | nil => exact absurd hDigits Nat.toDigits_ne_nil
      | cons c rest =>
        refine ⟨c, rest, rfl, ?_⟩
        rintro rfl
        have hDigit : ']'.isDigit = true := Nat.isDigit_of_mem_toDigits (by decide) (by decide)
          (hDigits ▸ List.mem_cons_self)
        cases hDigit
    | negSucc n => exact ⟨_, _, rfl, by decide⟩
  | float bits => exact ⟨_, _, rfl, by decide⟩
  | string value => exact ⟨_, _, rfl, by decide⟩
  | array items => exact ⟨_, _, rfl, by decide⟩
  | object members => exact ⟨_, _, rfl, by decide⟩

theorem print_length (value : Json) : 0 < (print value).length := by
  obtain ⟨c, rest, hPrint, -⟩ := print_head value
  rw [hPrint]
  exact Nat.zero_lt_succ _

theorem printItems_length (first : Bool) (items : List Json) : 0 < (printItems first items).length := by
  cases items with
  | nil => exact Nat.zero_lt_succ _
  | cons item items =>
    have hItem := print_length item
    rw [printItems, List.length_append, List.length_append]
    omega

theorem stops_printItems (items : List Json) (rest : List Char) : Stops (printItems false items ++ rest) := by
  intro c hc
  cases items with
  | nil =>
    cases hc
    rfl
  | cons item items =>
    cases hc
    rfl

theorem stops_printMembers (members : Members) (rest : List Char) :
    Stops (printMembers false members ++ rest) := by
  intro c hc
  cases members with
  | nil =>
    cases hc
    rfl
  | cons member members =>
    cases hc
    rfl

theorem read_digits (n : Nat) {rest : List Char} (h : Stops rest) {fuel : Nat} (hFuel : 0 < fuel) :
    read fuel (Nat.toDigits 10 n ++ rest) = some (integer n, rest) := by
  have hRead := readDigits_toDigits n h
  cases fuel with
  | zero => cases hFuel
  | succ fuel =>
    cases hDigits : Nat.toDigits 10 n with
    | nil => exact absurd hDigits Nat.toDigits_ne_nil
    | cons c digits =>
      have hDigit : c.isDigit = true := Nat.isDigit_of_mem_toDigits (by decide) (by decide)
        (hDigits ▸ List.mem_cons_self)
      have hNe : ∀ other : Char, other.isDigit = false → c ≠ other := by
        rintro other hOther rfl
        rw [hDigit] at hOther
        cases hOther
      rw [hDigits] at hRead
      rw [List.cons_append] at hRead ⊢
      rw [read, if_neg (hNe 'n' rfl), if_neg (hNe 't' rfl), if_neg (hNe 'f' rfl), if_neg (hNe '~' rfl),
        if_neg (hNe '-' rfl), if_neg (hNe '"' rfl), if_neg (hNe '[' rfl), if_neg (hNe '{' rfl),
        if_pos hDigit, hRead]

mutual

theorem read_print (value : Json) (fuel : Nat) (rest : List Char)
    (hFuel : (print value).length < fuel) (hRest : Stops rest) :
    read fuel (print value ++ rest) = some (value, rest) := by
  cases fuel with
  | zero => cases hFuel
  | succ fuel =>
    match value with
    | null => rfl
    | boolean true => rfl
    | boolean false => rfl
    | integer (.ofNat n) => exact read_digits n hRest (Nat.zero_lt_succ _)
    | integer (.negSucc n) =>
      rw [print, printInteger, List.cons_append, read]
      simp only [readDigits_toDigits (n + 1) hRest]
      rfl
    | float bits =>
      rw [print, List.cons_append, read]
      simp only [readDigits_toDigits bits.toNat hRest, BitVec.ofNat_toNat, BitVec.setWidth_eq]
      rfl
    | string value =>
      rw [print] at hFuel ⊢
      have hText := readString_print value rest (fuel + 1) hFuel
      rw [printString, List.cons_append] at hText ⊢
      rw [read, hText]
      rfl
    | array items =>
      rw [print, List.length_cons] at hFuel
      have hItems := readItems_print items true fuel rest (by omega)
      rw [print, List.cons_append, read, hItems]
      rfl
    | object members =>
      rw [print, List.length_cons] at hFuel
      have hMembers := readMembers_print members true fuel rest (by omega)
      rw [print, List.cons_append, read, hMembers]
      rfl

theorem readItems_print (items : List Json) (first : Bool) (fuel : Nat) (rest : List Char)
    (hFuel : (printItems first items).length < fuel) :
    readItems fuel first (printItems first items ++ rest) = some (items, rest) := by
  cases fuel with
  | zero => cases hFuel
  | succ fuel =>
    match items with
    | [] => rfl
    | item :: items =>
      rw [printItems, List.length_append, List.length_append] at hFuel
      have hLength := print_length item
      have hRest := printItems_length false items
      have hItem := read_print item fuel (printItems false items ++ rest) (by omega)
        (stops_printItems items rest)
      have hItems := readItems_print items false fuel rest (by omega)
      have hHead : (separator first ++ print item ++ printItems false items ++ rest).head? ≠ some ']' := by
        cases first with
        | false => simp [separator]
        | true =>
          obtain ⟨c, text, hPrint, hNe⟩ := print_head item
          simp [separator, hPrint, hNe]
      rw [printItems, readItems, if_neg hHead, List.append_assoc, List.append_assoc, expect_append]
      simp only [Option.bind_eq_bind, Option.bind_some, hItem, hItems]

theorem readMembers_print (members : Members) (first : Bool) (fuel : Nat) (rest : List Char)
    (hFuel : (printMembers first members).length < fuel) :
    readMembers fuel first (printMembers first members ++ rest) = some (members, rest) := by
  cases fuel with
  | zero => cases hFuel
  | succ fuel =>
    match members with
    | [] => rfl
    | (key, value) :: members =>
      rw [printMembers, List.length_append, List.length_append, List.length_append,
        List.length_cons] at hFuel
      have hKey := readString_print key
        (':' :: (print value ++ (printMembers false members ++ rest))) fuel (by omega)
      have hValue := read_print value fuel (printMembers false members ++ rest) (by omega)
        (stops_printMembers members rest)
      have hMembers := readMembers_print members false fuel rest (by omega)
      have hColon := expect_append [':'] (print value ++ (printMembers false members ++ rest))
      have hHead : (separator first ++ printString key ++ ':' :: print value ++
          printMembers false members ++ rest).head? ≠ some '}' := by
        cases first <;> simp [separator, printString]
      rw [printMembers, readMembers, if_neg hHead]
      simp only [List.append_assoc, List.cons_append, List.nil_append, expect_append,
        Option.bind_eq_bind, Option.bind_some, hKey] at hColon ⊢
      simp only [hColon, Option.bind_some, hValue, hMembers]

end

/-! ## Texts -/

def printText (value : Json) : String := String.ofList (print value)

def readWhole (text : String) : Option Json :=
  match read (text.length + 1) text.toList with
  | some (value, []) => some value
  | _ => none

theorem readWhole_printText (value : Json) : readWhole (printText value) = some value := by
  have hRead := read_print value ((printText value).length + 1) [] (by simp [printText]) (by simp [Stops])
  rw [List.append_nil] at hRead
  unfold readWhole
  rw [show (printText value).toList = print value from String.toList_ofList, hRead]

end Json

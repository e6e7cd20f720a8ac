import Mathlib.Logic.Relation
import SecureCore.Config.Precedence

/-! # Files that say the same

Remarks, padding and the order of lines for different keys do not matter. -/

namespace SecureCore

set_option autoImplicit false

namespace ServerConfig

variable {line before after key value : List Char}

/-! ## Single lines -/

/-- A blank line or a comment. -/
def IsRemark (line : List Char) : Prop :=
  (∀ c ∈ line, isBlank c = true) ∨
    ∃ blanks rest, (∀ c ∈ blanks, isBlank c = true) ∧ line = blanks ++ '#' :: rest

theorem dropWhile_stop {p : Char → Bool} {c : Char} (h : p c = false) (before after : List Char) :
    (before ++ c :: after).dropWhile p = before.dropWhile p ++ c :: after := by
  rw [List.dropWhile_append]
  split
  · rename_i hEmpty
    rw [List.isEmpty_iff.mp hEmpty, List.dropWhile_cons_of_neg (by rw [h]; exact Bool.false_ne_true)]
    rfl
  · rfl

/-- A character that is not blank parts what is trimmed off on both sides. -/
theorem trimChars_stop {c : Char} (h : isBlank c = false) (before after : List Char) :
    trimChars (before ++ c :: after) = before.dropWhile isBlank ++ c :: after.rdropWhile isBlank := by
  rw [trimChars, dropWhile_stop h, List.rdropWhile, List.reverse_append, List.reverse_cons, List.append_assoc,
    List.singleton_append, dropWhile_stop h, List.reverse_append, List.reverse_cons, List.reverse_reverse,
    List.append_assoc]
  rfl

theorem trimChars_dropWhile (value : List Char) : trimChars (value.dropWhile isBlank) = trimChars value := by
  rw [trimChars, List.dropWhile_idempotent, trimChars]

theorem trimChars_rdropWhile (value : List Char) : trimChars (value.rdropWhile isBlank) = trimChars value := by
  have hBlanks : ∀ c ∈ value.rtakeWhile isBlank, isBlank c = true := fun c hc => List.mem_rtakeWhile_imp hc
  rw [← trimChars_append_blank hBlanks, List.rdropWhile_append_rtakeWhile]

theorem readLine_remark (h : IsRemark line) : readLine line = .skipped := by
  rw [readLine]
  rcases h with hBlank | ⟨blanks, rest, hBlanks, rfl⟩
  · have hEmpty : trimChars line = [] := by
      rw [trimChars, List.dropWhile_eq_nil_iff.mpr hBlank]
      rfl
    rw [hEmpty]
    rfl
  · rw [trimChars_stop rfl, List.dropWhile_eq_nil_iff.mpr hBlanks]
    rfl

/-- A line is read around its first separator. -/
theorem readLine_separated (h : '=' ∉ before) : readLine (before ++ '=' :: after) =
    if (before.dropWhile isBlank).head? = some '#' then .skipped
    else if trimChars before = [] ∨ trimChars after = [] then .incomplete
    else .assignment (trimChars before) (trimChars after) := by
  have hBefore : '=' ∉ before.dropWhile isBlank := fun hMem => h ((List.dropWhile_sublist _).subset hMem)
  have hHead : (before.dropWhile isBlank ++ '=' :: after.rdropWhile isBlank).head? = some '#' ↔
      (before.dropWhile isBlank).head? = some '#' := by
    cases before.dropWhile isBlank with
    | nil => exact iff_of_false (by simp) nofun
    | cons first rest => exact Iff.rfl
  have hNonempty : (before.dropWhile isBlank ++ '=' :: after.rdropWhile isBlank).isEmpty = false := by simp
  have hSeparator : (before.dropWhile isBlank ++ '=' :: after.rdropWhile isBlank).contains '=' = true := by simp
  rw [readLine]
  dsimp only
  rw [trimChars_stop rfl, takeWhile_ne hBefore, dropWhile_ne hBefore, List.drop_succ_cons, List.drop_zero,
    trimChars_dropWhile, trimChars_rdropWhile, hNonempty, hSeparator]
  simp only [Bool.false_or, beq_iff_eq, hHead, Bool.not_true, Bool.false_eq_true, if_false, Bool.or_eq_true,
    List.isEmpty_iff]

/-- The line with blanks around its key and its value. -/
theorem readLine_padded {left beforeSeparator behindSeparator right : List Char} (hKey : '=' ∉ key)
    (hLeft : ∀ c ∈ left, isBlank c = true) (hBefore : ∀ c ∈ beforeSeparator, isBlank c = true)
    (hBehind : ∀ c ∈ behindSeparator, isBlank c = true) (hRight : ∀ c ∈ right, isBlank c = true) :
    readLine (left ++ key ++ beforeSeparator ++ '=' :: (behindSeparator ++ value ++ right)) =
      readLine (key ++ '=' :: value) := by
  have hBlank : ∀ {blanks : List Char}, (∀ c ∈ blanks, isBlank c = true) → '=' ∉ blanks :=
    fun hBlanks hMem => Bool.false_ne_true (hBlanks '=' hMem)
  have hPadded : '=' ∉ left ++ key ++ beforeSeparator := by
    rw [List.mem_append, List.mem_append, not_or, not_or]
    exact ⟨⟨hBlank hLeft, hKey⟩, hBlank hBefore⟩
  have hHead : ((left ++ key ++ beforeSeparator).dropWhile isBlank).head? = some '#' ↔
      (key.dropWhile isBlank).head? = some '#' := by
    rw [List.append_assoc, List.dropWhile_append_of_pos hLeft, List.dropWhile_append]
    split
    · rename_i hEmpty
      rw [List.isEmpty_iff.mp hEmpty, List.dropWhile_eq_nil_iff.mpr hBefore]
    · rename_i hNonempty
      cases hKept : key.dropWhile isBlank with
      | nil =>
        rw [hKept] at hNonempty
        exact absurd rfl hNonempty
      | cons first rest => exact Iff.rfl
  rw [readLine_separated hPadded, readLine_separated hKey, trimChars_append_blank hBefore,
    trimChars_blank_append hLeft, trimChars_append_blank hRight, trimChars_blank_append hBehind]
  simp only [hHead]

/-! ## Whole files -/

/-- One change that leaves the meaning of the lines alone. -/
inductive Rearrangement : List (List Char) → List (List Char) → Prop
  | remark {lines rest : List (List Char)} {line : List Char} (h : IsRemark line) :
    Rearrangement (lines ++ rest) (lines ++ line :: rest)
  | padding {lines rest : List (List Char)} {key value left beforeSeparator behindSeparator right : List Char}
    (hKey : '=' ∉ key) (hLeft : ∀ c ∈ left, isBlank c = true) (hBefore : ∀ c ∈ beforeSeparator, isBlank c = true)
    (hBehind : ∀ c ∈ behindSeparator, isBlank c = true) (hRight : ∀ c ∈ right, isBlank c = true) :
    Rearrangement (lines ++ (key ++ '=' :: value) :: rest)
      (lines ++ (left ++ key ++ beforeSeparator ++ '=' :: (behindSeparator ++ value ++ right)) :: rest)
  | exchange {lines rest : List (List Char)} {first second firstKey secondKey firstValue secondValue : List Char}
    (hFirst : readLine first = .assignment firstKey firstValue)
    (hSecond : readLine second = .assignment secondKey secondValue) (hKeys : firstKey ≠ secondKey) :
    Rearrangement (lines ++ first :: second :: rest) (lines ++ second :: first :: rest)

/-- Lines that are read with the same success and assign the same. -/
structure Alike (lines others : List (List Char)) : Prop where
  readable : (∀ line ∈ lines, (lineEntries line).isSome = true) ↔ ∀ line ∈ others, (lineEntries line).isSome = true
  assigned : ∀ settings : ConfigKey → SettingValue,
    Layered.assign settings (Layered.entries lineEntries lines) =
      Layered.assign settings (Layered.entries lineEntries others)

theorem lineEntries_congr {other : List Char} (h : readLine line = readLine other) :
    lineEntries line = lineEntries other := by
  rw [lineEntries, lineEntries, h]

/-- Two lines for different keys can change places. -/
theorem assign_exchange {first second firstKey secondKey firstValue secondValue : List Char}
    (hFirst : readLine first = .assignment firstKey firstValue)
    (hSecond : readLine second = .assignment secondKey secondValue) (hKeys : firstKey ≠ secondKey)
    (settings : ConfigKey → SettingValue) (layer rest : List (ConfigKey × SettingValue)) :
    Layered.assign settings (layer ++ ((lineEntries first).getD [] ++ ((lineEntries second).getD [] ++ rest))) =
      Layered.assign settings (layer ++ ((lineEntries second).getD [] ++ ((lineEntries first).getD [] ++ rest))) := by
  cases hOne : lineEntries first with
  | none => rfl
  | some firstLayer =>
    cases hTwo : lineEntries second with
    | none => rfl
    | some secondLayer =>
      rcases lineEntries_eq_some hOne with ⟨hSkipped, -⟩ | ⟨key, value, setting, hLine, -, rfl⟩
      · rw [hFirst] at hSkipped
        cases hSkipped
      · rcases lineEntries_eq_some hTwo with ⟨hSkipped, -⟩ | ⟨other, otherValue, otherSetting, hOther, -, rfl⟩
        · rw [hSecond] at hSkipped
          cases hSkipped
        · rw [hFirst] at hLine
          rw [hSecond] at hOther
          cases hLine
          cases hOther
          refine Layered.assign_swap (fun hSame => hKeys ?_)
          rw [show key = other from hSame]

theorem alike_of_rearrangement {lines others : List (List Char)} (h : Rearrangement lines others) :
    Alike lines others := by
  cases h with
  | @remark _ _ line hRemark =>
    have hEntries : lineEntries line = some [] := by rw [lineEntries, readLine_remark hRemark]
    refine ⟨?_, fun settings => ?_⟩
    · simp only [List.forall_mem_append, List.forall_mem_cons, hEntries, Option.isSome_some, true_and]
    · rw [Layered.entries_append, Layered.entries_append, Layered.entries_cons, hEntries]
      rfl
  | padding hKey hLeft hBefore hBehind hRight =>
    have hEntries := fun value =>
      lineEntries_congr (@readLine_padded _ value _ _ _ _ hKey hLeft hBefore hBehind hRight)
    refine ⟨?_, fun settings => ?_⟩
    · simp only [List.forall_mem_append, List.forall_mem_cons, hEntries]
    · rw [Layered.entries_append, Layered.entries_append, Layered.entries_cons, Layered.entries_cons, hEntries]
  | exchange hFirst hSecond hKeys =>
    refine ⟨?_, fun settings => ?_⟩
    · simp only [List.forall_mem_append, List.forall_mem_cons]
      tauto
    · simp only [Layered.entries_append, Layered.entries_cons]
      exact assign_exchange hFirst hSecond hKeys settings _ _

theorem alike_of_eqvGen {lines others : List (List Char)} (h : Relation.EqvGen Rearrangement lines others) :
    Alike lines others := by
  induction h with
  | rel _ _ hStep => exact alike_of_rearrangement hStep
  | refl _ => exact ⟨Iff.rfl, fun _ => rfl⟩
  | symm _ _ _ ih => exact ⟨ih.readable.symm, fun settings => (ih.assigned settings).symm⟩
  | trans _ _ _ _ _ ih ih' =>
    exact ⟨ih.readable.trans ih'.readable, fun settings => (ih.assigned settings).trans (ih'.assigned settings)⟩

/-! ## The law of precedence -/

/-- A line that says nothing, or gives a known key a value in its syntax and range. -/
def IsReadable (line : List Char) : Prop :=
  readLine line = .skipped ∨ ∃ (key : ConfigKey) (value : List Char),
    readLine line = .assignment key.name.toList value ∧ (key.rule.read value).isSome = true

theorem lineEntries_isSome : (lineEntries line).isSome = true ↔ IsReadable line := by
  constructor
  · intro h
    obtain ⟨layer, hLayer⟩ := Option.isSome_iff_exists.mp h
    rcases lineEntries_eq_some hLayer with ⟨hSkipped, -⟩ | ⟨key, value, setting, hLine, hRead, -⟩
    · exact .inl hSkipped
    · exact .inr ⟨key, value, hLine, by rw [hRead]; rfl⟩
  · rintro (hSkipped | ⟨key, value, hLine, hRead⟩)
    · rw [lineEntries, hSkipped]
      rfl
    · rw [lineEntries, hLine]
      dsimp only
      rw [readAssignment_name, Option.isSome_map, Option.isSome_map]
      exact hRead

theorem variableEntries_isSome {environment : String → Option (List Char)} {key : ConfigKey} :
    (variableEntries environment key).isSome = true ↔ ∀ rawValue, environment key.variableName = some rawValue →
      trimChars rawValue ≠ [] ∧ (key.rule.read (trimChars rawValue)).isSome = true := by
  rw [variableEntries]
  cases environment key.variableName with
  | none => exact iff_of_true rfl (fun _ hNone => by cases hNone)
  | some value =>
    dsimp only
    simp only [Option.some.injEq, forall_eq']
    split
    · rename_i hEmpty
      exact iff_of_false Bool.false_ne_true (fun h => h.1 hEmpty)
    · rename_i hNonempty
      rw [Option.isSome_map, and_iff_right hNonempty]

/-- A file is loaded if and only if its lines and the variables can be read and what they make
out of the defaults is valid. A setting is what its variable says, else its last line, else its
default. The variable of a key is SECURECORE_ and the key in capitals. -/
theorem load_from_file_precedence (text : AddressText) (environment : String → Option (List Char))
    (path input : List Char) (config : ServerConfig) :
    (∀ key : ConfigKey, ConfigKey.bytes key.variableName =
      ConfigKey.bytes "SECURECORE_" ++ (ConfigKey.bytes key.name).map ConfigKey.upperByte) ∧
    (loadFromFile text environment path (some input) = .ok config ↔
      (∀ line ∈ readLines input, IsReadable line) ∧
        (∀ key : ConfigKey, ∀ rawValue, environment key.variableName = some rawValue →
          trimChars rawValue ≠ [] ∧ (key.rule.read (trimChars rawValue)).isSome = true) ∧
        (∀ key, match settingText environment (readLines input) key with
          | some value => key.rule.read value = some (config.get key)
          | none => config.get key = ({} : ServerConfig).get key) ∧
        config.Valid text) ∧
      ∀ other, Relation.EqvGen Rearrangement (readLines input) (readLines other) →
        (loadFromFile text environment path (some input) = .ok config ↔
          loadFromFile text environment path (some other) = .ok config) := by
  refine ⟨ConfigKey.variableName_bytes, ?_, fun other hOther => ?_⟩
  · rw [loadFromFile_eq_ok]
    simp only [lineEntries_isSome, variableEntries_isSome]
    refine and_congr_right (fun hLines => and_congr_right (fun hVariables => and_congr_left (fun _ => ?_)))
    have hLayered := layered_apply (fun line hLine => lineEntries_isSome.mpr (hLines line hLine))
      (fun key => variableEntries_isSome.mpr (hVariables key))
    constructor
    · intro hGet key
      rw [hGet]
      exact hLayered key
    · intro hGet
      funext key
      have hKey := hGet key
      have hSame := hLayered key
      split at hKey
      · rename_i hText
        rw [hText] at hSame
        exact Option.some.inj (hKey.symm.trans hSame)
      · rename_i hText
        rw [hText] at hSame
        exact hKey.trans hSame.symm
  · have hAlike := alike_of_eqvGen hOther
    rw [loadFromFile_eq_ok, loadFromFile_eq_ok, hAlike.readable, layered, layered, hAlike.assigned]

theorem load_from_file_precedence_sample :
    loadFromFile ⟨fun _ => none, fun _ => []⟩ (fun _ => none) [] (some "worker_threads=2\nio_threads=8".toList) =
      .ok { ioThreads := 8, workerThreads := 2 } := by
  have hRead : readLines "io_threads=8\nworker_threads=2".toList =
      [] ++ "io_threads=8".toList :: "worker_threads=2".toList :: [] := by decide
  have hOther : readLines "worker_threads=2\nio_threads=8".toList =
      [] ++ "worker_threads=2".toList :: "io_threads=8".toList :: [] := by decide
  have hExchange : Rearrangement (readLines "io_threads=8\nworker_threads=2".toList)
      (readLines "worker_threads=2\nio_threads=8".toList) := by
    rw [hRead, hOther]
    exact .exchange (by rfl) (by rfl) (by decide : "io_threads".toList ≠ "worker_threads".toList)
  refine ((load_from_file_precedence ⟨fun _ => none, fun _ => []⟩ (fun _ => none) []
    "io_threads=8\nworker_threads=2".toList _).2.2 _ (.rel _ _ hExchange)).mp ?_
  rfl

/-- The syntax of a key together with what the validation demands of its value. -/
def InSyntax (text : AddressText) (key : ConfigKey) (value : List Char) : Prop :=
  ∃ setting, key.rule.read value = some setting ∧
    match key, setting with
    | .environment, .text name => name ∈ ["development".toList, "test".toList, "production".toList]
    | .trustedProxyCidrs, .list cidrs => ∀ cidr ∈ cidrs, ValidCidr text cidr
    | .corsAllowedOrigins, .list origins => ∀ origin ∈ origins, validCorsOrigin origin = true
    | _, _ => True

def shadowedEnvironment : List Char := "environment=staging\nenvironment=test".toList

/-- A value that a later line replaces is not validated. -/
theorem load_from_file_keeps_shadowed_values :
    ¬∀ (text : AddressText) (environment : String → Option (List Char)) (path input : List Char)
      (config : ServerConfig), loadFromFile text environment path (some input) = .ok config →
        ∀ line ∈ readLines input, ∀ (key : ConfigKey) (value : List Char),
          readLine line = .assignment key.name.toList value → InSyntax text key value := by
  intro h
  have hLoaded : loadFromFile ⟨fun _ => none, fun _ => []⟩ (fun _ => none) [] (some shadowedEnvironment) =
      .ok { environment := "test".toList } := by
    rfl
  obtain ⟨setting, hRead, hName⟩ := h _ _ _ _ _ hLoaded "environment=staging".toList (by decide) .environment
    "staging".toList (by decide)
  cases hRead
  revert hName
  decide

end ServerConfig

end SecureCore

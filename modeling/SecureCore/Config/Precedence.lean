import SecureCore.Config.Settings
import SecureCore.Config.Validity

/-! # Which value a setting has

The lines of a file are one layer of assignments, and the variables of the environment are the
next. -/

namespace SecureCore

set_option autoImplicit false

open TrustedProxyResolver

namespace ServerConfig

variable {config : ServerConfig} {text : AddressText} {environment : String → Option (List Char)}

theorem get_injective : Function.Injective get := by
  intro first second h
  have hValues : first.values = second.values := by
    rw [values, values, h]
  cases first
  cases second
  simpa only [values, ConfigKey.all, List.map_cons, List.map_nil, get, List.cons.injEq, SettingValue.text.injEq,
    SettingValue.number.injEq, SettingValue.flag.injEq, SettingValue.list.injEq, and_true, mk.injEq] using hValues

/-! ## What lines and variables assign -/

def readAssignment (keyText value : List Char) : Option (ConfigKey × SettingValue) :=
  (ConfigKey.named? keyText).bind (fun key => (key.rule.read value).map (fun setting => (key, setting)))

/-- The layer that a line is. -/
def lineEntries (rawLine : List Char) : Option (List (ConfigKey × SettingValue)) :=
  match readLine rawLine with
  | .skipped => some []
  | .missingSeparator => none
  | .incomplete => none
  | .assignment key value => (readAssignment key value).map List.singleton

/-- The layer that the variable of a key is. -/
def variableEntries (environment : String → Option (List Char)) (key : ConfigKey) :
    Option (List (ConfigKey × SettingValue)) :=
  match environment key.variableName with
  | none => some []
  | some rawValue =>
    if trimChars rawValue = [] then none
    else (key.rule.read (trimChars rawValue)).map (fun setting => [(key, setting)])

theorem readAssignment_name (key : ConfigKey) (value : List Char) :
    readAssignment key.name.toList value = (key.rule.read value).map (fun setting => (key, setting)) := by
  rw [readAssignment, ConfigKey.named?_eq_some.mpr rfl, Option.bind_some]

theorem readAssignment_eq_some {keyText value : List Char} {key : ConfigKey} {setting : SettingValue} :
    readAssignment keyText value = some (key, setting) ↔
      keyText = key.name.toList ∧ key.rule.read value = some setting := by
  constructor
  · intro h
    obtain ⟨other, hNamed, hRead⟩ := Option.bind_eq_some_iff.mp h
    obtain ⟨found, hFound, hPair⟩ := Option.map_eq_some_iff.mp hRead
    cases hPair
    exact ⟨ConfigKey.named?_eq_some.mp hNamed, hFound⟩
  · rintro ⟨rfl, hRead⟩
    rw [readAssignment_name, hRead, Option.map_some]

theorem applySetting_follows (config : ServerConfig) (keyText value : List Char) (source : String) :
    Layered.Follows get config.get (config.applySetting keyText value source)
      ((readAssignment keyText value).map (fun entry => [entry])) := by
  cases hNamed : ConfigKey.named? keyText with
  | none =>
    rw [readAssignment, applySetting, hNamed]
    exact ⟨_, rfl⟩
  | some key =>
    obtain rfl := ConfigKey.named?_eq_some.mp hNamed
    rw [readAssignment_name, Option.map_map]
    exact applySetting_applies config key value source

/-- The loop of load_from_file assigns what the lines say. -/
theorem reads_lines : Layered.Reads (fun numbered : List Char × Nat => lineEntries numbered.1) get loadLine := by
  intro config numbered
  dsimp only
  rw [loadLine, lineEntries]
  cases readLine numbered.1 with
  | skipped => exact ⟨config, rfl, rfl⟩
  | missingSeparator => exact ⟨_, rfl⟩
  | incomplete => exact ⟨_, rfl⟩
  | assignment key value => exact applySetting_follows config key value _

/-- The loop of apply_environment_overrides assigns what the variables say. -/
theorem reads_environment : Layered.Reads (variableEntries environment) get (fun config key =>
    applyEnvironment environment config ⟨key.variableName, key.name⟩) := by
  intro config key
  dsimp only
  rw [applyEnvironment, variableEntries]
  dsimp only
  cases environment key.variableName with
  | none => exact ⟨config, rfl, rfl⟩
  | some rawValue =>
    dsimp only
    split
    · rename_i hEmpty
      rw [if_pos (List.isEmpty_iff.mp hEmpty)]
      exact ⟨_, rfl⟩
    · rename_i hValue
      rw [if_neg (fun hNil => hValue (List.isEmpty_iff.mpr hNil))]
      exact applySetting_applies config key (trimChars rawValue) _

/-! ## load_from_file -/

/-- The settings that the lines and then the variables make out of the defaults. -/
def layered (environment : String → Option (List Char)) (lines : List (List Char)) : ConfigKey → SettingValue :=
  Layered.assign (Layered.assign (get {}) (Layered.entries lineEntries lines))
    (Layered.entries (variableEntries environment) ConfigKey.all)

theorem entries_numbered (lines : List (List Char)) (first : Nat) :
    Layered.entries (fun numbered : List Char × Nat => lineEntries numbered.1) (lines.zipIdx first) =
      Layered.entries lineEntries lines := by
  induction lines generalizing first with
  | nil => rfl
  | cons line lines ih => rw [List.zipIdx_cons, Layered.entries_cons, Layered.entries_cons, ih]

theorem applyEnvironmentOverrides_eq (config : ServerConfig) :
    config.applyEnvironmentOverrides environment = ConfigKey.all.foldlM (fun config key =>
      applyEnvironment environment config ⟨key.variableName, key.name⟩) config := by
  rw [applyEnvironmentOverrides, ConfigKey.environmentMappings_eq, List.foldlM_map]

theorem loadFromFile_eq_ok {path input : List Char} : loadFromFile text environment path (some input) = .ok config ↔
    (∀ line ∈ readLines input, (lineEntries line).isSome = true) ∧
      (∀ key, (variableEntries environment key).isSome = true) ∧
        config.get = layered environment (readLines input) ∧ config.Valid text := by
  constructor
  · intro h
    rw [loadFromFile] at h
    cases hFile : ((readLines input).zipIdx 1).foldlM loadLine {} with
    | error e =>
      rw [hFile] at h
      cases h
    | ok fromFile =>
      rw [hFile] at h
      change (fromFile.applyEnvironmentOverrides environment >>= fun final =>
        final.validateCommon text >>= fun _ => .ok final) = .ok config at h
      cases hFinal : fromFile.applyEnvironmentOverrides environment with
      | error e =>
        rw [hFinal] at h
        cases h
      | ok final =>
        rw [hFinal] at h
        obtain ⟨hValid, hSame⟩ := checked_bind.mp h
        cases hSame
        rw [applyEnvironmentOverrides_eq] at hFinal
        refine ⟨fun line hLine => ?_, fun key => reads_environment.read_of_run hFinal key key.mem_all, ?_,
          validateCommon_eq_ok.mp hValid⟩
        · rw [← List.zipIdx_map_fst 1 (readLines input)] at hLine
          obtain ⟨numbered, hNumbered, rfl⟩ := List.mem_map.mp hLine
          exact reads_lines.read_of_run hFile numbered hNumbered
        · rw [reads_environment.get_of_run hFinal, reads_lines.get_of_run hFile, entries_numbered, layered]
  · rintro ⟨hLines, hVariables, hGet, hValid⟩
    have hNumbered : ∀ numbered ∈ (readLines input).zipIdx 1, (lineEntries numbered.1).isSome = true :=
      fun numbered hMem => hLines _ (List.fst_mem_of_mem_zipIdx hMem)
    obtain ⟨fromFile, hFile, hFileGet⟩ := reads_lines.runs hNumbered {}
    obtain ⟨final, hFinal, hFinalGet⟩ := reads_environment.runs (fun key _ => hVariables key) fromFile
    have hSame : final = config := by
      refine get_injective ?_
      rw [hFinalGet, hFileGet, entries_numbered, hGet, layered]
    rw [← applyEnvironmentOverrides_eq, hSame] at hFinal
    rw [loadFromFile, hFile]
    change (fromFile.applyEnvironmentOverrides environment >>= fun final =>
      final.validateCommon text >>= fun _ => .ok final) = .ok config
    rw [hFinal]
    exact checked_bind.mpr ⟨validateCommon_eq_ok.mpr hValid, rfl⟩

/-! ## The value of one setting -/

/-- The value that a line gives a key. -/
def assigned (key : ConfigKey) (line : List Char) : Option (List Char) :=
  match readLine line with
  | .assignment keyText value => if keyText = key.name.toList then some value else none
  | _ => none

/-- The text of a setting: its variable if that is set, else the last line for it. -/
def settingText (environment : String → Option (List Char)) (lines : List (List Char)) (key : ConfigKey) :
    Option (List Char) :=
  ((environment key.variableName).map trimChars).or (lines.filterMap (assigned key)).getLast?

theorem lineEntries_eq_some {line : List Char} {layer : List (ConfigKey × SettingValue)}
    (h : lineEntries line = some layer) :
    readLine line = .skipped ∧ layer = [] ∨ ∃ key value setting, readLine line = .assignment key.name.toList value ∧
      key.rule.read value = some setting ∧ layer = [(key, setting)] := by
  rw [lineEntries] at h
  split at h
  · rename_i hSkipped
    cases h
    exact .inl ⟨hSkipped, rfl⟩
  · cases h
  · cases h
  · rename_i keyText value hLine
    obtain ⟨⟨key, setting⟩, hEntry, rfl⟩ := Option.map_eq_some_iff.mp h
    obtain ⟨rfl, hRead⟩ := readAssignment_eq_some.mp hEntry
    exact .inr ⟨key, value, setting, hLine, hRead, rfl⟩

/-- What the lines assign to a key is read off the values that they give it. -/
theorem valuesOf_lines {lines : List (List Char)} (h : ∀ line ∈ lines, (lineEntries line).isSome = true)
    (key : ConfigKey) : (Layered.valuesOf (Layered.entries lineEntries lines) key).map some =
      (lines.filterMap (assigned key)).map key.rule.read := by
  induction lines with
  | nil => rfl
  | cons line lines ih =>
    obtain ⟨hLine, hLines⟩ := List.forall_mem_cons.mp h
    obtain ⟨layer, hLayer⟩ := Option.isSome_iff_exists.mp hLine
    rw [Layered.entries_cons, Layered.valuesOf_append, List.map_append, ih hLines, hLayer, Option.getD_some]
    rcases lineEntries_eq_some hLayer with ⟨hSkipped, rfl⟩ | ⟨other, value, setting, hAssignment, hRead, rfl⟩
    · have hNone : assigned key line = none := by rw [assigned, hSkipped]
      rw [List.filterMap_cons_none hNone]
      rfl
    · by_cases hKey : other = key
      · subst hKey
        have hSome : assigned other line = some value := by
          rw [assigned, hAssignment]
          exact if_pos rfl
        rw [List.filterMap_cons_some hSome, List.map_cons, hRead, Layered.valuesOf_cons_self]
        rfl
      · have hNone : assigned key line = none := by
          rw [assigned, hAssignment]
          exact if_neg (fun hName => hKey (ConfigKey.name_injective (String.toList_inj.mp hName)))
        rw [List.filterMap_cons_none hNone, Layered.valuesOf_cons_of_ne hKey]
        rfl

/-- What a variable assigns is read off its trimmed value. -/
theorem valuesOf_variables (h : ∀ key, (variableEntries environment key).isSome = true) (key : ConfigKey) :
    (Layered.valuesOf (Layered.entries (variableEntries environment) ConfigKey.all) key).map some =
      ((environment key.variableName).map trimChars).toList.map key.rule.read := by
  have hOwn : ∀ other, ∀ entry ∈ (variableEntries environment other).getD [], entry.1 = other := by
    intro other entry hEntry
    rw [variableEntries] at hEntry
    split at hEntry
    · exact absurd hEntry List.not_mem_nil
    · split at hEntry
      · exact absurd hEntry List.not_mem_nil
      · cases hRead : other.rule.read (trimChars _) with
        | none =>
          rw [hRead] at hEntry
          exact absurd hEntry List.not_mem_nil
        | some setting =>
          rw [hRead] at hEntry
          exact congrArg Prod.fst (List.mem_singleton.mp hEntry)
  rw [Layered.valuesOf_entries hOwn ConfigKey.nodup_all key.mem_all]
  have hSome := h key
  rw [variableEntries] at hSome ⊢
  cases hVariable : environment key.variableName with
  | none => rfl
  | some rawValue =>
    rw [hVariable] at hSome
    dsimp only at hSome ⊢
    split at hSome
    · cases hSome
    · rename_i hNonempty
      rw [if_neg hNonempty]
      rw [Option.isSome_map] at hSome
      obtain ⟨setting, hRead⟩ := Option.isSome_iff_exists.mp hSome
      rw [hRead, Option.map_some, Option.map_some, Option.toList_some, List.map_cons, hRead]
      rfl

/-- The last of the assignments to a key, or what was there before. -/
theorem assign_apply_eq (settings : ConfigKey → SettingValue) {layer : List (ConfigKey × SettingValue)}
    {key : ConfigKey} {texts : List (List Char)}
    (h : (Layered.valuesOf layer key).map some = texts.map key.rule.read) :
    match texts.getLast? with
    | some value => key.rule.read value = some (Layered.assign settings layer key)
    | none => Layered.assign settings layer key = settings key := by
  have hLast : (Layered.valuesOf layer key).getLast?.map some = texts.getLast?.map key.rule.read := by
    rw [← List.getLast?_map, ← List.getLast?_map, h]
  rw [Layered.assign_apply]
  cases hTexts : texts.getLast? with
  | none =>
    rw [hTexts, Option.map_none, Option.map_eq_none_iff] at hLast
    rw [hLast]
    rfl
  | some value =>
    rw [hTexts] at hLast
    obtain ⟨setting, hSetting, hRead⟩ := Option.map_eq_some_iff.mp hLast
    rw [hSetting]
    exact hRead.symm

theorem layered_apply {lines : List (List Char)} (hLines : ∀ line ∈ lines, (lineEntries line).isSome = true)
    (hVariables : ∀ key, (variableEntries environment key).isSome = true) (key : ConfigKey) :
    match settingText environment lines key with
    | some value => key.rule.read value = some (layered environment lines key)
    | none => layered environment lines key = get {} key := by
  have hFile := fun settings => assign_apply_eq settings (valuesOf_lines hLines key)
  have hFinal := fun settings => assign_apply_eq settings (valuesOf_variables hVariables key)
  rw [settingText, layered]
  cases hVariable : environment key.variableName with
  | some rawValue =>
    rw [hVariable] at hFinal
    exact hFinal _
  | none =>
    rw [hVariable] at hFinal
    have hUnset : ∀ settings,
        Layered.assign settings (Layered.entries (variableEntries environment) ConfigKey.all) key =
          settings key := hFinal
    rw [Option.map_none, Option.none_or, hUnset]
    exact hFile _

/-! ## Settings in their ranges -/

/-- A value that a rule can have read. -/
def Admits : SettingRule → SettingValue → Prop
  | .text, .text _ => True
  | .lowercased, .text _ => True
  | .number minimum maximum, .number value => minimum ≤ value ∧ value ≤ maximum
  | .flag, .flag _ => True
  | .list _, .list items => ∀ item ∈ items, item ≠ [] ∧ trimChars item = item
  | _, _ => False

theorem admits_read {rule : SettingRule} {value : List Char} {setting : SettingValue}
    (h : rule.read value = some setting) : Admits rule setting := by
  cases rule with
  | text =>
    cases h
    trivial
  | lowercased =>
    cases h
    trivial
  | number minimum maximum =>
    rw [SettingRule.read, SettingRule.readNumber] at h
    split at h
    · rename_i hRange
      cases h
      exact hRange.2.2
    · cases h
  | flag =>
    rw [SettingRule.read, SettingRule.readFlag] at h
    split at h
    · cases h
      trivial
    · split at h
      · cases h
        trivial
      · cases h
  | list allowNone =>
    rw [SettingRule.read, SettingRule.readList] at h
    split at h
    · cases h
      exact fun _ hItem => absurd hItem List.not_mem_nil
    · split at h
      · cases h
      · rename_i hEmpty
        cases h
        intro item hItem
        obtain ⟨part, -, rfl⟩ := List.mem_map.mp hItem
        exact ⟨fun hNil => hEmpty (hNil ▸ hItem), trimChars_trimChars part⟩

/-- Every default passes the check of its own key. -/
theorem admits_default (key : ConfigKey) : Admits key.rule (get {} key) := by
  have hWildcard : ∀ item ∈ ["*".toList], item ≠ [] ∧ trimChars item = item := by decide
  cases key with
  | corsAllowedOrigins => exact hWildcard
  | trustedProxyCidrs => exact fun _ hItem => absurd hItem List.not_mem_nil
  | _ => trivial

theorem admits_loaded {path input : List Char} (h : loadFromFile text environment path (some input) = .ok config)
    (key : ConfigKey) : Admits key.rule (config.get key) := by
  obtain ⟨hLines, hVariables, hGet, -⟩ := loadFromFile_eq_ok.mp h
  have hLayered := layered_apply hLines hVariables key
  rw [hGet]
  split at hLayered
  · exact admits_read hLayered
  · rw [hLayered]
    exact admits_default key

end ServerConfig

end SecureCore

import SecureCore.Config.ServerConfig
import Mathlib.Data.List.Nodup
import SecureCore.Layered.Assignments

/-! # Settings of a configuration

What a key means, apart from the code that applies it: the words that its values are written
in, and the place its value has in a configuration. -/

namespace SecureCore

set_option autoImplicit false

open TrustedProxyResolver

inductive SettingValue where
  | text (value : List Char)
  | number (value : Nat)
  | flag (value : Bool)
  | list (items : List (List Char))
  deriving DecidableEq, Repr

/-- The syntax and the range of the values of a key. -/
inductive SettingRule where
  | text
  | lowercased
  | number (minimum maximum : Nat)
  | flag
  | list (allowNone : Bool)
  deriving DecidableEq, Repr

namespace SettingRule

def readNumber (minimum maximum : Nat) (value : List Char) : Option SettingValue :=
  if value ≠ [] ∧ value.all Char.isDigit = true ∧ minimum ≤ decimalValue value ∧ decimalValue value ≤ maximum then
    some (.number (decimalValue value))
  else none

def readFlag (value : List Char) : Option SettingValue :=
  if lowercaseChars value ∈ trueWords then some (.flag true)
  else if lowercaseChars value ∈ falseWords then some (.flag false)
  else none

def readList (allowNone : Bool) (value : List Char) : Option SettingValue :=
  if allowNone = true ∧ lowercaseChars value = "none".toList then some (.list [])
  else if [] ∈ (value.splitOn ',').map trimChars then none
  else some (.list ((value.splitOn ',').map trimChars))

def read : SettingRule → List Char → Option SettingValue
  | .text, value => some (.text value)
  | .lowercased, value => some (.text (lowercaseChars value))
  | .number minimum maximum, value => readNumber minimum maximum value
  | .flag, value => readFlag value
  | .list allowNone, value => readList allowNone value

end SettingRule

namespace ConfigKey

def rule : ConfigKey → SettingRule
  | .environment => .lowercased
  | .listenAddress | .logFile | .databasePath | .tlsCertificateFile | .tlsPrivateKeyFile => .text
  | .listenPort => .number 1 65535
  | .databasePoolSize | .ioThreads | .workerThreads => .number 1 64
  | .databaseAcquireTimeoutMs => .number 1 60000
  | .workerQueueCapacity | .httpMaxConnections => .number 1 1000000
  | .shutdownGracePeriodMs => .number 1 600000
  | .auditRetentionDays => .number 1 3650
  | .metricsRequireAuth | .registrationEnabled | .tlsEnabled | .corsAllowCredentials | .hstsEnabled
  | .hstsIncludeSubdomains | .hstsPreload => .flag
  | .authLoginAccountFailureLimit => .number 1 1000
  | .authLoginIpFailureLimit => .number 1 100000
  | .authLoginFailureWindowSeconds | .authLoginLockoutSeconds => .number 1 86400
  | .authLoginMaxLockoutSeconds => .number 1 604800
  | .authLoginMaxTrackedAccounts | .authLoginMaxTrackedIps | .httpRateLimitMaxBuckets => .number 1 10000000
  | .tlsHandshakeTimeoutSeconds => .number 1 300
  | .trustedProxyCidrs => .list true
  | .proxyForwardedHeaderMaxBytes => .number 128 65536
  | .corsAllowedOrigins => .list false
  | .corsMaxAgeSeconds => .number 0 86400
  | .hstsMaxAgeSeconds => .number 0 63072000
  | .httpRateLimitRequests => .number 0 1000000
  | .httpRateLimitWindowSeconds | .httpReadTimeoutSeconds | .httpWriteTimeoutSeconds
  | .httpIdleTimeoutSeconds => .number 1 3600
  | .httpMaxHeaderBytes => .number 1024 (1024 * 1024)
  | .httpMaxBodyBytes => .number 1 (1024 * 1024 * 1024)

end ConfigKey

namespace ServerConfig

def get (config : ServerConfig) : ConfigKey → SettingValue
  | .environment => .text config.environment
  | .listenAddress => .text config.listenAddress
  | .listenPort => .number config.listenPort
  | .logFile => .text config.logFile
  | .databasePath => .text config.databasePath
  | .databasePoolSize => .number config.databasePoolSize
  | .databaseAcquireTimeoutMs => .number config.databaseAcquireTimeoutMs
  | .ioThreads => .number config.ioThreads
  | .workerThreads => .number config.workerThreads
  | .workerQueueCapacity => .number config.workerQueueCapacity
  | .shutdownGracePeriodMs => .number config.shutdownGracePeriodMs
  | .auditRetentionDays => .number config.auditRetentionDays
  | .metricsRequireAuth => .flag config.metricsRequireAuth
  | .registrationEnabled => .flag config.registrationEnabled
  | .authLoginAccountFailureLimit => .number config.authLoginAccountFailureLimit
  | .authLoginIpFailureLimit => .number config.authLoginIpFailureLimit
  | .authLoginFailureWindowSeconds => .number config.authLoginFailureWindowSeconds
  | .authLoginLockoutSeconds => .number config.authLoginLockoutSeconds
  | .authLoginMaxLockoutSeconds => .number config.authLoginMaxLockoutSeconds
  | .authLoginMaxTrackedAccounts => .number config.authLoginMaxTrackedAccounts
  | .authLoginMaxTrackedIps => .number config.authLoginMaxTrackedIps
  | .tlsEnabled => .flag config.tlsEnabled
  | .tlsCertificateFile => .text config.tlsCertificateFile
  | .tlsPrivateKeyFile => .text config.tlsPrivateKeyFile
  | .tlsHandshakeTimeoutSeconds => .number config.tlsHandshakeTimeoutSeconds
  | .trustedProxyCidrs => .list config.trustedProxyCidrs
  | .proxyForwardedHeaderMaxBytes => .number config.proxyForwardedHeaderMaxBytes
  | .corsAllowedOrigins => .list config.corsAllowedOrigins
  | .corsAllowCredentials => .flag config.corsAllowCredentials
  | .corsMaxAgeSeconds => .number config.corsMaxAgeSeconds
  | .hstsEnabled => .flag config.hstsEnabled
  | .hstsMaxAgeSeconds => .number config.hstsMaxAgeSeconds
  | .hstsIncludeSubdomains => .flag config.hstsIncludeSubdomains
  | .hstsPreload => .flag config.hstsPreload
  | .httpMaxConnections => .number config.httpMaxConnections
  | .httpRateLimitRequests => .number config.httpRateLimitRequests
  | .httpRateLimitWindowSeconds => .number config.httpRateLimitWindowSeconds
  | .httpRateLimitMaxBuckets => .number config.httpRateLimitMaxBuckets
  | .httpMaxHeaderBytes => .number config.httpMaxHeaderBytes
  | .httpMaxBodyBytes => .number config.httpMaxBodyBytes
  | .httpReadTimeoutSeconds => .number config.httpReadTimeoutSeconds
  | .httpWriteTimeoutSeconds => .number config.httpWriteTimeoutSeconds
  | .httpIdleTimeoutSeconds => .number config.httpIdleTimeoutSeconds

/-- The settings in the order of the keys. -/
def values (config : ServerConfig) : List SettingValue := ConfigKey.all.map config.get

end ServerConfig

/-! ## The keys -/

namespace ConfigKey

theorem getElem_all (key : ConfigKey) : all[key.ctorIdx]? = some key := by
  cases key <;> rfl

theorem mem_all (key : ConfigKey) : key ∈ all := List.mem_of_getElem? key.getElem_all

theorem nodup_all : all.Nodup := by decide

theorem ctorIdx_injective {first second : ConfigKey} (h : first.ctorIdx = second.ctorIdx) : first = second := by
  have hSame := first.getElem_all
  rw [h, second.getElem_all] at hSame
  exact (Option.some.inj hSame).symm

/-- The bytes of a text in ASCII. -/
def bytes (text : String) : List UInt8 := text.toByteArray.data.toList

/-- The number whose digits to the base 256 are the bytes. -/
def code (text : String) : Nat := (bytes text).foldl (fun number byte => 256 * number + byte.toNat) 0

theorem nodup_codes : (all.map (fun key => code key.name)).Nodup := by decide +kernel

theorem name_injective {first second : ConfigKey} (h : first.name = second.name) : first = second :=
  List.inj_on_of_nodup_map nodup_codes first.mem_all second.mem_all (congrArg code h)

theorem named?_eq_some {text : List Char} {key : ConfigKey} : named? text = some key ↔ text = key.name.toList := by
  have hName : ∀ other, named? text = some other → other.name.toList = text := by
    intro other hOther
    have hFound : (other.name.toList == text) = true :=
      List.find?_some (p := fun entry : ConfigKey => entry.name.toList == text) hOther
    exact beq_iff_eq.mp hFound
  refine ⟨fun h => (hName key h).symm, ?_⟩
  rintro rfl
  have hSome : (named? key.name.toList).isSome = true :=
    List.find?_isSome.mpr ⟨key, key.mem_all, beq_self_eq_true _⟩
  obtain ⟨other, hOther⟩ := Option.isSome_iff_exists.mp hSome
  rw [hOther, name_injective (String.toList_inj.mp (hName other hOther))]

/-- The variable that the table of the environment has at the place of the key. -/
def variableName (key : ConfigKey) : String :=
  (environmentMappings[key.ctorIdx]?).elim "" EnvironmentMapping.variableName

theorem environmentMappings_eq :
    environmentMappings = all.map (fun key => (⟨key.variableName, key.name⟩ : EnvironmentMapping)) := by
  rfl

def upperByte (byte : UInt8) : UInt8 := if 97 ≤ byte ∧ byte ≤ 122 then byte - 32 else byte

/-- The variable of a key has its name in upper case. -/
theorem variableName_bytes (key : ConfigKey) :
    bytes key.variableName = bytes "SECURECORE_" ++ (bytes key.name).map upperByte := by
  have hAll : ∀ key ∈ all, bytes key.variableName = bytes "SECURECORE_" ++ (bytes key.name).map upperByte := by
    decide +kernel
  exact hAll key key.mem_all

end ConfigKey

/-! ## The code that applies settings -/

namespace ServerConfig

variable {config : ServerConfig} {key : ConfigKey} {value text : List Char} {source : String}

theorem getElem_values (config : ServerConfig) (key : ConfigKey) :
    config.values[key.ctorIdx]? = some (config.get key) := by
  rw [values, List.getElem?_map, key.getElem_all]
  rfl

/-- Where one place of the values changes, one setting does. -/
theorem get_of_values {next : ServerConfig} {setting : SettingValue}
    (h : next.values = config.values.set key.ctorIdx setting) : next.get = Function.update config.get key setting := by
  funext other
  have hOther := next.getElem_values other
  rw [h, List.getElem?_set] at hOther
  have hLength : key.ctorIdx < config.values.length :=
    (List.getElem?_eq_some_iff.mp (config.getElem_values key)).1
  by_cases hKey : key = other
  · subst hKey
    rw [if_pos rfl, if_pos hLength] at hOther
    rw [Function.update_self]
    exact (Option.some.inj hOther).symm
  · rw [if_neg (fun hIdx => hKey (ConfigKey.ctorIdx_injective hIdx)), getElem_values] at hOther
    rw [Function.update_of_ne (Ne.symm hKey)]
    exact (Option.some.inj hOther).symm

/-- What is read off a value is assigned to the key, and to no other key. -/
def Applies (config : ServerConfig) (key : ConfigKey) (outcome : Except Exception ServerConfig)
    (setting : Option SettingValue) : Prop :=
  Layered.Follows get config.get outcome (setting.map (fun setting => [(key, setting)]))

theorem applies_text {next : ServerConfig} (h : next.values = config.values.set key.ctorIdx (.text value)) :
    Applies config key (.ok next) (some (.text value)) :=
  ⟨next, rfl, get_of_values h⟩

theorem applies_number {change : Nat → ServerConfig} {minimum maximum : Nat} (hMaximum : maximum < 2 ^ 64)
    (h : ∀ number, (change number).values = config.values.set key.ctorIdx (.number number)) :
    Applies config key ((parseUnsigned value text source minimum maximum).map change)
      (SettingRule.readNumber minimum maximum value) := by
  by_cases hDigits : value.all Char.isDigit = true
  · have hAll : ∀ c ∈ value, c.isDigit = true := List.all_eq_true.mp hDigits
    rw [parseUnsigned, SettingRule.readNumber, List.takeWhile_eq_self_iff.mpr hAll,
      List.dropWhile_eq_nil_iff.mpr hAll]
    split
    · rename_i hRefused
      simp only [List.isEmpty_nil, Bool.not_true, Bool.or_false, Bool.or_eq_true, decide_eq_true_eq,
        List.isEmpty_iff] at hRefused
      rw [if_neg]
      · exact ⟨_, rfl⟩
      · rintro ⟨hNonempty, -, hMinimum, hLe⟩
        rcases hRefused with ((hEmpty | hLarge) | hSmall) | hGreat
        · exact hNonempty hEmpty
        · omega
        · omega
        · omega
    · rename_i hAccepted
      simp only [List.isEmpty_nil, Bool.not_true, Bool.or_false, Bool.or_eq_true, decide_eq_true_eq,
        List.isEmpty_iff, not_or, Nat.not_lt] at hAccepted
      obtain ⟨⟨⟨hNonempty, -⟩, hMinimum⟩, hLe⟩ := hAccepted
      rw [if_pos ⟨hNonempty, hDigits, hMinimum, hLe⟩]
      exact ⟨_, rfl, get_of_values (h _)⟩
  · have hRest : value.dropWhile Char.isDigit ≠ [] :=
      fun hNil => hDigits (List.all_eq_true.mpr (List.dropWhile_eq_nil_iff.mp hNil))
    have hRefused : parseUnsigned value text source minimum maximum = .error (invalidSetting text source
        ("expected an integer from " ++ toString minimum ++ " through " ++ toString maximum)) := by
      rw [parseUnsigned, if_pos]
      simp [hRest]
    rw [hRefused, SettingRule.readNumber, if_neg (fun hRead => hDigits hRead.2.1)]
    exact ⟨_, rfl⟩

theorem applies_flag {change : Bool → ServerConfig}
    (h : ∀ flag, (change flag).values = config.values.set key.ctorIdx (.flag flag)) :
    Applies config key ((parseBoolean value text source).map change) (SettingRule.readFlag value) := by
  rw [parseBoolean, SettingRule.readFlag]
  simp only [List.contains_iff_mem]
  split
  · exact ⟨_, rfl, get_of_values (h true)⟩
  · split
    · exact ⟨_, rfl, get_of_values (h false)⟩
    · exact ⟨_, rfl⟩

theorem applies_list {change : List (List Char) → ServerConfig} {allowNone : Bool}
    (h : ∀ items, (change items).values = config.values.set key.ctorIdx (.list items)) :
    Applies config key ((parseCsvList value text source allowNone).map change)
      (SettingRule.readList allowNone value) := by
  rw [parseCsvList, SettingRule.readList]
  simp only [Bool.and_eq_true, beq_iff_eq]
  split
  · exact ⟨_, rfl, get_of_values (h [])⟩
  · have hEmpty : ((value.splitOn ',').map trimChars).any List.isEmpty = true ↔
        [] ∈ (value.splitOn ',').map trimChars := by
      simp
    by_cases hItems : [] ∈ (value.splitOn ',').map trimChars
    · rw [if_pos (hEmpty.mpr hItems), if_pos hItems]
      exact ⟨_, rfl⟩
    · rw [if_neg (fun hAny => hItems (hEmpty.mp hAny)), if_neg hItems]
      exact ⟨_, rfl, get_of_values (h _)⟩

/-- Every branch writes the field of its own key, with the parser and the range of the key. -/
theorem applySetting_applies (config : ServerConfig) (key : ConfigKey) (value : List Char) (source : String) :
    Applies config key (config.applySetting key.name.toList value source) (key.rule.read value) := by
  have hNamed : ConfigKey.named? key.name.toList = some key := ConfigKey.named?_eq_some.mpr rfl
  rw [applySetting, hNamed]
  cases key with
  | environment | listenAddress | logFile | databasePath | tlsCertificateFile | tlsPrivateKeyFile =>
    exact applies_text rfl
  | listenPort | databasePoolSize | databaseAcquireTimeoutMs | ioThreads | workerThreads
  | workerQueueCapacity | shutdownGracePeriodMs | auditRetentionDays | authLoginAccountFailureLimit
  | authLoginIpFailureLimit | authLoginFailureWindowSeconds | authLoginLockoutSeconds
  | authLoginMaxLockoutSeconds | authLoginMaxTrackedAccounts | authLoginMaxTrackedIps
  | tlsHandshakeTimeoutSeconds | proxyForwardedHeaderMaxBytes | corsMaxAgeSeconds | hstsMaxAgeSeconds
  | httpMaxConnections | httpRateLimitRequests | httpRateLimitWindowSeconds | httpRateLimitMaxBuckets
  | httpMaxHeaderBytes | httpMaxBodyBytes | httpReadTimeoutSeconds | httpWriteTimeoutSeconds
  | httpIdleTimeoutSeconds =>
    exact applies_number (by omega) (fun _ => rfl)
  | metricsRequireAuth | registrationEnabled | tlsEnabled | corsAllowCredentials | hstsEnabled
  | hstsIncludeSubdomains | hstsPreload =>
    exact applies_flag (fun _ => rfl)
  | trustedProxyCidrs | corsAllowedOrigins =>
    exact applies_list (fun _ => rfl)

end ServerConfig

end SecureCore

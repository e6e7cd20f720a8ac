import SecureCore.Config.Precedence
import SecureCore.Http.CorsPolicy
import SecureCore.Http.RateLimiterRuns
import SecureCore.Runtime.WorkerPool
import SecureCore.Security.EntryVisits

/-! # The components of ServerApplication

The constructors that are given settings check them again. What the validation of the
configuration lets through that one of them refuses is said here. -/

namespace SecureCore

set_option autoImplicit false

open TrustedProxyResolver RequestValidation

structure Components (τ : Type) where
  rateLimiter : RateLimiter
  corsPolicy : CorsPolicy
  trustedProxyResolver : TrustedProxyResolver
  authAbuseProtector : AuthAbuseProtector
  workerPool : WorkerPool τ

namespace ServerConfig

def authAbuseConfig (config : ServerConfig) : AuthAbuseConfig where
  accountFailureLimit := config.authLoginAccountFailureLimit
  ipFailureLimit := config.authLoginIpFailureLimit
  failureWindow := config.authLoginFailureWindowSeconds
  baseLockout := config.authLoginLockoutSeconds
  maximumLockout := config.authLoginMaxLockoutSeconds
  maximumTrackedAccounts := config.authLoginMaxTrackedAccounts
  maximumTrackedIps := config.authLoginMaxTrackedIps

/-- The member initialisers of ServerApplication that take settings and check them, in their order. -/
def construct (τ : Type) (text : AddressText) (config : ServerConfig) : Except Exception (Components τ) := do
  let rateLimiter ← RateLimiter.make config.httpRateLimitRequests config.httpRateLimitWindowSeconds
    config.httpRateLimitMaxBuckets
  let corsPolicy ← CorsPolicy.make (config.corsAllowedOrigins.map String.ofList) config.corsAllowCredentials
    config.corsMaxAgeSeconds
  let trustedProxyResolver ← TrustedProxyResolver.make text config.trustedProxyCidrs
    config.proxyForwardedHeaderMaxBytes
  let authAbuseProtector ← AuthAbuseProtector.make config.authAbuseConfig
  let workerPool ← WorkerPool.create config.workerThreads config.workerQueueCapacity
  .ok ⟨rateLimiter, corsPolicy, trustedProxyResolver, authAbuseProtector, workerPool⟩

variable {τ σ : Type} {text : AddressText} {config : ServerConfig} {environment : String → Option (List Char)}
  {path input : List Char}

/-! ## Origins -/

def isControl (c : Char) : Bool := decide (c.toNat < 0x20) || c.toNat == 0x7f

/-- The constructor refuses other control characters than the configuration does. -/
theorem spaceOrControl_eq (c : Char) :
    (isSpace c || decide (c.toNat < 0x20) || c.toNat == 0x7f) = (isBlank c || isControl c) := by
  have hSpace : isSpace c = true → isBlank c = true ∨ c.toNat < 0x20 := by
    intro h
    simp only [isSpace, Bool.or_eq_true, beq_iff_eq] at h
    rcases h with ((((rfl | rfl) | rfl) | rfl) | rfl) | rfl <;> decide
  have hBlank : isBlank c = true → isSpace c = true := by
    intro h
    simp only [isBlank, Bool.or_eq_true, beq_iff_eq] at h
    rcases h with ((rfl | rfl) | rfl) | rfl <;> rfl
  rw [Bool.eq_iff_iff, isControl, Bool.or_assoc, Bool.or_eq_true, Bool.or_eq_true (isBlank c)]
  constructor
  · rintro (h | h)
    · rcases hSpace h with h | h
      · exact .inl h
      · exact .inr (by rw [decide_eq_true h]; rfl)
    · exact .inr h
  · rintro (h | h)
    · exact .inl (hBlank h)
    · exact .inr h

theorem containsSpaceOrControl_eq (origin : List Char) :
    CorsPolicy.containsSpaceOrControl origin = (origin.any isBlank || origin.any isControl) := by
  rw [CorsPolicy.containsSpaceOrControl]
  simp only [spaceOrControl_eq]
  induction origin with
  | nil => rfl
  | cons c rest ih =>
    rw [List.any_cons, List.any_cons, List.any_cons, ih]
    cases isBlank c <;> cases isControl c <;> simp

/-- An exact origin of a configuration is one of a policy unless it has a control character. -/
theorem validExactOrigin_eq {origin : List Char} (h : origin ≠ "*".toList) :
    CorsPolicy.validExactOrigin origin = (validCorsOrigin origin && !origin.any isControl) := by
  have hExact : (origin == "*".toList) = false := beq_eq_false_iff_ne.mpr h
  rw [CorsPolicy.validExactOrigin, validCorsOrigin, hExact, if_neg Bool.false_ne_true, containsSpaceOrControl_eq]
  cases origin.any isControl with
  | true => rw [Bool.or_true, Bool.or_true, if_pos rfl, Bool.not_true, Bool.and_false]
  | false =>
    rw [Bool.or_false, Bool.not_false, Bool.and_true]
    split
    · rfl
    · rw [← CorsPolicy.authorityStart]
      cases CorsPolicy.authorityStart origin with
      | none => rfl
      | some start =>
        dsimp only
        split
        · rfl
        · rename_i hLong
          have hAuthority : (origin.drop start).isEmpty = false := by
            rw [List.isEmpty_eq_false_iff, ne_eq, List.drop_eq_nil_iff]
            exact hLong
          rw [hAuthority]
          cases (origin.drop start).contains '/' <;> cases (origin.drop start).contains '?' <;>
            cases (origin.drop start).contains '#' <;> cases (origin.drop start).contains '@' <;> rfl

/-- Origins that a policy accepts whenever the configuration does. -/
structure Distinct (origins : List (List Char)) : Prop where
  nodup : origins.Nodup
  printable : ∀ origin ∈ origins, ∀ c ∈ origin, isControl c = false

theorem acceptable_iff (h : ValidOrigins config) :
    CorsPolicy.Acceptable (config.corsAllowedOrigins.map String.ofList) config.corsAllowCredentials ↔
      Distinct config.corsAllowedOrigins := by
  have hInjective : Function.Injective String.ofList := fun first second hSame => by
    simpa only [String.toList_ofList] using congrArg String.toList hSame
  have hWildcard : String.ofList "*".toList = "*" := String.ofList_toList
  have hStarPrintable : ∀ c ∈ "*".toList, isControl c = false := List.forall_mem_singleton.mpr rfl
  constructor
  · intro hAcceptable
    refine ⟨List.Nodup.of_map _ hAcceptable.nodup, fun origin hOrigin => ?_⟩
    rcases hAcceptable.valid _ (List.mem_map_of_mem hOrigin) with hStar | hExact
    · rw [hInjective (hStar.trans hWildcard.symm)]
      exact hStarPrintable
    · rw [String.toList_ofList] at hExact
      by_cases hStar : origin = "*".toList
      · rw [hStar]
        exact hStarPrintable
      · rw [validExactOrigin_eq hStar, Bool.and_eq_true, Bool.not_eq_true', List.any_eq_false] at hExact
        exact fun c hc => Bool.eq_false_iff.mpr (hExact.2 c hc)
  · rintro ⟨hNodup, hPrintable⟩
    refine ⟨?_, ?_, ?_, hNodup.map hInjective⟩
    · exact fun hNil => h.nonempty (List.map_eq_nil_iff.mp hNil)
    · intro text hText
      obtain ⟨origin, hOrigin, rfl⟩ := List.mem_map.mp hText
      by_cases hStar : origin = "*".toList
      · exact .inl (hStar ▸ hWildcard)
      · have hControl : origin.any isControl = false :=
          List.any_eq_false.mpr (fun c hc => Bool.eq_false_iff.mp (hPrintable origin hOrigin c hc))
        rw [String.toList_ofList, validExactOrigin_eq hStar, h.valid origin hOrigin, hControl]
        exact .inr rfl
    · intro hMem
      rw [← hWildcard, List.mem_map_of_injective hInjective] at hMem
      rw [List.length_map]
      exact h.alone hMem

/-! ## The other components -/

/-- What the ranges of the keys and the validation say about the numbers that are checked again. -/
structure InRange (config : ServerConfig) : Prop where
  window : 0 < config.httpRateLimitWindowSeconds
  buckets : 0 < config.httpRateLimitMaxBuckets
  forwarded : 0 < config.proxyForwardedHeaderMaxBytes
  accountLimit : 0 < config.authLoginAccountFailureLimit
  ipLimit : 0 < config.authLoginIpFailureLimit
  failureWindow : 0 < config.authLoginFailureWindowSeconds
  lockout : 0 < config.authLoginLockoutSeconds
  accounts : 0 < config.authLoginMaxTrackedAccounts
  ips : 0 < config.authLoginMaxTrackedIps
  workers : 0 < config.workerThreads
  queue : 0 < config.workerQueueCapacity

theorem inRange_of_loaded (h : loadFromFile text environment path (some input) = .ok config) : InRange config where
  window := (admits_loaded h .httpRateLimitWindowSeconds).1
  buckets := (admits_loaded h .httpRateLimitMaxBuckets).1
  forwarded := Nat.lt_of_lt_of_le (by decide) (admits_loaded h .proxyForwardedHeaderMaxBytes).1
  accountLimit := (admits_loaded h .authLoginAccountFailureLimit).1
  ipLimit := (admits_loaded h .authLoginIpFailureLimit).1
  failureWindow := (admits_loaded h .authLoginFailureWindowSeconds).1
  lockout := (admits_loaded h .authLoginLockoutSeconds).1
  accounts := (admits_loaded h .authLoginMaxTrackedAccounts).1
  ips := (admits_loaded h .authLoginMaxTrackedIps).1
  workers := (admits_loaded h .workerThreads).1
  queue := (admits_loaded h .workerQueueCapacity).1

/-- The times of the rate limiter of a loaded configuration fit into its clock. -/
theorem rateLimiter_withinClock (h : loadFromFile text environment path (some input) = .ok config)
    {calls : List RateLimiter.ClientCall} (hCalls : ∀ call ∈ calls, 0 ≤ call.now ∧ call.now < 2 ^ 63) :
    RateLimiter.WithinClock config.httpRateLimitWindowSeconds calls := by
  have hWindow : config.httpRateLimitWindowSeconds ≤ 3600 := (admits_loaded h .httpRateLimitWindowSeconds).2
  exact RateLimiter.withinClock_of_nonneg (by omega) hCalls

/-- The times of the protector of a loaded configuration fit into its clock, up to a week before
the clock's end. -/
theorem authAbuseProtector_withinClock (h : loadFromFile text environment path (some input) = .ok config)
    {ts : List Int} (hTimes : ∀ t ∈ ts, 0 ≤ t ∧ t < 2 ^ 63 - seconds 604800) :
    AuthAbuseProtector.WithinClock config.authAbuseConfig ts := by
  have hWindow : config.authLoginFailureWindowSeconds ≤ 86400 := (admits_loaded h .authLoginFailureWindowSeconds).2
  have hMaximum : config.authLoginMaxLockoutSeconds ≤ 604800 := (admits_loaded h .authLoginMaxLockoutSeconds).2
  apply AuthAbuseProtector.withinClock_of_nonneg
  · simp only [authAbuseConfig, seconds]
    omega
  · exact fun t ht => (hTimes t ht).1
  · intro t ht
    simp only [authAbuseConfig, seconds] at hTimes ⊢
    rcases List.mem_cons.mp ht with rfl | ht
    · omega
    · have hReading := (hTimes t ht).2
      omega

theorem makes_rateLimiter (h : InRange config) : ∃ limiter, RateLimiter.make config.httpRateLimitRequests
    config.httpRateLimitWindowSeconds config.httpRateLimitMaxBuckets = .ok limiter := by
  have hWindow := h.window
  have hBuckets := h.buckets
  rw [RateLimiter.make, dif_neg (by omega), dif_neg (by omega)]
  exact ⟨_, rfl⟩

theorem makes_authAbuseProtector (h : InRange config)
    (hLockouts : config.authLoginLockoutSeconds ≤ config.authLoginMaxLockoutSeconds) :
    ∃ protector, AuthAbuseProtector.make config.authAbuseConfig = .ok protector := by
  obtain ⟨-, -, -, hAccount, hIp, hWindow, hLockout, hAccounts, hIps, -, -⟩ := h
  have hLimits : ¬(config.authLoginAccountFailureLimit = 0 ∨ config.authLoginIpFailureLimit = 0) := by omega
  have hDurations : ¬((config.authLoginFailureWindowSeconds : Int) ≤ 0 ∨ (config.authLoginLockoutSeconds : Int) ≤ 0 ∨
      (config.authLoginMaxLockoutSeconds : Int) < config.authLoginLockoutSeconds) := by omega
  have hCapacities : ¬(config.authLoginMaxTrackedAccounts = 0 ∨ config.authLoginMaxTrackedIps = 0) := by omega
  exact ⟨_, (if_neg hLimits).trans ((if_neg hDurations).trans (if_neg hCapacities))⟩

theorem makes_workerPool (h : InRange config) :
    ∃ pool : WorkerPool τ, WorkerPool.create config.workerThreads config.workerQueueCapacity = .ok pool := by
  rw [WorkerPool.create, if_neg (Nat.ne_of_gt h.workers), if_neg (Nat.ne_of_gt h.queue)]
  exact ⟨_, rfl⟩

/-- An entry that the configuration accepts is a network. -/
theorem parses_cidr {cidr : List Char} (hItem : cidr ≠ [] ∧ trimChars cidr = cidr) (h : ValidCidr text cidr) :
    ∃ network, parseNetwork text cidr = .ok network := by
  obtain ⟨address, hAddress, hPrefix⟩ := h
  rw [parseNetwork, hItem.2]
  dsimp only
  rw [if_neg (fun hNil => hItem.1 (List.isEmpty_iff.mp hNil)), hAddress]
  dsimp only
  split
  · rename_i hSlash
    obtain ⟨first, rest, hRest, hDigits, hFits⟩ := hPrefix (List.contains_iff_mem.mp hSlash)
    rw [hRest]
    simp only [List.drop_succ_cons, List.drop_zero, List.isEmpty_cons, hDigits, Bool.not_true, Bool.or_self,
      Bool.false_eq_true, if_false, dif_pos hFits]
    exact ⟨_, rfl⟩
  · exact ⟨_, rfl⟩

theorem makes_trustedProxyResolver (hRange : InRange config)
    (hItems : ∀ cidr ∈ config.trustedProxyCidrs, cidr ≠ [] ∧ trimChars cidr = cidr)
    (hCidrs : ∀ cidr ∈ config.trustedProxyCidrs, ValidCidr text cidr) :
    ∃ resolver, TrustedProxyResolver.make text config.trustedProxyCidrs config.proxyForwardedHeaderMaxBytes =
      .ok resolver := by
  have hNetworks : ∃ networks, config.trustedProxyCidrs.mapM (parseNetwork text) = .ok networks := by
    generalize config.trustedProxyCidrs = cidrs at hItems hCidrs
    induction cidrs with
    | nil => exact ⟨[], rfl⟩
    | cons cidr cidrs ih =>
      obtain ⟨hItem, hItems⟩ := List.forall_mem_cons.mp hItems
      obtain ⟨hCidr, hCidrs⟩ := List.forall_mem_cons.mp hCidrs
      obtain ⟨network, hNetwork⟩ := parses_cidr hItem hCidr
      obtain ⟨networks, hRest⟩ := ih hItems hCidrs
      rw [List.mapM_cons, hNetwork]
      change ∃ all, (List.mapM (parseNetwork text) cidrs >>= fun networks => .ok (network :: networks)) = .ok all
      rw [hRest]
      exact ⟨_, rfl⟩
  obtain ⟨networks, hNetworks⟩ := hNetworks
  rw [TrustedProxyResolver.make, dif_pos hRange.forwarded, hNetworks]
  exact ⟨_, rfl⟩

/-! ## All of them -/

theorem construct_eq_ok (h : loadFromFile text environment path (some input) = .ok config) :
    (∃ components, construct τ text config = .ok components) ↔ Distinct config.corsAllowedOrigins := by
  obtain ⟨-, -, -, hValid⟩ := loadFromFile_eq_ok.mp h
  have hRange := inRange_of_loaded h
  obtain ⟨limiter, hLimiter⟩ := makes_rateLimiter hRange
  obtain ⟨resolver, hResolver⟩ :=
    makes_trustedProxyResolver hRange (admits_loaded h .trustedProxyCidrs) hValid.cidrs
  obtain ⟨protector, hProtector⟩ := makes_authAbuseProtector hRange hValid.lockouts
  obtain ⟨pool, hPool⟩ : ∃ pool : WorkerPool τ, _ = Except.ok pool := makes_workerPool hRange
  rw [← acceptable_iff hValid.origins, construct, hLimiter]
  change (∃ components, (CorsPolicy.make (config.corsAllowedOrigins.map String.ofList) config.corsAllowCredentials
    config.corsMaxAgeSeconds >>= _) = .ok components) ↔ _
  constructor
  · rintro ⟨components, hComponents⟩
    cases hPolicy : CorsPolicy.make (config.corsAllowedOrigins.map String.ofList) config.corsAllowCredentials
        config.corsMaxAgeSeconds with
    | error e =>
      rw [hPolicy] at hComponents
      cases hComponents
    | ok policy => exact (CorsPolicy.make_eq_ok_iff.mp hPolicy).1
  · intro hAcceptable
    rw [CorsPolicy.make_eq_ok_iff.mpr ⟨hAcceptable, rfl⟩, hResolver, hProtector, hPool]
    exact ⟨_, rfl⟩

/-- The origins that the environment, the file or the default names. -/
def configuredOrigins (environment : String → Option (List Char)) (input : List Char) : List (List Char) :=
  match settingText environment (readLines input) .corsAllowedOrigins with
  | some value => (value.splitOn ',').map trimChars
  | none => ["*".toList]

theorem origins_loaded (h : loadFromFile text environment path (some input) = .ok config) :
    config.corsAllowedOrigins = configuredOrigins environment input := by
  obtain ⟨hLines, hVariables, hGet, -⟩ := loadFromFile_eq_ok.mp h
  have hLayered := layered_apply hLines hVariables .corsAllowedOrigins
  have hConfig : SettingValue.list config.corsAllowedOrigins =
      layered environment (readLines input) .corsAllowedOrigins := congrFun hGet .corsAllowedOrigins
  rw [← hConfig] at hLayered
  cases hText : settingText environment (readLines input) .corsAllowedOrigins with
  | some value =>
    simp only [hText] at hLayered
    simp only [configuredOrigins, hText]
    have hRead : SettingRule.readList false value = some (.list config.corsAllowedOrigins) := hLayered
    rw [SettingRule.readList, if_neg (fun h => Bool.false_ne_true h.1)] at hRead
    split at hRead
    · cases hRead
    · exact (SettingValue.list.inj (Option.some.inj hRead)).symm
  | none =>
    simp only [hText] at hLayered
    simp only [configuredOrigins, hText]
    exact SettingValue.list.inj hLayered

/-- No component refuses a configuration that was loaded, unless an origin stands in its list
twice or has a control character. -/
theorem loaded_configuration_constructs (h : loadFromFile text environment path (some input) = .ok config) :
    (∃ components, construct τ text config = .ok components) ↔ Distinct (configuredOrigins environment input) := by
  rw [← origins_loaded h]
  exact construct_eq_ok h

def privateNetwork : AddressText where
  makeAddress value := if value = "10.0.0.0".toList then some (.v4 0x0a000000#32) else none
  toText _ := "10.0.0.0".toList

def twoOrigins : List Char :=
  "trusted_proxy_cidrs=10.0.0.0/8\ncors_allowed_origins=https://a.example, http://b.example:8080".toList

def twoOriginsConfig : ServerConfig where
  trustedProxyCidrs := ["10.0.0.0/8".toList]
  corsAllowedOrigins := ["https://a.example".toList, "http://b.example:8080".toList]

/-- Two exact origins and a network of proxies. -/
theorem loaded_configuration_constructs_sample :
    ∃ components, construct Unit privateNetwork twoOriginsConfig = .ok components := by
  have hLoaded : loadFromFile privateNetwork (fun _ => none) [] (some twoOrigins) = .ok twoOriginsConfig := by
    decide +kernel
  have hOrigins : configuredOrigins (fun _ => none) twoOrigins = twoOriginsConfig.corsAllowedOrigins :=
    (origins_loaded hLoaded).symm
  apply (loaded_configuration_constructs hLoaded).mpr
  rw [hOrigins]
  have hPrintable : ∀ origin ∈ twoOriginsConfig.corsAllowedOrigins, origin.all (!isControl ·) = true := by
    decide +kernel
  refine ⟨by decide +kernel, ?_⟩
  intro origin hOrigin c hChar
  have hVisible := List.all_eq_true.mp (hPrintable origin hOrigin) c hChar
  exact (Bool.not_eq_true' _).mp hVisible

/-- A file system on which every path can be used. -/
def emptyDisk : FileSystem Unit where
  parentPath _ := ".".toList
  fileExists _ _ := .ok false
  isDirectory _ _ := .ok true
  createDirectories _ _ := .ok ()
  isRegularFile _ _ := .ok true
  permissions _ _ := .ok 0o600

/-- The configuration may list an origin twice, the policy may not. -/
theorem repeated_origin_is_accepted_and_refused :
    ¬∀ (text : AddressText) (files : FileSystem Unit) (environment : String → Option (List Char))
      (path input : List Char) (config : ServerConfig), loadFromFile text environment path (some input) = .ok config →
        config.validateForServer files text () = .ok () →
          ∃ components, construct Unit text config = .ok components := by
  intro h
  have hLoaded : loadFromFile ⟨fun _ => none, fun _ => []⟩ (fun _ => none) []
      (some "cors_allowed_origins=http://a,http://a".toList) =
        .ok { corsAllowedOrigins := ["http://a".toList, "http://a".toList] } := by
    rfl
  have hServer : ({ corsAllowedOrigins := ["http://a".toList, "http://a".toList] } : ServerConfig).validateForServer
      emptyDisk ⟨fun _ => none, fun _ => []⟩ () = .ok () := by
    rfl
  have hDistinct := (construct_eq_ok hLoaded).mp (h _ emptyDisk _ _ _ _ hLoaded hServer)
  exact absurd hDistinct.nodup (by decide)

end ServerConfig

end SecureCore

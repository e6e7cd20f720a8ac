import SecureCore.Net.TrustedProxy

/-! # ServerConfig

A configuration file is a text, and the environment of the process a function from the names
of variables. Texts are lists of bytes here, since the parsers read them byte by byte. -/

namespace SecureCore

set_option autoImplicit false

open TrustedProxyResolver

/-- The keys of a configuration file. -/
inductive ConfigKey where
  | environment
  | listenAddress
  | listenPort
  | logFile
  | databasePath
  | databasePoolSize
  | databaseAcquireTimeoutMs
  | ioThreads
  | workerThreads
  | workerQueueCapacity
  | shutdownGracePeriodMs
  | auditRetentionDays
  | metricsRequireAuth
  | registrationEnabled
  | authLoginAccountFailureLimit
  | authLoginIpFailureLimit
  | authLoginFailureWindowSeconds
  | authLoginLockoutSeconds
  | authLoginMaxLockoutSeconds
  | authLoginMaxTrackedAccounts
  | authLoginMaxTrackedIps
  | tlsEnabled
  | tlsCertificateFile
  | tlsPrivateKeyFile
  | tlsHandshakeTimeoutSeconds
  | trustedProxyCidrs
  | proxyForwardedHeaderMaxBytes
  | corsAllowedOrigins
  | corsAllowCredentials
  | corsMaxAgeSeconds
  | hstsEnabled
  | hstsMaxAgeSeconds
  | hstsIncludeSubdomains
  | hstsPreload
  | httpMaxConnections
  | httpRateLimitRequests
  | httpRateLimitWindowSeconds
  | httpRateLimitMaxBuckets
  | httpMaxHeaderBytes
  | httpMaxBodyBytes
  | httpReadTimeoutSeconds
  | httpWriteTimeoutSeconds
  | httpIdleTimeoutSeconds
  deriving DecidableEq, Repr

namespace ConfigKey

def name : ConfigKey → String
  | .environment => "environment"
  | .listenAddress => "listen_address"
  | .listenPort => "listen_port"
  | .logFile => "log_file"
  | .databasePath => "database_path"
  | .databasePoolSize => "database_pool_size"
  | .databaseAcquireTimeoutMs => "database_acquire_timeout_ms"
  | .ioThreads => "io_threads"
  | .workerThreads => "worker_threads"
  | .workerQueueCapacity => "worker_queue_capacity"
  | .shutdownGracePeriodMs => "shutdown_grace_period_ms"
  | .auditRetentionDays => "audit_retention_days"
  | .metricsRequireAuth => "metrics_require_auth"
  | .registrationEnabled => "registration_enabled"
  | .authLoginAccountFailureLimit => "auth_login_account_failure_limit"
  | .authLoginIpFailureLimit => "auth_login_ip_failure_limit"
  | .authLoginFailureWindowSeconds => "auth_login_failure_window_seconds"
  | .authLoginLockoutSeconds => "auth_login_lockout_seconds"
  | .authLoginMaxLockoutSeconds => "auth_login_max_lockout_seconds"
  | .authLoginMaxTrackedAccounts => "auth_login_max_tracked_accounts"
  | .authLoginMaxTrackedIps => "auth_login_max_tracked_ips"
  | .tlsEnabled => "tls_enabled"
  | .tlsCertificateFile => "tls_certificate_file"
  | .tlsPrivateKeyFile => "tls_private_key_file"
  | .tlsHandshakeTimeoutSeconds => "tls_handshake_timeout_seconds"
  | .trustedProxyCidrs => "trusted_proxy_cidrs"
  | .proxyForwardedHeaderMaxBytes => "proxy_forwarded_header_max_bytes"
  | .corsAllowedOrigins => "cors_allowed_origins"
  | .corsAllowCredentials => "cors_allow_credentials"
  | .corsMaxAgeSeconds => "cors_max_age_seconds"
  | .hstsEnabled => "hsts_enabled"
  | .hstsMaxAgeSeconds => "hsts_max_age_seconds"
  | .hstsIncludeSubdomains => "hsts_include_subdomains"
  | .hstsPreload => "hsts_preload"
  | .httpMaxConnections => "http_max_connections"
  | .httpRateLimitRequests => "http_rate_limit_requests"
  | .httpRateLimitWindowSeconds => "http_rate_limit_window_seconds"
  | .httpRateLimitMaxBuckets => "http_rate_limit_max_buckets"
  | .httpMaxHeaderBytes => "http_max_header_bytes"
  | .httpMaxBodyBytes => "http_max_body_bytes"
  | .httpReadTimeoutSeconds => "http_read_timeout_seconds"
  | .httpWriteTimeoutSeconds => "http_write_timeout_seconds"
  | .httpIdleTimeoutSeconds => "http_idle_timeout_seconds"

def all : List ConfigKey :=
  [.environment, .listenAddress, .listenPort, .logFile, .databasePath, .databasePoolSize,
    .databaseAcquireTimeoutMs, .ioThreads, .workerThreads, .workerQueueCapacity,
    .shutdownGracePeriodMs, .auditRetentionDays, .metricsRequireAuth, .registrationEnabled,
    .authLoginAccountFailureLimit, .authLoginIpFailureLimit, .authLoginFailureWindowSeconds,
    .authLoginLockoutSeconds, .authLoginMaxLockoutSeconds, .authLoginMaxTrackedAccounts,
    .authLoginMaxTrackedIps, .tlsEnabled, .tlsCertificateFile, .tlsPrivateKeyFile,
    .tlsHandshakeTimeoutSeconds, .trustedProxyCidrs, .proxyForwardedHeaderMaxBytes,
    .corsAllowedOrigins, .corsAllowCredentials, .corsMaxAgeSeconds, .hstsEnabled,
    .hstsMaxAgeSeconds, .hstsIncludeSubdomains, .hstsPreload, .httpMaxConnections,
    .httpRateLimitRequests, .httpRateLimitWindowSeconds, .httpRateLimitMaxBuckets,
    .httpMaxHeaderBytes, .httpMaxBodyBytes, .httpReadTimeoutSeconds, .httpWriteTimeoutSeconds,
    .httpIdleTimeoutSeconds]

def named? (key : List Char) : Option ConfigKey := all.find? (fun entry => entry.name.toList == key)

end ConfigKey

structure EnvironmentMapping where
  variableName : String
  key : String

def environmentMappings : List EnvironmentMapping :=
  [⟨"SECURECORE_ENVIRONMENT", "environment"⟩,
    ⟨"SECURECORE_LISTEN_ADDRESS", "listen_address"⟩,
    ⟨"SECURECORE_LISTEN_PORT", "listen_port"⟩,
    ⟨"SECURECORE_LOG_FILE", "log_file"⟩,
    ⟨"SECURECORE_DATABASE_PATH", "database_path"⟩,
    ⟨"SECURECORE_DATABASE_POOL_SIZE", "database_pool_size"⟩,
    ⟨"SECURECORE_DATABASE_ACQUIRE_TIMEOUT_MS", "database_acquire_timeout_ms"⟩,
    ⟨"SECURECORE_IO_THREADS", "io_threads"⟩,
    ⟨"SECURECORE_WORKER_THREADS", "worker_threads"⟩,
    ⟨"SECURECORE_WORKER_QUEUE_CAPACITY", "worker_queue_capacity"⟩,
    ⟨"SECURECORE_SHUTDOWN_GRACE_PERIOD_MS", "shutdown_grace_period_ms"⟩,
    ⟨"SECURECORE_AUDIT_RETENTION_DAYS", "audit_retention_days"⟩,
    ⟨"SECURECORE_METRICS_REQUIRE_AUTH", "metrics_require_auth"⟩,
    ⟨"SECURECORE_REGISTRATION_ENABLED", "registration_enabled"⟩,
    ⟨"SECURECORE_AUTH_LOGIN_ACCOUNT_FAILURE_LIMIT", "auth_login_account_failure_limit"⟩,
    ⟨"SECURECORE_AUTH_LOGIN_IP_FAILURE_LIMIT", "auth_login_ip_failure_limit"⟩,
    ⟨"SECURECORE_AUTH_LOGIN_FAILURE_WINDOW_SECONDS", "auth_login_failure_window_seconds"⟩,
    ⟨"SECURECORE_AUTH_LOGIN_LOCKOUT_SECONDS", "auth_login_lockout_seconds"⟩,
    ⟨"SECURECORE_AUTH_LOGIN_MAX_LOCKOUT_SECONDS", "auth_login_max_lockout_seconds"⟩,
    ⟨"SECURECORE_AUTH_LOGIN_MAX_TRACKED_ACCOUNTS", "auth_login_max_tracked_accounts"⟩,
    ⟨"SECURECORE_AUTH_LOGIN_MAX_TRACKED_IPS", "auth_login_max_tracked_ips"⟩,
    ⟨"SECURECORE_TLS_ENABLED", "tls_enabled"⟩,
    ⟨"SECURECORE_TLS_CERTIFICATE_FILE", "tls_certificate_file"⟩,
    ⟨"SECURECORE_TLS_PRIVATE_KEY_FILE", "tls_private_key_file"⟩,
    ⟨"SECURECORE_TLS_HANDSHAKE_TIMEOUT_SECONDS", "tls_handshake_timeout_seconds"⟩,
    ⟨"SECURECORE_TRUSTED_PROXY_CIDRS", "trusted_proxy_cidrs"⟩,
    ⟨"SECURECORE_PROXY_FORWARDED_HEADER_MAX_BYTES", "proxy_forwarded_header_max_bytes"⟩,
    ⟨"SECURECORE_CORS_ALLOWED_ORIGINS", "cors_allowed_origins"⟩,
    ⟨"SECURECORE_CORS_ALLOW_CREDENTIALS", "cors_allow_credentials"⟩,
    ⟨"SECURECORE_CORS_MAX_AGE_SECONDS", "cors_max_age_seconds"⟩,
    ⟨"SECURECORE_HSTS_ENABLED", "hsts_enabled"⟩,
    ⟨"SECURECORE_HSTS_MAX_AGE_SECONDS", "hsts_max_age_seconds"⟩,
    ⟨"SECURECORE_HSTS_INCLUDE_SUBDOMAINS", "hsts_include_subdomains"⟩,
    ⟨"SECURECORE_HSTS_PRELOAD", "hsts_preload"⟩,
    ⟨"SECURECORE_HTTP_MAX_CONNECTIONS", "http_max_connections"⟩,
    ⟨"SECURECORE_HTTP_RATE_LIMIT_REQUESTS", "http_rate_limit_requests"⟩,
    ⟨"SECURECORE_HTTP_RATE_LIMIT_WINDOW_SECONDS", "http_rate_limit_window_seconds"⟩,
    ⟨"SECURECORE_HTTP_RATE_LIMIT_MAX_BUCKETS", "http_rate_limit_max_buckets"⟩,
    ⟨"SECURECORE_HTTP_MAX_HEADER_BYTES", "http_max_header_bytes"⟩,
    ⟨"SECURECORE_HTTP_MAX_BODY_BYTES", "http_max_body_bytes"⟩,
    ⟨"SECURECORE_HTTP_READ_TIMEOUT_SECONDS", "http_read_timeout_seconds"⟩,
    ⟨"SECURECORE_HTTP_WRITE_TIMEOUT_SECONDS", "http_write_timeout_seconds"⟩,
    ⟨"SECURECORE_HTTP_IDLE_TIMEOUT_SECONDS", "http_idle_timeout_seconds"⟩]

structure ServerConfig where
  environment : List Char := "development".toList
  listenAddress : List Char := "0.0.0.0".toList
  listenPort : Nat := 8080
  logFile : List Char := "logs/securecore.log".toList
  databasePath : List Char := "data/securecore.db".toList
  databasePoolSize : Nat := 4
  databaseAcquireTimeoutMs : Nat := 5000
  ioThreads : Nat := 4
  workerThreads : Nat := 4
  workerQueueCapacity : Nat := 256
  shutdownGracePeriodMs : Nat := 10000
  auditRetentionDays : Nat := 90
  metricsRequireAuth : Bool := false
  registrationEnabled : Bool := false
  authLoginAccountFailureLimit : Nat := 5
  authLoginIpFailureLimit : Nat := 20
  authLoginFailureWindowSeconds : Nat := 300
  authLoginLockoutSeconds : Nat := 300
  authLoginMaxLockoutSeconds : Nat := 3600
  authLoginMaxTrackedAccounts : Nat := 65536
  authLoginMaxTrackedIps : Nat := 65536
  tlsEnabled : Bool := false
  tlsCertificateFile : List Char := []
  tlsPrivateKeyFile : List Char := []
  tlsHandshakeTimeoutSeconds : Nat := 10
  trustedProxyCidrs : List (List Char) := []
  proxyForwardedHeaderMaxBytes : Nat := 4096
  corsAllowedOrigins : List (List Char) := ["*".toList]
  corsAllowCredentials : Bool := false
  corsMaxAgeSeconds : Nat := 600
  hstsEnabled : Bool := true
  hstsMaxAgeSeconds : Nat := 31536000
  hstsIncludeSubdomains : Bool := true
  hstsPreload : Bool := false
  httpMaxConnections : Nat := 1024
  httpRateLimitRequests : Nat := 100
  httpRateLimitWindowSeconds : Nat := 1
  httpRateLimitMaxBuckets : Nat := 65536
  httpMaxHeaderBytes : Nat := 16 * 1024
  httpMaxBodyBytes : Nat := 1024 * 1024
  httpReadTimeoutSeconds : Nat := 10
  httpWriteTimeoutSeconds : Nat := 10
  httpIdleTimeoutSeconds : Nat := 30
  deriving DecidableEq, Repr

/-! ## The parsers of settings -/

def invalidSetting (key : List Char) (source expected : String) : Exception :=
  .runtimeError ("Invalid " ++ String.ofList key ++ " from " ++ source ++ ": " ++ expected)

/-- The loop over the separators throws at the first empty entry. -/
def parseCsvList (value key : List Char) (source : String) (allowNone : Bool) :
    Except Exception (List (List Char)) :=
  if allowNone && lowercaseChars value == "none".toList then .ok []
  else
    let items := (value.splitOn ',').map trimChars
    if items.any List.isEmpty then .error (invalidSetting key source "list entries must not be empty")
    else .ok items

/-- std::from_chars reads digits into 64 bits and nothing else. -/
def parseUnsigned (value key : List Char) (source : String) (minimum maximum : Nat) : Except Exception Nat :=
  let digits := value.takeWhile Char.isDigit
  let result := decimalValue digits
  if digits.isEmpty || 2 ^ 64 ≤ result || !(value.dropWhile Char.isDigit).isEmpty ||
      result < minimum || maximum < result then
    .error (invalidSetting key source
      ("expected an integer from " ++ toString minimum ++ " through " ++ toString maximum))
  else .ok result

def trueWords : List (List Char) := ["true".toList, "1".toList, "yes".toList, "on".toList]

def falseWords : List (List Char) := ["false".toList, "0".toList, "no".toList, "off".toList]

def parseBoolean (value key : List Char) (source : String) : Except Exception Bool :=
  let normalized := lowercaseChars value
  if trueWords.contains normalized then .ok true
  else if falseWords.contains normalized then .ok false
  else .error (invalidSetting key source "expected true or false")

namespace ServerConfig

def applySetting (config : ServerConfig) (key value : List Char) (source : String) :
    Except Exception ServerConfig :=
  let unsigned := parseUnsigned value key source
  let boolean := parseBoolean value key source
  let csvList := parseCsvList value key source
  match ConfigKey.named? key with
  | some .environment => .ok { config with environment := lowercaseChars value }
  | some .listenAddress => .ok { config with listenAddress := value }
  | some .listenPort => (unsigned 1 65535).map (fun parsed => { config with listenPort := parsed })
  | some .logFile => .ok { config with logFile := value }
  | some .databasePath => .ok { config with databasePath := value }
  | some .databasePoolSize => (unsigned 1 64).map (fun parsed => { config with databasePoolSize := parsed })
  | some .databaseAcquireTimeoutMs =>
    (unsigned 1 60000).map (fun parsed => { config with databaseAcquireTimeoutMs := parsed })
  | some .ioThreads => (unsigned 1 64).map (fun parsed => { config with ioThreads := parsed })
  | some .workerThreads => (unsigned 1 64).map (fun parsed => { config with workerThreads := parsed })
  | some .workerQueueCapacity =>
    (unsigned 1 1000000).map (fun parsed => { config with workerQueueCapacity := parsed })
  | some .shutdownGracePeriodMs =>
    (unsigned 1 600000).map (fun parsed => { config with shutdownGracePeriodMs := parsed })
  | some .auditRetentionDays =>
    (unsigned 1 3650).map (fun parsed => { config with auditRetentionDays := parsed })
  | some .metricsRequireAuth => boolean.map (fun parsed => { config with metricsRequireAuth := parsed })
  | some .registrationEnabled => boolean.map (fun parsed => { config with registrationEnabled := parsed })
  | some .authLoginAccountFailureLimit =>
    (unsigned 1 1000).map (fun parsed => { config with authLoginAccountFailureLimit := parsed })
  | some .authLoginIpFailureLimit =>
    (unsigned 1 100000).map (fun parsed => { config with authLoginIpFailureLimit := parsed })
  | some .authLoginFailureWindowSeconds =>
    (unsigned 1 86400).map (fun parsed => { config with authLoginFailureWindowSeconds := parsed })
  | some .authLoginLockoutSeconds =>
    (unsigned 1 86400).map (fun parsed => { config with authLoginLockoutSeconds := parsed })
  | some .authLoginMaxLockoutSeconds =>
    (unsigned 1 604800).map (fun parsed => { config with authLoginMaxLockoutSeconds := parsed })
  | some .authLoginMaxTrackedAccounts =>
    (unsigned 1 10000000).map (fun parsed => { config with authLoginMaxTrackedAccounts := parsed })
  | some .authLoginMaxTrackedIps =>
    (unsigned 1 10000000).map (fun parsed => { config with authLoginMaxTrackedIps := parsed })
  | some .tlsEnabled => boolean.map (fun parsed => { config with tlsEnabled := parsed })
  | some .tlsCertificateFile => .ok { config with tlsCertificateFile := value }
  | some .tlsPrivateKeyFile => .ok { config with tlsPrivateKeyFile := value }
  | some .tlsHandshakeTimeoutSeconds =>
    (unsigned 1 300).map (fun parsed => { config with tlsHandshakeTimeoutSeconds := parsed })
  | some .trustedProxyCidrs =>
    (csvList true).map (fun parsed => { config with trustedProxyCidrs := parsed })
  | some .proxyForwardedHeaderMaxBytes =>
    (unsigned 128 65536).map (fun parsed => { config with proxyForwardedHeaderMaxBytes := parsed })
  | some .corsAllowedOrigins =>
    (csvList false).map (fun parsed => { config with corsAllowedOrigins := parsed })
  | some .corsAllowCredentials => boolean.map (fun parsed => { config with corsAllowCredentials := parsed })
  | some .corsMaxAgeSeconds =>
    (unsigned 0 86400).map (fun parsed => { config with corsMaxAgeSeconds := parsed })
  | some .hstsEnabled => boolean.map (fun parsed => { config with hstsEnabled := parsed })
  | some .hstsMaxAgeSeconds =>
    (unsigned 0 63072000).map (fun parsed => { config with hstsMaxAgeSeconds := parsed })
  | some .hstsIncludeSubdomains =>
    boolean.map (fun parsed => { config with hstsIncludeSubdomains := parsed })
  | some .hstsPreload => boolean.map (fun parsed => { config with hstsPreload := parsed })
  | some .httpMaxConnections =>
    (unsigned 1 1000000).map (fun parsed => { config with httpMaxConnections := parsed })
  | some .httpRateLimitRequests =>
    (unsigned 0 1000000).map (fun parsed => { config with httpRateLimitRequests := parsed })
  | some .httpRateLimitWindowSeconds =>
    (unsigned 1 3600).map (fun parsed => { config with httpRateLimitWindowSeconds := parsed })
  | some .httpRateLimitMaxBuckets =>
    (unsigned 1 10000000).map (fun parsed => { config with httpRateLimitMaxBuckets := parsed })
  | some .httpMaxHeaderBytes =>
    (unsigned 1024 (1024 * 1024)).map (fun parsed => { config with httpMaxHeaderBytes := parsed })
  | some .httpMaxBodyBytes =>
    (unsigned 1 (1024 * 1024 * 1024)).map (fun parsed => { config with httpMaxBodyBytes := parsed })
  | some .httpReadTimeoutSeconds =>
    (unsigned 1 3600).map (fun parsed => { config with httpReadTimeoutSeconds := parsed })
  | some .httpWriteTimeoutSeconds =>
    (unsigned 1 3600).map (fun parsed => { config with httpWriteTimeoutSeconds := parsed })
  | some .httpIdleTimeoutSeconds =>
    (unsigned 1 3600).map (fun parsed => { config with httpIdleTimeoutSeconds := parsed })
  | none => .error (.runtimeError
      ("Unknown configuration key '" ++ String.ofList key ++ "' from " ++ source))

/-! ## load_from_file -/

/-- The lines that std::getline reads; the end of a line at the end of the file begins none. -/
def readLines (input : List Char) : List (List Char) :=
  let pieces := input.splitOn '\n'
  if pieces.getLast? == some [] then pieces.dropLast else pieces

/-- What is read off a line before its key is looked at. -/
inductive Line where
  | skipped
  | missingSeparator
  | incomplete
  | assignment (key value : List Char)
  deriving DecidableEq, Repr

def readLine (rawLine : List Char) : Line :=
  let line := trimChars rawLine
  if line.isEmpty || line.head? == some '#' then .skipped
  else if !line.contains '=' then .missingSeparator
  else
    let key := trimChars (line.takeWhile (fun c => c != '='))
    let value := trimChars ((line.dropWhile (fun c => c != '=')).drop 1)
    if key.isEmpty || value.isEmpty then .incomplete else .assignment key value

/-- One turn of the loop of load_from_file, at a line and its number. -/
def loadLine (config : ServerConfig) (numbered : List Char × Nat) : Except Exception ServerConfig :=
  let number := toString numbered.2
  match readLine numbered.1 with
  | .skipped => .ok config
  | .missingSeparator => .error (.runtimeError ("Missing '=' at configuration line " ++ number))
  | .incomplete => .error (.runtimeError ("Empty key or value at configuration line " ++ number))
  | .assignment key value => config.applySetting key value ("configuration line " ++ number)

/-- One turn of the loop of apply_environment_overrides. -/
def applyEnvironment (environment : String → Option (List Char)) (config : ServerConfig)
    (mapping : EnvironmentMapping) : Except Exception ServerConfig :=
  match environment mapping.variableName with
  | none => .ok config
  | some rawValue =>
    let value := trimChars rawValue
    if value.isEmpty then
      .error (.runtimeError ("Environment variable " ++ mapping.variableName ++ " must not be empty"))
    else config.applySetting mapping.key.toList value ("environment variable " ++ mapping.variableName)

def applyEnvironmentOverrides (config : ServerConfig) (environment : String → Option (List Char)) :
    Except Exception ServerConfig :=
  environmentMappings.foldlM (applyEnvironment environment) config

/-! ## Validation -/

def invalidCidr (part : String) (cidr : List Char) : Exception :=
  .runtimeError ("Invalid trusted_proxy_cidrs " ++ part ++ ": " ++ String.ofList cidr)

/-- `std::stoul` fails only on numbers that are too large anyway. -/
def validateProxyCidr (text : AddressText) (cidr : List Char) : Except Exception Unit :=
  match text.makeAddress (cidr.takeWhile (fun c => c != '/')) with
  | none => .error (invalidCidr "entry" cidr)
  | some address =>
    if !cidr.contains '/' then .ok ()
    else
      let prefixText := (cidr.dropWhile (fun c => c != '/')).drop 1
      if prefixText.isEmpty then .error (invalidCidr "prefix" cidr)
      else if !prefixText.all Char.isDigit then .error (invalidCidr "prefix" cidr)
      else if address.width < decimalValue prefixText then .error (invalidCidr "prefix" cidr)
      else .ok ()

def validCorsOrigin (origin : List Char) : Bool :=
  if origin == "*".toList then true
  else if origin.isEmpty || origin.any isBlank then false
  else
    let authorityStart :=
      if "http://".toList.isPrefixOf origin then some 7
      else if "https://".toList.isPrefixOf origin then some 8
      else none
    match authorityStart with
    | none => false
    | some start =>
      if origin.length ≤ start then false
      else
        let authority := origin.drop start
        !authority.contains '/' && !authority.contains '?' && !authority.contains '#' && !authority.contains '@'

def throwIf (refused : Bool) (message : String) : Except Exception Unit :=
  if refused then .error (.runtimeError message) else .ok ()

def validateOrigins (config : ServerConfig) : Except Exception Unit := do
  throwIf config.corsAllowedOrigins.isEmpty "cors_allowed_origins must not be empty"
  config.corsAllowedOrigins.forM (fun origin =>
    throwIf (!validCorsOrigin origin) ("Invalid cors_allowed_origins entry: " ++ String.ofList origin))
  let wildcardOrigin := config.corsAllowedOrigins.contains "*".toList
  throwIf (wildcardOrigin && config.corsAllowedOrigins.length != 1)
    "CORS wildcard cannot be combined with exact origins"
  throwIf (wildcardOrigin && config.corsAllowCredentials)
    "cors_allow_credentials cannot be true when cors_allowed_origins=*"

def validateCommon (config : ServerConfig) (text : AddressText) : Except Exception Unit := do
  throwIf (config.environment != "development".toList && config.environment != "test".toList &&
    config.environment != "production".toList)
    "Invalid environment: expected development, test, or production"
  throwIf config.listenAddress.isEmpty "listen_address must not be empty"
  throwIf config.logFile.isEmpty "log_file must not be empty"
  throwIf config.databasePath.isEmpty "database_path must not be empty"
  throwIf (config.authLoginMaxLockoutSeconds < config.authLoginLockoutSeconds)
    "auth_login_max_lockout_seconds must be greater than or equal to auth_login_lockout_seconds"
  config.trustedProxyCidrs.forM (validateProxyCidr text)
  config.validateOrigins
  throwIf (config.hstsPreload && (!config.hstsEnabled || !config.hstsIncludeSubdomains ||
    config.hstsMaxAgeSeconds < 31536000))
    "hsts_preload requires HSTS enabled, includeSubDomains, and max-age of at least 31536000"

/-- The file is given by its contents, or not at all if it cannot be opened. -/
def loadFromFile (text : AddressText) (environment : String → Option (List Char)) (path : List Char)
    (input : Option (List Char)) : Except Exception ServerConfig :=
  match input with
  | none => .error (.runtimeError ("Failed to open configuration file: " ++ String.ofList path))
  | some input => do
    let config ← (readLines input).zipIdx 1 |>.foldlM loadLine {}
    let config ← config.applyEnvironmentOverrides environment
    config.validateCommon text
    .ok config

end ServerConfig

/-! ## validate_for_server -/

/-- The calls of std::filesystem with their error messages; directories are created in the state. -/
structure FileSystem (σ : Type) where
  parentPath : List Char → List Char
  fileExists : σ → List Char → Except String Bool
  isDirectory : σ → List Char → Except String Bool
  createDirectories : σ → List Char → Except String σ
  isRegularFile : σ → List Char → Except String Bool
  permissions : σ → List Char → Except String Nat

namespace ServerConfig

variable {σ : Type} (files : FileSystem σ)

def ensureParentDirectory (rawPath : List Char) (description : String) (state : σ) : Except Exception σ := do
  throwIf rawPath.isEmpty (description ++ " path must not be empty")
  let inspected := do
    let there ← files.fileExists state rawPath
    if there then files.isDirectory state rawPath else .ok false
  match inspected with
  | .error message => .error (.runtimeError ("Failed to inspect " ++ description ++ " path: " ++ message))
  | .ok true => .error (.runtimeError
      (description ++ " path refers to a directory: " ++ String.ofList rawPath))
  | .ok false =>
    let parent := if (files.parentPath rawPath).isEmpty then ".".toList else files.parentPath rawPath
    match files.createDirectories state parent with
    | .error message => .error (.runtimeError ("Failed to create " ++ description ++ " parent directory '" ++
        String.ofList parent ++ "': " ++ message))
    | .ok state =>
      match files.isDirectory state parent with
      | .ok true => .ok state
      | _ => .error (.runtimeError
          (description ++ " parent is not a directory: " ++ String.ofList parent))

def requireRegularFile (rawPath : List Char) (description : String) (redactPath : Bool) (state : σ) :
    Except Exception Unit := do
  throwIf rawPath.isEmpty (description ++ " path must not be empty")
  match files.isRegularFile state rawPath with
  | .ok true => .ok ()
  | _ => .error (.runtimeError (description ++ " does not exist or is not a regular file" ++
      (if redactPath then "" else ": " ++ String.ofList rawPath)))

def requirePrivatePermissions (rawPath : List Char) (state : σ) : Except Exception Unit :=
  match files.permissions state rawPath with
  | .error message => .error (.runtimeError ("Failed to inspect TLS private key permissions: " ++ message))
  | .ok permissions => throwIf (permissions &&& 0o077 != 0)
      "TLS private key permissions are too open. Restrict the file with chmod 600"

def isLoopbackAddress (address : List Char) : Bool :=
  address == "127.0.0.1".toList || address == "::1".toList || address == "localhost".toList

def validateForServer (config : ServerConfig) (text : AddressText) (state : σ) : Except Exception σ := do
  config.validateCommon text
  let state ← ensureParentDirectory files config.logFile "Log file" state
  let state ← ensureParentDirectory files config.databasePath "Database" state
  if config.tlsEnabled then do
    requireRegularFile files config.tlsCertificateFile "TLS certificate file" false state
    requireRegularFile files config.tlsPrivateKeyFile "TLS private key file" true state
    requirePrivatePermissions files config.tlsPrivateKeyFile state
  if config.environment == "production".toList then do
    throwIf (!config.tlsEnabled && !isLoopbackAddress config.listenAddress)
      "Production mode refuses unencrypted HTTP on a non-loopback listen address"
    throwIf (config.httpRateLimitRequests == 0) "Production mode requires HTTP rate limiting"
    throwIf (config.corsAllowedOrigins == ["*".toList])
      "Production mode requires an explicit CORS origin allowlist"
  .ok state

end ServerConfig

end SecureCore

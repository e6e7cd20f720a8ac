import SecureCore.Config.ServerConfig

/-! # What the validation of a configuration accepts -/

namespace SecureCore

set_option autoImplicit false

open TrustedProxyResolver

namespace ServerConfig

/-- An address, and behind a slash a prefix that fits it. -/
def ValidCidr (text : AddressText) (cidr : List Char) : Prop :=
  ∃ address, text.makeAddress (cidr.takeWhile (fun c => c != '/')) = some address ∧
    ('/' ∈ cidr → ∃ first rest, cidr.dropWhile (fun c => c != '/') = '/' :: first :: rest ∧
      (first :: rest).all Char.isDigit = true ∧ decimalValue (first :: rest) ≤ address.width)

/-- A list of origins that can be served: one of them, or a list of exact ones. -/
structure ValidOrigins (config : ServerConfig) : Prop where
  nonempty : config.corsAllowedOrigins ≠ []
  valid : ∀ origin ∈ config.corsAllowedOrigins, validCorsOrigin origin = true
  alone : "*".toList ∈ config.corsAllowedOrigins →
    config.corsAllowedOrigins.length = 1 ∧ config.corsAllowCredentials = false

structure Valid (config : ServerConfig) (text : AddressText) : Prop where
  environment : config.environment ∈ ["development".toList, "test".toList, "production".toList]
  listenAddress : config.listenAddress ≠ []
  logFile : config.logFile ≠ []
  databasePath : config.databasePath ≠ []
  lockouts : config.authLoginLockoutSeconds ≤ config.authLoginMaxLockoutSeconds
  cidrs : ∀ cidr ∈ config.trustedProxyCidrs, ValidCidr text cidr
  origins : ValidOrigins config
  preload : config.hstsPreload = true → config.hstsEnabled = true ∧ config.hstsIncludeSubdomains = true ∧
    31536000 ≤ config.hstsMaxAgeSeconds

variable {text : AddressText} {config : ServerConfig}

/-! ## Checks in a row -/

theorem throwIf_eq_ok {refused : Bool} {message : String} : throwIf refused message = .ok () ↔ refused = false := by
  cases refused with
  | false => exact iff_of_true rfl rfl
  | true => exact iff_of_false nofun nofun

theorem checked_bind {α : Type} {check : Except Exception Unit} {rest : Except Exception α} {result : α} :
    (check >>= fun _ => rest) = .ok result ↔ check = .ok () ∧ rest = .ok result := by
  cases check with
  | ok _ => exact (and_iff_right rfl).symm
  | error e => exact iff_of_false nofun (fun h => nomatch h.1)

theorem forM_eq_ok {α : Type} {check : α → Except Exception Unit} {items : List α} :
    items.forM check = .ok () ↔ ∀ item ∈ items, check item = .ok () := by
  induction items with
  | nil => exact iff_of_true rfl (fun _ h => absurd h List.not_mem_nil)
  | cons item items ih =>
    change (check item >>= fun _ => items.forM check) = .ok () ↔ _
    rw [checked_bind, ih, List.forall_mem_cons]

/-! ## What passes -/

theorem validateProxyCidr_eq_ok {cidr : List Char} : validateProxyCidr text cidr = .ok () ↔ ValidCidr text cidr := by
  rw [validateProxyCidr]
  cases hAddress : text.makeAddress (cidr.takeWhile (fun c => c != '/')) with
  | none =>
    refine iff_of_false nofun (fun h => ?_)
    obtain ⟨address, hSome, -⟩ := h
    rw [hAddress] at hSome
    cases hSome
  | some address =>
    dsimp only
    split
    · rename_i hPlain
      refine iff_of_true rfl ⟨address, hAddress, fun hSlash => ?_⟩
      rw [List.contains_iff_mem.mpr hSlash] at hPlain
      cases hPlain
    · rename_i hSlash
      rw [Bool.not_eq_true', Bool.not_eq_false, List.contains_iff_mem] at hSlash
      obtain ⟨before, prefixText, hCidr, hBefore⟩ := List.eq_append_cons_of_mem hSlash
      have hRest : cidr.dropWhile (fun c => c != '/') = '/' :: prefixText :=
        hCidr ▸ dropWhile_ne hBefore prefixText
      have hValid : ValidCidr text cidr ↔ prefixText ≠ [] ∧ prefixText.all Char.isDigit = true ∧
          decimalValue prefixText ≤ address.width := by
        constructor
        · rintro ⟨other, hOther, hPrefix⟩
          obtain ⟨first, rest, hSame, hDigits, hFits⟩ := hPrefix hSlash
          rw [hAddress] at hOther
          cases hOther
          rw [hRest] at hSame
          cases hSame
          exact ⟨List.cons_ne_nil _ _, hDigits, hFits⟩
        · rintro ⟨hNonempty, hDigits, hFits⟩
          obtain ⟨first, rest, rfl⟩ := List.exists_cons_of_ne_nil hNonempty
          exact ⟨address, hAddress, fun _ => ⟨first, rest, hRest, hDigits, hFits⟩⟩
      rw [hValid, hRest, List.drop_succ_cons, List.drop_zero]
      split
      · rename_i hEmpty
        exact iff_of_false nofun (fun h => h.1 (List.isEmpty_iff.mp hEmpty))
      · rename_i hNonempty
        split
        · rename_i hOther
          refine iff_of_false nofun (fun h => ?_)
          rw [h.2.1] at hOther
          cases hOther
        · rename_i hDigits
          rw [Bool.not_eq_true', Bool.not_eq_false] at hDigits
          split
          · exact iff_of_false nofun (fun h => by omega)
          · rename_i hFits
            refine iff_of_true rfl ⟨fun hNil => hNonempty (List.isEmpty_iff.mpr hNil), hDigits, ?_⟩
            omega

theorem validateOrigins_eq_ok : config.validateOrigins = .ok () ↔ ValidOrigins config := by
  rw [validateOrigins]
  simp only [checked_bind, forM_eq_ok, throwIf_eq_ok, Bool.not_eq_false', Bool.and_eq_false_imp,
    List.contains_iff_mem, bne_eq_false_iff_eq, List.isEmpty_eq_false_iff]
  constructor
  · rintro ⟨hNonempty, hValid, hAlone, hCredentials⟩
    exact ⟨hNonempty, hValid, fun h => ⟨hAlone h, hCredentials h⟩⟩
  · rintro ⟨hNonempty, hValid, hAlone⟩
    exact ⟨hNonempty, hValid, fun h => (hAlone h).1, fun h => (hAlone h).2⟩

theorem validateCommon_eq_ok : config.validateCommon text = .ok () ↔ config.Valid text := by
  have hEnvironment : (config.environment != "development".toList && config.environment != "test".toList &&
      config.environment != "production".toList) = false ↔
        config.environment ∈ ["development".toList, "test".toList, "production".toList] := by
    rw [List.mem_cons, List.mem_cons, List.mem_singleton, Bool.and_eq_false_iff, Bool.and_eq_false_iff,
      bne_eq_false_iff_eq, bne_eq_false_iff_eq, bne_eq_false_iff_eq, or_assoc]
  have hPreload : (config.hstsPreload && (!config.hstsEnabled || !config.hstsIncludeSubdomains ||
      decide (config.hstsMaxAgeSeconds < 31536000))) = false ↔ (config.hstsPreload = true →
        config.hstsEnabled = true ∧ config.hstsIncludeSubdomains = true ∧ 31536000 ≤ config.hstsMaxAgeSeconds) := by
    rw [Bool.and_eq_false_imp, Bool.or_eq_false_iff, Bool.or_eq_false_iff, Bool.not_eq_false', Bool.not_eq_false',
      decide_eq_false_iff_not, Nat.not_lt, and_assoc]
  rw [validateCommon]
  simp only [checked_bind, forM_eq_ok, throwIf_eq_ok, validateProxyCidr_eq_ok, validateOrigins_eq_ok,
    List.isEmpty_eq_false_iff, decide_eq_false_iff_not, Nat.not_lt, hPreload]
  rw [hEnvironment]
  constructor
  · rintro ⟨hEnv, hAddress, hLog, hDatabase, hLockouts, hCidrs, hOrigins, hHsts⟩
    exact ⟨hEnv, hAddress, hLog, hDatabase, hLockouts, hCidrs, hOrigins, hHsts⟩
  · rintro ⟨hEnv, hAddress, hLog, hDatabase, hLockouts, hCidrs, hOrigins, hHsts⟩
    exact ⟨hEnv, hAddress, hLog, hDatabase, hLockouts, hCidrs, hOrigins, hHsts⟩

end ServerConfig

end SecureCore

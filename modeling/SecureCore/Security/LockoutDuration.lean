import SecureCore.Security.Lockouts
import SecureCore.Words.Checked

/-! # The length of a lockout

lockout_duration once more, over any operations on words: with those of the machine it is
the function of the protector, and with checked ones it shows that none of them wraps. -/

namespace SecureCore.AuthAbuseProtector

set_option autoImplicit false

open Words

section operations

variable {m : Type → Type} [Monad m] (op : Operations m)

/-- The multiplier loop: `steps` rounds are left. -/
def lockoutMultiplierWith (maximum : Nat) : Nat → Nat → m Nat
  | 0, multiplier => pure multiplier
  | steps + 1, multiplier =>
    if multiplier ≥ maximum then pure multiplier
    else do
      let doubled ← op.multiply multiplier 2
      lockoutMultiplierWith maximum steps doubled

def lockoutDurationWith (config : AuthAbuseConfig) (level : Nat) : m Nat := do
  let maximum := toUint64 config.maximumLockout
  let base := toUint64 config.baseLockout
  let multiplier ← lockoutMultiplierWith op maximum (level - 1) 1
  let quotient ← op.divide maximum multiplier
  if base > quotient then pure (min maximum maximum)
  else do
    let product ← op.multiply base multiplier
    pure (min maximum product)

end operations

variable {config : AuthAbuseConfig}

theorem lockoutMultiplierWith_wrapping (maximum steps multiplier : Nat) :
    lockoutMultiplierWith (wrapping 64) maximum steps multiplier =
      lockoutMultiplier maximum steps multiplier := by
  induction steps generalizing multiplier with
  | zero => rfl
  | succ steps ih =>
    rw [lockoutMultiplierWith, lockoutMultiplier]
    split
    · rfl
    · exact ih (multiplier * 2 % 2 ^ 64)

/-- With the operations of the machine it is the function of the protector. -/
theorem lockoutDurationWith_wrapping (config : AuthAbuseConfig) (level : Nat) :
    lockoutDurationWith (wrapping 64) config level = lockoutDuration config level := by
  rw [lockoutDuration, ← lockoutMultiplierWith_wrapping]
  exact (apply_ite (min (toUint64 config.maximumLockout)) _ _ _).symm

/-! ## No operation wraps -/

/-- Only a multiplier below the maximum is doubled. -/
theorem lockoutMultiplierWith_checked {maximum : Nat} (hMaximum : maximum < 2 ^ 63)
    (steps multiplier : Nat) :
    lockoutMultiplierWith (checked 64) maximum steps multiplier =
      some (lockoutMultiplier maximum steps multiplier) := by
  induction steps generalizing multiplier with
  | zero => rfl
  | succ steps ih =>
    rw [lockoutMultiplierWith, lockoutMultiplier]
    split
    · rfl
    · rename_i hBelow
      have hFits : multiplier * 2 < 2 ^ 64 := by omega
      rw [checked_multiply hFits, Nat.mod_eq_of_lt hFits]
      exact ih (multiplier * 2)

theorem lockoutMultiplier_pos {maximum multiplier : Nat} (hMaximum : maximum < 2 ^ 63)
    (hMultiplier : 0 < multiplier) (steps : Nat) : 0 < lockoutMultiplier maximum steps multiplier := by
  induction steps generalizing multiplier with
  | zero => exact hMultiplier
  | succ steps ih =>
    rw [lockoutMultiplier]
    split
    · exact hMultiplier
    · apply ih
      omega

/-- The division guards the product, so neither of the two fails. -/
theorem lockoutDurationWith_checked (hMaximum : toUint64 config.maximumLockout < 2 ^ 63)
    (level : Nat) :
    lockoutDurationWith (checked 64) config level = some (lockoutDuration config level) := by
  rw [lockoutDurationWith, lockoutDuration]
  simp only [lockoutMultiplierWith_checked hMaximum, Option.bind_eq_bind, Option.bind_some]
  have hPositive := lockoutMultiplier_pos hMaximum Nat.one_pos (level - 1)
  generalize lockoutMultiplier (toUint64 config.maximumLockout) (level - 1) 1 = multiplier at hPositive ⊢
  rw [checked_divide hPositive.ne', Option.bind_some]
  split
  · rfl
  · rename_i hWithin
    have hProduct : toUint64 config.baseLockout * multiplier ≤ toUint64 config.maximumLockout :=
      Nat.mul_le_of_le_div _ _ _ (Nat.not_lt.mp hWithin)
    have hFits : toUint64 config.baseLockout * multiplier < 2 ^ 64 := by omega
    rw [checked_multiply hFits, Nat.mod_eq_of_lt hFits]
    rfl

/-! ## The value -/

/-- The base doubled level - 1 times, up to the maximum. -/
def cappedLockout (config : AuthAbuseConfig) (level : Nat) : Int :=
  min config.maximumLockout (config.baseLockout * 2 ^ (level - 1))

theorem cappedLockout_mono (hBase : 1 ≤ config.baseLockout) {level level' : Nat} (h : level ≤ level') :
    cappedLockout config level ≤ cappedLockout config level' := by
  have hPower : (2 : Int) ^ (level - 1) ≤ 2 ^ (level' - 1) :=
    pow_le_pow_right₀ (by omega) (Nat.sub_le_sub_right h 1)
  have hProduct : config.baseLockout * 2 ^ (level - 1) ≤ config.baseLockout * 2 ^ (level' - 1) :=
    mul_le_mul_of_nonneg_left hPower (by omega)
  exact min_le_min_left _ hProduct

theorem cappedLockout_bounds (hBase : 1 ≤ config.baseLockout)
    (hMaximum : config.baseLockout ≤ config.maximumLockout) (level : Nat) :
    config.baseLockout ≤ cappedLockout config level ∧
      cappedLockout config level ≤ config.maximumLockout := by
  have hPower : (1 : Int) ≤ 2 ^ (level - 1) := one_le_pow₀ (by omega)
  have hProduct : config.baseLockout ≤ config.baseLockout * 2 ^ (level - 1) :=
    le_mul_of_one_le_right (by omega) hPower
  exact ⟨le_min hMaximum hProduct, min_le_left _ _⟩

theorem lockoutDuration_capped (hBase : 1 ≤ config.baseLockout)
    (hMaximum : config.baseLockout ≤ config.maximumLockout ∧ config.maximumLockout < 2 ^ 63)
    {level : Nat} (hLevel : 1 ≤ level) :
    (lockoutDuration config level : Int) = cappedLockout config level := by
  obtain ⟨n, rfl⟩ := Nat.exists_eq_add_of_le' hLevel
  exact lockoutDuration_eq (by omega) hMaximum n

/-- The length of a lockout is exact, grows with the level within the two configured ones,
and is computed without a wrap or a division by zero. -/
theorem lockout_duration (hBase : 1 ≤ config.baseLockout)
    (hMaximum : config.baseLockout ≤ config.maximumLockout) (hBits : config.maximumLockout < 2 ^ 63)
    {level : Nat} (hLevel : 1 ≤ level) :
    (lockoutDuration config level : Int) =
        min config.maximumLockout (config.baseLockout * 2 ^ (level - 1)) ∧
      (∀ level' ≥ level, lockoutDuration config level ≤ lockoutDuration config level') ∧
      config.baseLockout ≤ lockoutDuration config level ∧
      lockoutDuration config level ≤ config.maximumLockout ∧
      lockoutDurationWith (wrapping 64) config level = lockoutDuration config level ∧
      lockoutDurationWith (checked 64) config level = some (lockoutDuration config level) := by
  have hValue := lockoutDuration_capped hBase ⟨hMaximum, hBits⟩ hLevel
  have hBounds := cappedLockout_bounds hBase hMaximum level
  have hWord : toUint64 config.maximumLockout < 2 ^ 63 := by
    have hSame := toUint64_of_nonneg (n := config.maximumLockout) (by omega) hBits
    omega
  refine ⟨hValue, ?_, ?_, ?_, lockoutDurationWith_wrapping config level,
    lockoutDurationWith_checked hWord level⟩
  · intro level' hLater
    have hLaterValue := lockoutDuration_capped hBase ⟨hMaximum, hBits⟩ (hLevel.trans hLater)
    have hMono := cappedLockout_mono hBase hLater
    omega
  · rw [hValue]
    exact hBounds.1
  · rw [hValue]
    exact hBounds.2

open Sample in
theorem lockout_duration_sample :
    (lockoutDuration limits 4 : Int) = min limits.maximumLockout (limits.baseLockout * 2 ^ 3) ∧
      lockoutDurationWith (checked 64) limits 4 = some (lockoutDuration limits 4) := by
  have hDuration := @lockout_duration limits (by decide) (by decide) (by decide) 4 (by decide)
  exact ⟨hDuration.1, hDuration.2.2.2.2.2⟩

end SecureCore.AuthAbuseProtector

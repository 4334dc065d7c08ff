import Mathlib.Data.Nat.Log
import Mathlib.Algebra.Order.Ring.Int
import Mathlib.Tactic.Ring

/-!
Whole numbers in a 53-bit floating-point number: the nearest one, ties to even, and
the decimal text it is shown with, the shortest that is read back as the same number.
Magnitudes stay below the point where the text turns to an exponent.
-/

namespace Runnerd

section Rounding

/-- `n / step`, rounded to the nearest whole number, ties to even. -/
def roundHalfEven (n step : Nat) : Nat :=
  if step < 2 * (n % step) ∨ (2 * (n % step) = step ∧ (n / step) % 2 = 1) then n / step + 1
  else n / step

theorem roundHalfEven_mono {first second : Nat} (step : Nat) (le : first ≤ second) :
    roundHalfEven first step ≤ roundHalfEven second step := by
  have quotients : first / step ≤ second / step := Nat.div_le_div_right le
  by_cases same : first / step = second / step
  · have remainders : first % step ≤ second % step := by
      have whole := Nat.div_add_mod first step
      have whole' := Nat.div_add_mod second step
      rw [same] at whole
      omega
    unfold roundHalfEven
    rw [same]
    split <;> split <;> omega
  · unfold roundHalfEven
    split <;> split <;> omega

/-- The spacing of the numbers of this magnitude. -/
def spacing (n : Nat) : Nat := 2 ^ (Nat.log 2 n - 52)

def nearestDouble (n : Nat) : Nat :=
  if n < 2 ^ 53 then n else roundHalfEven n (spacing n) * spacing n

theorem nearestDouble_small {n : Nat} (small : n < 2 ^ 53) : nearestDouble n = n := if_pos small

theorem log_large {n : Nat} (large : ¬n < 2 ^ 53) : 53 ≤ Nat.log 2 n :=
  Nat.le_log_of_pow_le (by omega) (by omega)

/-- Rounding stays between the powers of two around a number. -/
theorem nearestDouble_bounds {n : Nat} (large : ¬n < 2 ^ 53) :
    2 ^ Nat.log 2 n ≤ nearestDouble n ∧ nearestDouble n ≤ 2 ^ (Nat.log 2 n + 1) := by
  have exponent := log_large large
  have positive : 0 < spacing n := Nat.two_pow_pos _
  have lower : 2 ^ Nat.log 2 n = 2 ^ 52 * spacing n := by
    rw [spacing, ← pow_add]
    congr 1
    omega
  have upper : 2 ^ (Nat.log 2 n + 1) = 2 ^ 53 * spacing n := by
    rw [spacing, ← pow_add]
    congr 1
    omega
  have above : 2 ^ 52 ≤ n / spacing n := by
    rw [Nat.le_div_iff_mul_le positive, ← lower]
    exact Nat.pow_log_le_self 2 (by omega)
  have below : n / spacing n < 2 ^ 53 := by
    rw [Nat.div_lt_iff_lt_mul positive, ← upper]
    exact Nat.lt_pow_succ_log_self (by omega) n
  rw [nearestDouble, if_neg large, lower, upper]
  constructor
  · refine Nat.mul_le_mul_right _ ?_
    unfold roundHalfEven
    split <;> omega
  · refine Nat.mul_le_mul_right _ ?_
    unfold roundHalfEven
    split <;> omega

theorem nearestDouble_mono {first second : Nat} (le : first ≤ second) :
    nearestDouble first ≤ nearestDouble second := by
  by_cases small : first < 2 ^ 53
  · rw [nearestDouble_small small]
    by_cases small' : second < 2 ^ 53
    · rwa [nearestDouble_small small']
    · have bounds := nearestDouble_bounds small'
      have power : 2 ^ 53 ≤ 2 ^ Nat.log 2 second :=
        Nat.pow_le_pow_right (by omega) (log_large small')
      omega
  · have small' : ¬second < 2 ^ 53 := by omega
    have logs : Nat.log 2 first ≤ Nat.log 2 second := Nat.log_mono_right le
    by_cases same : Nat.log 2 first = Nat.log 2 second
    · have step : spacing first = spacing second := by rw [spacing, spacing, same]
      rw [nearestDouble, if_neg small, nearestDouble, if_neg small', step]
      exact Nat.mul_le_mul_right _ (roundHalfEven_mono _ le)
    · -- a power of two lies between them
      have power : 2 ^ (Nat.log 2 first + 1) ≤ 2 ^ Nat.log 2 second :=
        Nat.pow_le_pow_right (by omega) (by omega)
      have upper := (nearestDouble_bounds small).2
      have lower := (nearestDouble_bounds small').1
      omega

theorem nearestDouble_zero {n : Nat} : nearestDouble n = 0 ↔ n = 0 := by
  by_cases small : n < 2 ^ 53
  · rw [nearestDouble_small small]
  · have lower := (nearestDouble_bounds small).1
    have positive : 0 < 2 ^ Nat.log 2 n := Nat.two_pow_pos _
    omega

end Rounding

section Signed

/-- The number that the text of a whole number is read as. -/
def asDouble (n : Int) : Int :=
  if 0 ≤ n then (nearestDouble n.toNat : Int) else -(nearestDouble (-n).toNat : Int)

theorem asDouble_mono {first second : Int} (le : first ≤ second) :
    asDouble first ≤ asDouble second := by
  unfold asDouble
  by_cases positive : 0 ≤ first
  · have nonneg : 0 ≤ second := by omega
    rw [if_pos positive, if_pos nonneg]
    exact Int.ofNat_le.mpr (nearestDouble_mono (by omega))
  · rw [if_neg positive]
    by_cases nonneg : 0 ≤ second
    · rw [if_pos nonneg]
      omega
    · rw [if_neg nonneg]
      have magnitudes : nearestDouble (-second).toNat ≤ nearestDouble (-first).toNat :=
        nearestDouble_mono (by omega)
      omega

theorem asDouble_zero {n : Int} : asDouble n = 0 ↔ n = 0 := by
  unfold asDouble
  split
  · have zero := nearestDouble_zero (n := n.toNat)
    omega
  · have zero := nearestDouble_zero (n := (-n).toNat)
    omega

/-- The number with the fewest decimal digits, then zeros, that is read as this one. -/
def shortestDecimal (n : Nat) : Nat :=
  (((List.range 22).reverse.map fun zeros => roundHalfEven n (10 ^ zeros) * 10 ^ zeros).find?
    fun shown => shown != 0 && nearestDouble shown == n).getD n

/-- `String(number)`. Below 2^53 every whole number is read as itself. -/
def numberText (n : Int) : String :=
  if n.natAbs < 2 ^ 53 then toString n
  else if 0 ≤ n then toString (shortestDecimal n.toNat)
  else "-" ++ toString (shortestDecimal (-n).toNat)

example : numberText (asDouble 9223372036854775807) = "9223372036854776000" := by decide +kernel

end Signed

end Runnerd

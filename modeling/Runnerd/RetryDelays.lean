import Mathlib.Algebra.Order.Ring.Int
import Mathlib.Tactic.Linarith
import Mathlib.Tactic.Ring
import Runnerd.Decisions

/-!
When the next attempt is due. `nextRetryAt` doubles the delay in wrapping
arithmetic and looks at the cap after each doubling. A delay that goes into
another round is below the cap, and so its double does not wrap.
-/

namespace Runnerd

section Doubling

/-- The product of a delay below `2 ^ 62` does not wrap. -/
theorem doubled_exact {delay : Int} (positive : 0 < delay) (fits : delay < 2 ^ 62) :
    wrap64 (delay * 2) = delay * 2 := by
  rw [wrap64]
  apply Int.bmod_eq_of_le_mul_two
  · omega
  · omega

theorem doubling_grows {delay : Int} (positive : 0 < delay) (rounds : Nat) :
    delay ≤ delay * 2 ^ rounds := by
  have doubles : (1 : Int) ≤ 2 ^ rounds := one_le_pow₀ (by norm_num)
  exact le_mul_of_one_le_right positive.le doubles

/-- The loop invariant: what is left to double stays below `2 ^ 62`, and the cap
is met as over the integers. -/
theorem doubleDelay_capped {maxDelay : Int} (capFits : maxDelay < 2 ^ 62) (rounds : Nat) :
    ∀ {delay : Int}, 0 < delay → delay < 2 ^ 62 →
      min maxDelay (doubleDelay maxDelay rounds delay) = min maxDelay (delay * 2 ^ rounds) := by
  induction rounds with
  | zero =>
      intro delay _ _
      simp [doubleDelay]
  | succ rounds ih =>
      intro delay positive fits
      have doubled : 0 < delay * 2 := by linarith
      have later : delay * 2 ^ (rounds + 1) = delay * 2 * 2 ^ rounds := by ring
      rw [doubleDelay, doubled_exact positive fits, later]
      by_cases capped : maxDelay ≤ delay * 2
      · -- the loop breaks, and the integers only grow from here
        have beyond : maxDelay ≤ delay * 2 * 2 ^ rounds :=
          capped.trans (doubling_grows doubled rounds)
        rw [if_pos capped, min_self, min_eq_left beyond]
      · rw [if_neg capped]
        exact ih doubled ((not_le.mp capped).trans capFits)

end Doubling

section Configured

/-- `durationSeconds` of `internal/config`. -/
def durationSeconds (value fallback : Int) : Duration :=
  wrap64 ((if value ≤ 0 then fallback else value) * second)

/-- Every number of seconds up to 146 years is such a delay. -/
theorem durationSeconds_fits {value fallback : Int} (configured : 0 < fallback)
    (fallbackFits : fallback < 2 ^ 32) (fits : value < 2 ^ 32) :
    0 < durationSeconds value fallback ∧ durationSeconds value fallback < 2 ^ 62 := by
  have bounds : 0 < (if value ≤ 0 then fallback else value) ∧
      (if value ≤ 0 then fallback else value) < 2 ^ 32 := by
    split
    · exact ⟨configured, fallbackFits⟩
    · exact ⟨by omega, fits⟩
  have exact_ : durationSeconds value fallback =
      (if value ≤ 0 then fallback else value) * 1000000000 := by
    rw [durationSeconds, wrap64, second]
    apply Int.bmod_eq_of_le_mul_two
    · omega
    · omega
  rw [exact_]
  constructor
  · linarith
  · linarith

def largeBase : Config where
  maxConcurrentRunners := 2
  retryMaxAttempts := 3
  retryBaseDelay := durationSeconds 600 15
  retryMaxDelay := durationSeconds 0 300
  sandboxCreateTimeout := 60 * second
  sandboxStopTimeout := 60 * second
  sandboxTimeout := 3600 * second
  runnerIdleTimeout := 600 * second
  workerLeaseTTL := 60 * second

end Configured

section Due
variable {cfg : Config}

theorem nextRetryAt_capped (retryCount : Nat) (now : Time) :
    nextRetryAt cfg retryCount now = now +
      min cfg.retryMaxDelay (doubleDelay cfg.retryMaxDelay (retryCount - 1) cfg.retryBaseDelay) := by
  unfold nextRetryAt
  dsimp only
  split
  · rename_i beyond
    rw [min_eq_left beyond.le]
  · rename_i within
    rw [min_eq_right (not_lt.mp within)]

theorem delays_grow (cap : Int) {base : Int} (positive : 0 < base) {fewer more : Nat}
    (order : fewer ≤ more) : min cap (base * 2 ^ fewer) ≤ min cap (base * 2 ^ more) := by
  have powers : (2 : Int) ^ fewer ≤ 2 ^ more := pow_le_pow_right₀ (by norm_num) order
  exact min_le_min_left cap (mul_le_mul_of_nonneg_left powers positive.le)

/-- The delay before each attempt is the doubled base up to the cap, and never
shorter than the one before. -/
theorem retry_delay_exact (cfg : Config) (now : Time) (retryCount : Nat)
    (base : 0 < cfg.retryBaseDelay) (baseFits : cfg.retryBaseDelay < 2 ^ 62)
    (capFits : cfg.retryMaxDelay < 2 ^ 62) :
    nextRetryAt cfg retryCount now =
        now + min cfg.retryMaxDelay (cfg.retryBaseDelay * 2 ^ (retryCount - 1)) ∧
      ∀ more, retryCount ≤ more → nextRetryAt cfg retryCount now ≤ nextRetryAt cfg more now := by
  have exact_ (count : Nat) : nextRetryAt cfg count now =
      now + min cfg.retryMaxDelay (cfg.retryBaseDelay * 2 ^ (count - 1)) := by
    rw [nextRetryAt_capped, doubleDelay_capped capFits _ base baseFits]
  refine ⟨exact_ retryCount, fun more order => ?_⟩
  rw [exact_ retryCount, exact_ more]
  have grows := delays_grow cfg.retryMaxDelay base (Nat.sub_le_sub_right order 1)
  linarith

/-- A base above the cap: the first attempt waits for the cap already. -/
theorem retry_delay_exact_large_base :
    nextRetryAt largeBase 70 5 =
        5 + min (300 * second) (600 * second * 2 ^ 69) ∧
      ∀ more, 70 ≤ more → nextRetryAt largeBase 70 5 ≤ nextRetryAt largeBase more 5 :=
  retry_delay_exact largeBase 5 70 (by decide) (by decide) (by decide)

end Due

end Runnerd

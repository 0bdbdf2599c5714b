import Mathlib.Data.Nat.Log
import Mathlib.Tactic.Ring

/-!
# Natural numbers in `float64`

The conversion of a natural number to a binary floating-point number of 53 significant bits, rounding
to nearest and ties to even.  The result is again a natural number and is given as one; the exponent has
no bound here.

* `round_of_le` — what has 53 bits is itself.
* `round_error` — the relative error is at most `2 ^ -53`.
-/

namespace Float64

/-- The number of low bits that do not fit. -/
def excess (n : ℕ) : ℕ := n.log2 - 52

/-- The nearest number of 53 significant bits. -/
def round (n : ℕ) : ℕ :=
  let unit := 2 ^ excess n
  let low := n % unit
  (if 2 * low > unit ∨ (2 * low = unit ∧ n / unit % 2 = 1) then n / unit + 1 else n / unit) * unit

theorem round_of_excess {n : ℕ} (h : excess n = 0) : round n = n := by
  simp [round, h, Nat.mod_one]

theorem excess_of_lt {n : ℕ} (h : n < 2 ^ 53) : excess n = 0 := by
  by_cases hzero : n = 0
  · simp [excess, hzero]
  · have hlog : n.log2 < 53 := (Nat.log2_lt hzero).2 h
    unfold excess
    omega

theorem round_of_le {n : ℕ} (h : n ≤ 2 ^ 53) : round n = n := by
  by_cases hlt : n < 2 ^ 53
  · exact round_of_excess (excess_of_lt hlt)
  · obtain rfl : n = 2 ^ 53 := by omega
    decide

/-- A number with excess bits has a leading one above them. -/
theorem le_of_excess {n : ℕ} (h : 0 < excess n) : 2 ^ 52 * 2 ^ excess n ≤ n := by
  have hlog : 52 + excess n = n.log2 := by
    unfold excess at h ⊢
    omega
  have hne : n ≠ 0 := by
    rintro rfl
    simp [excess] at h
  rw [← pow_add, hlog]
  exact Nat.log2_self_le hne

/-- The error in either direction is at most half a unit, and so a `2 ^ 53`-th of the number. -/
theorem round_error (n : ℕ) : 2 ^ 53 * (n - round n) ≤ n ∧ 2 ^ 53 * (round n - n) ≤ n := by
  by_cases hzero : excess n = 0
  · simp [round_of_excess hzero]
  · have hlead := le_of_excess (Nat.pos_of_ne_zero hzero)
    have hsplit := Nat.div_add_mod n (2 ^ excess n)
    have hlow := Nat.mod_lt n (Nat.two_pow_pos (excess n))
    simp only [round]
    rw [mul_comm] at hsplit
    generalize 2 ^ excess n = unit at hlead hsplit hlow ⊢
    split
    · rw [add_mul, one_mul]
      omega
    · omega

end Float64

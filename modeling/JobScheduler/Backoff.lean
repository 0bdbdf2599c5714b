import JobScheduler.CreateRequest
import JobScheduler.Engine
import JobScheduler.Library.Float64
import Mathlib.Algebra.Order.Ring.Int
import Mathlib.Tactic.NormNum
import Mathlib.Tactic.Positivity

/-!
# Exponential backoff

What `DecideFailure` adds to the clock.  The loop of `NextRetryAt` doubles a signed 64-bit count of
nanoseconds, and no step of it looks at the size of the count, so the result is the exact power of
two reduced once at the end (`nextRetryAt_eq`).

* `backoff_exact` — when the exact delay fits into a `Duration`, and only then, it is the delay, the
  retry lies in the future, and later retries lie further off.
* `backoff_wraps` — a request the service accepts whose thirtieth retry is put before the failure.
* `retry_rules_agree` — the other retry rule of the program, `NextRetryAt` and `ShouldDeadLetter` of the
  package `job`, is the same rule for the bases a `float64` holds.
-/

namespace JobScheduler

/-! ### The loop -/

theorem wrap64_of_lt {x : Int} (h₀ : 0 ≤ x) (h : x < 2 ^ 63) : wrap64 x = x := by
  unfold wrap64
  apply Int.bmod_eq_of_le
  · omega
  · omega

theorem wrap64_bounds (x : Int) : -2 ^ 63 ≤ wrap64 x ∧ wrap64 x < 2 ^ 63 :=
  ⟨Int.le_bmod (by decide), Int.bmod_lt (by decide)⟩

/-- Doubling `n` times, from a reduced count, is multiplying by `2 ^ n` and reducing once. -/
theorem doubleDelay_wrap64 (n : ℕ) (x : Int) : doubleDelay n (wrap64 x) = wrap64 (x * 2 ^ n) := by
  induction n generalizing x with
  | zero => simp [doubleDelay]
  | succ n ih =>
    have hstep : wrap64 (wrap64 x * 2) = wrap64 (x * 2) := by
      unfold wrap64
      exact Int.bmod_mul_bmod
    rw [doubleDelay, hstep, ih, mul_assoc, ← pow_succ']

/-- The base of the backoff: thirty seconds unless the job says otherwise. -/
def backoffBase (retryBackoffSeconds : Int) : Int :=
  if retryBackoffSeconds ≤ 0 then 30 else retryBackoffSeconds

theorem backoffBase_pos (b : Int) : 0 < backoffBase b := by
  unfold backoffBase
  split <;> omega

/-- A retry is less than 2^63 nanoseconds away. -/
theorem nextRetryAt_bounds (now b n : Int) :
    now + -2 ^ 63 ≤ nextRetryAt now b n ∧ nextRetryAt now b n < now + 2 ^ 63 := by
  simp only [nextRetryAt, doubleDelay_wrap64]
  exact ⟨Int.add_le_add_left (wrap64_bounds _).1 now, Int.add_lt_add_left (wrap64_bounds _).2 now⟩

theorem nextRetryAt_eq (now b r : Int) :
    nextRetryAt now b (r + 1) = now + wrap64 (backoffBase b * 2 ^ r.toNat * second) := by
  have hcount : ((if r + 1 < 1 then 1 else r + 1) - 1).toNat = r.toNat := by
    split <;> omega
  simp only [nextRetryAt, hcount]
  rw [doubleDelay_wrap64, mul_right_comm]
  rfl

theorem decideFailure_nextRunAt (now b : Int) {r maxRetries : Int} (h : r < maxRetries) :
    (decideFailure now r maxRetries b).nextRunAt
      = now + wrap64 (backoffBase b * 2 ^ r.toNat * second) := by
  have hbudget : ¬r + 1 > maxRetries := by omega
  simp only [decideFailure, hbudget, if_false]
  exact nextRetryAt_eq now b r

/-! ### The schedule -/

/-- The largest whole number of seconds a `Duration` holds. -/
def maxSeconds : Int := 9223372036

/-- A delay that fits is not touched by the reduction. -/
theorem wrap64_seconds {x : Int} (h₀ : 0 < x) (h : x ≤ maxSeconds) :
    wrap64 (x * second) = x * second := by
  unfold maxSeconds at h
  unfold second
  apply wrap64_of_lt
  · omega
  · omega

/-- A count of seconds the reduction does not touch fits. -/
theorem le_maxSeconds {x : Int} (h : wrap64 (x * second) = x * second) : x ≤ maxSeconds := by
  have hlt := (wrap64_bounds (x * second)).2
  rw [h] at hlt
  unfold second at hlt
  unfold maxSeconds
  omega

/-- What a failure after `r` retries is followed by: a run `B * 2 ^ r` seconds later, after the failure
and after every run that fewer retries would have been followed by. -/
structure OnSchedule (now r maxRetries b : Int) : Prop where
  delay : (decideFailure now r maxRetries b).nextRunAt
    = now + (if 0 < b then b else 30) * 2 ^ r.toNat * second
  later : now < (decideFailure now r maxRetries b).nextRunAt
  increasing : ∀ r', 0 ≤ r' → r' < r →
    (decideFailure now r' maxRetries b).nextRunAt < (decideFailure now r maxRetries b).nextRunAt

/-- **The schedule of retries.**  A failure is followed by the run it should be followed by if and only
if the delay fits into a `Duration`. -/
theorem backoff_exact (now r maxRetries b : Int) (hr : 0 ≤ r) (hbudget : r < maxRetries) :
    OnSchedule now r maxRetries b ↔ backoffBase b * 2 ^ r.toNat ≤ maxSeconds := by
  have hbase : (if 0 < b then b else 30) = backoffBase b := by
    unfold backoffBase
    split <;> split <;> omega
  constructor
  · intro h
    have hexact := h.delay
    rw [decideFailure_nextRunAt now b hbudget, hbase] at hexact
    exact le_maxSeconds (Int.add_left_cancel hexact)
  · intro hfits
    have hpos : ∀ n : ℕ, 0 < backoffBase b * 2 ^ n :=
      fun n => mul_pos (backoffBase_pos b) (by positivity)
    have hsecond : 0 < second := by decide
    have hrun : (decideFailure now r maxRetries b).nextRunAt
        = now + backoffBase b * 2 ^ r.toNat * second := by
      rw [decideFailure_nextRunAt now b hbudget, wrap64_seconds (hpos r.toNat) hfits]
    refine ⟨by rw [hrun, hbase], ?_, ?_⟩
    · rw [hrun]
      exact Int.lt_add_of_pos_right now (mul_pos (hpos r.toNat) hsecond)
    · intro r' hr' hlt
      -- fewer doublings give less, and what is less fits as well
      have hpow : (2 : Int) ^ r'.toNat < 2 ^ r.toNat := by
        apply pow_lt_pow_right₀
        · norm_num
        · omega
      have hless : backoffBase b * 2 ^ r'.toNat < backoffBase b * 2 ^ r.toNat :=
        mul_lt_mul_of_pos_left hpow (backoffBase_pos b)
      rw [hrun, decideFailure_nextRunAt now b (by omega : r' < maxRetries),
        wrap64_seconds (hpos r'.toNat) (by omega)]
      exact Int.add_lt_add_left (mul_lt_mul_of_pos_right hless hsecond) now

/-- The second of three retries, sixty seconds after a failure. -/
theorem backoff_exact_second :
    backoffBase 30 * 2 ^ (1 : Int).toNat ≤ maxSeconds ∧
      (decideFailure 0 1 3 30).nextRunAt = 60 * second ∧
      (decideFailure 0 0 3 30).nextRunAt < (decideFailure 0 1 3 30).nextRunAt := by
  have hfits : backoffBase 30 * 2 ^ (1 : Int).toNat ≤ maxSeconds := by decide
  have hrun := (backoff_exact 0 1 3 30 (by decide) (by decide)).2 hfits
  exact ⟨hfits, hrun.delay, hrun.increasing 0 (by decide) (by decide)⟩

/-- A job with thirty retries and the default backoff is accepted, and its thirtieth retry is put
before the failure it follows. -/
theorem backoff_wraps :
    (ServiceConfig.mk 3 30 300 (fun _ => true) fun _ => "").validateCreate
        ⟨"report", "CALL_WEBHOOK", "\x7b\x7d", 1, 5, 30, 30, 300, ""⟩ = .ok () ∧
      (decideFailure 0 29 30 30).status = .retryScheduled ∧
      (decideFailure 0 29 30 30).nextRunAt = -2340616713709551616 := by
  decide +kernel

/-! ### The rule of the package `job` -/

/-- `time.Duration(x)` of a `float64`; beyond 64 bits the result is the machine's. -/
def durationOfFloat (overflow : ℕ → Int) (x : ℕ) : Int := if x < 2 ^ 63 then x else overflow x

/-- `job.NextRetryAt`: the base goes through a `float64`, whose product with a power of two is exact. -/
def Job.nextRetryAt (overflow : ℕ → Int) (now : Time) (baseBackoffSeconds retryCount : Int) : Time :=
  let base := if baseBackoffSeconds ≤ 0 then 30 else baseBackoffSeconds
  let count := if retryCount < 0 then 0 else retryCount
  let multiplier := 2 ^ count.toNat
  now + wrap64 (durationOfFloat overflow (Float64.round base.toNat * multiplier) * second)

/-- `job.ShouldDeadLetter`. -/
def Job.shouldDeadLetter (retryCount maxRetries : Int) : Bool := retryCount ≥ maxRetries

theorem Job.nextRetryAt_eq (overflow : ℕ → Int) (now b r : Int) :
    Job.nextRetryAt overflow now b r = now + wrap64 (durationOfFloat overflow
      (Float64.round (backoffBase b).toNat * 2 ^ r.toNat) * second) := by
  have hcount : (if r < 0 then 0 else r).toNat = r.toNat := by
    split <;> omega
  simp only [Job.nextRetryAt, hcount]
  rfl

theorem deadLettered_iff_shouldDeadLetter (now r maxRetries b : Int) :
    Job.shouldDeadLetter r maxRetries = true ↔
      (decideFailure now r maxRetries b).status = .deadLettered := by
  rw [decideFailure_deadLettered_iff, Job.shouldDeadLetter, decide_eq_true_iff]
  omega

/-- Delays that differ by less than `2 ^ 34` seconds wrap to different ones. -/
theorem eq_of_wrap64_seconds {x y : Int} (h : wrap64 (x * second) = wrap64 (y * second))
    (hlow : -2 ^ 34 < x - y) (hhigh : x - y < 2 ^ 34) : x = y := by
  have hdvd : (2 ^ 64 : Int) ∣ (x - y) * second := by
    have hx := Int.bmod_add_bdiv (x * second) (2 ^ 64)
    have hy := Int.bmod_add_bdiv (y * second) (2 ^ 64)
    unfold wrap64 at h
    rw [h] at hx
    have hdiff := congrArg₂ (· - ·) hx hy
    simp only [add_sub_add_left_eq_sub] at hdiff
    rw [Int.sub_mul, ← hdiff]
    exact Int.dvd_sub (Int.dvd_mul_right _ _) (Int.dvd_mul_right _ _)
  have hsecond : 0 < second := by decide
  have habs : |(x - y) * second| < 2 ^ 64 := by
    rw [abs_lt]
    have hmore := Int.mul_lt_mul_of_pos_right hlow hsecond
    have hless := Int.mul_lt_mul_of_pos_right hhigh hsecond
    exact ⟨lt_trans (by decide) hmore, lt_trans hless (by decide)⟩
  have hzero := Int.eq_zero_of_abs_lt_dvd hdvd habs
  have hdiff := (Int.mul_eq_zero.1 hzero).resolve_right hsecond.ne'
  omega

/-- A product that fits is rounded by less than `2 ^ 10`. -/
theorem round_close {n k : ℕ} (h : n * 2 ^ k < 2 ^ 63) :
    Float64.round n * 2 ^ k < n * 2 ^ k + 2 ^ 10 ∧ n * 2 ^ k < Float64.round n * 2 ^ k + 2 ^ 10 := by
  have hscale : ∀ d, 2 ^ 53 * d ≤ n → d * 2 ^ k < 2 ^ 10 := by
    intro d hd
    have hle : 2 ^ 53 * d * 2 ^ k ≤ n * 2 ^ k := Nat.mul_le_mul_right _ hd
    rw [mul_assoc] at hle
    omega
  have hdown := hscale _ (Float64.round_error n).1
  have hup := hscale _ (Float64.round_error n).2
  rw [Nat.sub_mul] at hdown hup
  omega

/-- **Two implementations of one rule.**  For every base and count whose product fits: both rules
dead-letter the same failures, and they schedule the same retries for a base that a `float64` holds, in
particular for one of at most `2 ^ 53`.  For another one they differ, unless the product leaves 64 bits by
the rounding. -/
theorem retry_rules_agree (overflow : ℕ → Int) (now r maxRetries b : Int)
    (hfits : backoffBase b * 2 ^ r.toNat < 2 ^ 63) :
    (Job.shouldDeadLetter r maxRetries = true ↔
      (decideFailure now r maxRetries b).status = .deadLettered) ∧
    (Job.shouldDeadLetter r maxRetries = false →
      (Float64.round (backoffBase b).toNat = (backoffBase b).toNat →
        Job.nextRetryAt overflow now b r = (decideFailure now r maxRetries b).nextRunAt) ∧
      (Float64.round (backoffBase b).toNat * 2 ^ r.toNat < 2 ^ 63 →
        Job.nextRetryAt overflow now b r = (decideFailure now r maxRetries b).nextRunAt →
        Float64.round (backoffBase b).toNat = (backoffBase b).toNat) ∧
      (backoffBase b ≤ 2 ^ 53 →
        Job.nextRetryAt overflow now b r = (decideFailure now r maxRetries b).nextRunAt)) := by
  refine ⟨deadLettered_iff_shouldDeadLetter now r maxRetries b, fun hretry => ?_⟩
  have hbudget : r < maxRetries := by
    simpa [Job.shouldDeadLetter] using hretry
  obtain ⟨n, hbase⟩ : ∃ n : ℕ, backoffBase b = n := Int.eq_ofNat_of_zero_le (backoffBase_pos b).le
  rw [decideFailure_nextRunAt now b hbudget, Job.nextRetryAt_eq, hbase, Int.toNat_natCast]
  rw [hbase] at hfits
  have hnat : n * 2 ^ r.toNat < 2 ^ 63 := by exact_mod_cast hfits
  have hheld : Float64.round n = n →
      now + wrap64 (durationOfFloat overflow (Float64.round n * 2 ^ r.toNat) * second)
        = now + wrap64 (n * 2 ^ r.toNat * second) := by
    intro hexact
    rw [hexact, durationOfFloat, if_pos hnat, Nat.cast_mul, Nat.cast_pow, Nat.cast_ofNat]
  refine ⟨hheld, ?_, fun hsmall => hheld (Float64.round_of_le (by exact_mod_cast hsmall))⟩
  intro hround heq
  rw [durationOfFloat, if_pos hround] at heq
  -- the relative error of the rounding is too small for the two to meet again after a wrap
  have hclose := round_close hnat
  have hsame : ((Float64.round n * 2 ^ r.toNat : ℕ) : Int) = ((n * 2 ^ r.toNat : ℕ) : Int) := by
    apply eq_of_wrap64_seconds
    · rw [Nat.cast_mul n, Nat.cast_pow, Nat.cast_ofNat]
      exact Int.add_left_cancel heq
    · omega
    · omega
  exact Nat.eq_of_mul_eq_mul_right (Nat.two_pow_pos r.toNat) (Int.ofNat_inj.1 hsame)

theorem retry_rules_agree_default :
    Float64.round (backoffBase 0).toNat = (backoffBase 0).toNat ∧
      Job.shouldDeadLetter 2 3 = false ∧
      Job.nextRetryAt (fun _ => 0) 0 0 2 = (decideFailure 0 2 3 0).nextRunAt :=
  ⟨by decide, by decide, ((retry_rules_agree (fun _ => 0) 0 2 3 0 (by decide)).2 (by decide)).1
    (by decide)⟩

/-- The first base that a `float64` does not hold: the rule of the package `job` is a second short. -/
theorem retry_rules_differ :
    backoffBase (2 ^ 53 + 1) * 2 ^ (0 : Int).toNat < 2 ^ 63 ∧
      Job.shouldDeadLetter 0 3 = false ∧
      ∀ overflow, (decideFailure 0 0 3 (2 ^ 53 + 1)).nextRunAt
        = Job.nextRetryAt overflow 0 (2 ^ 53 + 1) 0 + second := by
  refine ⟨by decide, by decide, fun overflow => ?_⟩
  have hround : durationOfFloat overflow (Float64.round (backoffBase (2 ^ 53 + 1)).toNat
      * 2 ^ (0 : Int).toNat) = 2 ^ 53 := if_pos (by decide)
  rw [decideFailure_nextRunAt 0 _ (by decide), Job.nextRetryAt_eq, hround]
  decide

end JobScheduler

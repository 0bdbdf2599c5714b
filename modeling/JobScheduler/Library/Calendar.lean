import JobScheduler.Library.JsonText

/-!
# Instants as RFC 3339 text

An instant is a number of nanoseconds since 1970.  Its date is that of the proleptic Gregorian calendar,
and its text is in UTC with the fraction of its second shortened as far as it goes.

* `yearOf_spec` — the year found is the one the day is in; `toDay_ofDay` — a date determines its day.
* `utcText_inj` — an instant can be read back from its text.
-/

namespace Calendar

open Json

/-! ### Dates -/

/-- The days from the beginning of year 0 to that of a year. -/
def daysBeforeYear (y : ℤ) : ℤ := 365 * y + (y + 3) / 4 - (y + 99) / 100 + (y + 399) / 400

/-- The year of a day, counted from the beginning of year 0: an estimate from the mean length of a year
that is off by at most one. -/
def yearOf (day : ℤ) : ℤ :=
  let estimate := 400 * day / 146097
  if day < daysBeforeYear estimate then estimate - 1
  else if daysBeforeYear (estimate + 1) ≤ day then estimate + 1
  else estimate

/-- Years have their mean length, up to two days. -/
theorem daysBeforeYear_bounds (y : ℤ) :
    146097 * y - 396 ≤ 400 * daysBeforeYear y ∧ 400 * daysBeforeYear y ≤ 146097 * y + 699 := by
  unfold daysBeforeYear
  omega

theorem yearOf_spec (day : ℤ) :
    daysBeforeYear (yearOf day) ≤ day ∧ day < daysBeforeYear (yearOf day + 1) := by
  have hlow : 146097 * (400 * day / 146097) ≤ 400 * day := Int.mul_ediv_self_le (by decide)
  have hhigh : 400 * day < 146097 * (400 * day / 146097) + 146097 :=
    Int.lt_mul_ediv_self_add (by decide)
  simp only [yearOf]
  generalize 400 * day / 146097 = estimate at hlow hhigh ⊢
  split
  · have hbefore := daysBeforeYear_bounds (estimate - 1)
    rw [sub_add_cancel]
    omega
  · split
    · have hafter := daysBeforeYear_bounds (estimate + 1 + 1)
      omega
    · omega

def isLeap (y : ℤ) : Bool := y % 4 = 0 && (y % 100 ≠ 0 || y % 400 = 0)

/-- The days of a year before each of its months. -/
def monthStarts (leap : Bool) : List ℕ :=
  if leap then [0, 31, 60, 91, 121, 152, 182, 213, 244, 274, 305, 335]
  else [0, 31, 59, 90, 120, 151, 181, 212, 243, 273, 304, 334]

@[ext]
structure Date where
  year : ℤ
  month : ℕ
  day : ℕ
  deriving DecidableEq

/-- The day of the year on which a month begins. -/
def monthStart (leap : Bool) (month : ℕ) : ℕ := (monthStarts leap).getD (month - 1) 0

/-- The number of months of a year that have begun. -/
def monthOf (leap : Bool) (dayOfYear : ℕ) : ℕ :=
  ((monthStarts leap).takeWhile fun start => start ≤ dayOfYear).length

/-- The date of a day. -/
def Date.ofDay (day : ℤ) : Date :=
  let year := yearOf day
  let dayOfYear := (day - daysBeforeYear year).toNat
  let month := monthOf (isLeap year) dayOfYear
  ⟨year, month, dayOfYear - monthStart (isLeap year) month + 1⟩

/-- The day of a date. -/
def Date.toDay (date : Date) : ℤ :=
  daysBeforeYear date.year + monthStart (isLeap date.year) date.month + (date.day - 1)

theorem monthStart_monthOf_le (leap : Bool) (dayOfYear : ℕ) :
    monthStart leap (monthOf leap dayOfYear) ≤ dayOfYear := by
  obtain ⟨rest, hrest⟩ : ∃ rest, monthStarts leap = 0 :: rest := by
    cases leap <;> exact ⟨_, rfl⟩
  simp only [monthStart, monthOf, hrest]
  rw [List.takeWhile_cons_of_pos (by simp), List.length_cons, Nat.add_sub_cancel]
  -- the last month that has begun, if it is not the first
  cases hbegun : (rest.takeWhile fun start => decide (start ≤ dayOfYear)).length with
  | zero => exact Nat.zero_le _
  | succ k =>
    have hk : k < (rest.takeWhile fun start => decide (start ≤ dayOfYear)).length := by omega
    have hsame := (List.takeWhile_prefix fun start => decide (start ≤ dayOfYear)).getElem hk
    have hle := List.mem_takeWhile_imp (List.getElem_mem hk)
    rw [hsame, decide_eq_true_iff] at hle
    have hrest : k < rest.length := hk.trans_le (List.takeWhile_prefix _).length_le
    rw [List.getD_cons_succ, List.getD_eq_getElem?_getD, List.getElem?_eq_getElem hrest]
    exact hle

theorem toDay_ofDay (day : ℤ) : (Date.ofDay day).toDay = day := by
  have hyear := (yearOf_spec day).1
  have hmonth := monthStart_monthOf_le (isLeap (yearOf day)) (day - daysBeforeYear (yearOf day)).toNat
  simp only [Date.ofDay, Date.toDay]
  omega

/-! ### Texts -/

/-- The days from the beginning of year 0 to 1970. -/
def epochDay : ℤ := 719528

/-- The seconds and the nanoseconds of an instant. -/
def secondsOf (t : ℤ) : ℤ := t / 1000000000

def nanosOf (t : ℤ) : ℕ := (t % 1000000000).toNat

def dateOf (t : ℤ) : Date := Date.ofDay (secondsOf t / 86400 + epochDay)

/-- The second of its day. -/
def secondOfDay (t : ℤ) : ℕ := (secondsOf t % 86400).toNat

/-- The fraction of a second without its trailing zeros, if there is one. -/
def fractionText (nanos : ℕ) : List UInt8 :=
  if nanos = 0 then [] else 0x2E :: (padText 9 nanos).rdropWhile fun b => b = 0x30

/-- An instant in UTC. -/
def utcText (t : ℤ) : List UInt8 :=
  padText 4 (dateOf t).year.toNat ++ 0x2D :: padText 2 (dateOf t).month
    ++ 0x2D :: padText 2 (dateOf t).day ++ 0x54 :: padText 2 (secondOfDay t / 3600)
    ++ 0x3A :: padText 2 (secondOfDay t / 60 % 60) ++ 0x3A :: padText 2 (secondOfDay t % 60)
    ++ fractionText (nanosOf t) ++ [0x5A]

/-- An instant as RFC 3339 text, whose years have four digits. -/
def rfc3339Nano (t : ℤ) : Option (List UInt8) :=
  if 0 ≤ (dateOf t).year ∧ (dateOf t).year ≤ 9999 then some (utcText t) else none

/-- The first and the last instant that have such a text. -/
theorem year_mem_iff (t : ℤ) : (0 ≤ (dateOf t).year ∧ (dateOf t).year ≤ 9999)
    ↔ -62167219200 * 1000000000 ≤ t ∧ t < 253402300800 * 1000000000 := by
  have hspec := yearOf_spec (secondsOf t / 86400 + epochDay)
  have hyear : (dateOf t).year = yearOf (secondsOf t / 86400 + epochDay) := rfl
  rw [hyear]
  generalize yearOf (secondsOf t / 86400 + epochDay) = year at hspec ⊢
  simp only [daysBeforeYear, secondsOf, epochDay] at hspec
  omega

theorem instant_eq {t t' : ℤ} (hdate : dateOf t = dateOf t') (hsecond : secondOfDay t = secondOfDay t')
    (hnanos : nanosOf t = nanosOf t') : t = t' := by
  have hday := congrArg Date.toDay hdate
  simp only [dateOf, toDay_ofDay, secondOfDay, nanosOf, secondsOf] at hday hsecond hnanos
  omega

theorem secondOfDay_eq {n m : ℕ} (hhour : n / 3600 = m / 3600) (hminute : n / 60 % 60 = m / 60 % 60)
    (hsecond : n % 60 = m % 60) : n = m := by
  omega

theorem padText_inj {width n m : ℕ} (h : padText width n = padText width m) : n = m := by
  rw [← value_padText width n, h, value_padText]

theorem length_padText {n : ℕ} (h : n < 10 ^ 9) : (padText 9 n).length = 9 := by
  have hlength : (natText n).length ≤ 9 := by
    unfold natText
    split
    · decide
    · rw [List.length_map, List.length_reverse]
      exact (Nat.digits_length_le_iff (by decide) n).2 h
  rw [padText, List.length_append, List.length_replicate]
  omega

/-- What was trimmed is zeros, as many as are missing. -/
theorem eq_of_rdropWhile {xs ys : List UInt8} (hlength : xs.length = ys.length)
    (h : xs.rdropWhile (fun b => b = 0x30) = ys.rdropWhile fun b => b = 0x30) : xs = ys := by
  have hzeros : ∀ l : List UInt8, l = l.rdropWhile (fun b => b = 0x30)
      ++ List.replicate (l.length - (l.rdropWhile fun b => b = 0x30).length) 0x30 := by
    intro l
    have hsplit := List.rdropWhile_append_rtakeWhile (p := fun b : UInt8 => decide (b = 0x30)) (l := l)
    have hall : l.rtakeWhile (fun b => b = 0x30)
        = List.replicate (l.rtakeWhile fun b => b = 0x30).length 0x30 :=
      List.eq_replicate_of_mem fun b hb => by simpa using List.mem_rtakeWhile_imp hb
    have hcount := congrArg List.length hsplit
    rw [List.length_append] at hcount
    have hrest : l.length - (l.rdropWhile fun b => b = 0x30).length
        = (l.rtakeWhile fun b => b = 0x30).length := by omega
    rw [hrest, ← hall]
    exact hsplit.symm
  rw [hzeros xs, hzeros ys, h, hlength]

theorem fractionText_inj {n m : ℕ} (hn : n < 10 ^ 9) (hm : m < 10 ^ 9)
    (h : fractionText n = fractionText m) : n = m := by
  unfold fractionText at h
  split at h <;> split at h
  · omega
  · cases h
  · cases h
  · refine padText_inj (?_ : padText 9 n = padText 9 m)
    apply eq_of_rdropWhile
    · rw [length_padText hn, length_padText hm]
    · exact (List.cons.inj h).2

/-- What stands behind the seconds begins with no digit. -/
theorem fractionText_head (n : ℕ) :
    ∃ c rest, fractionText n ++ [0x5A] = c :: rest ∧ isDigit c = false := by
  unfold fractionText
  split
  · exact ⟨_, _, rfl, rfl⟩
  · exact ⟨_, _, rfl, rfl⟩

theorem split_padText {width n m : ℕ} {c d : UInt8} {s t : List UInt8} (hc : isDigit c = false)
    (hd : isDigit d = false) (h : padText width n ++ c :: s = padText width m ++ d :: t) :
    n = m ∧ c :: s = d :: t := by
  obtain ⟨htext, rfl, rfl⟩ := split_first (p := fun b => isDigit b = true)
    (fun b hb => isDigit_of_mem_padText hb) (fun b hb => isDigit_of_mem_padText hb)
    (Bool.eq_false_iff.1 hc) (Bool.eq_false_iff.1 hd) h
  exact ⟨padText_inj htext, rfl⟩

theorem utcText_inj {t t' : ℤ} (hyear : 0 ≤ (dateOf t).year) (hyear' : 0 ≤ (dateOf t').year)
    (h : utcText t = utcText t') : t = t' := by
  simp only [utcText, List.append_assoc, List.cons_append] at h
  obtain ⟨hy, h⟩ := split_padText rfl rfl h
  obtain ⟨hmonth, h⟩ := split_padText rfl rfl (List.cons.inj h).2
  obtain ⟨hday, h⟩ := split_padText rfl rfl (List.cons.inj h).2
  obtain ⟨hhour, h⟩ := split_padText rfl rfl (List.cons.inj h).2
  obtain ⟨hminute, h⟩ := split_padText rfl rfl (List.cons.inj h).2
  obtain ⟨c, rest, htail, hc⟩ := fractionText_head (nanosOf t)
  obtain ⟨c', rest', htail', hc'⟩ := fractionText_head (nanosOf t')
  rw [htail, htail'] at h
  obtain ⟨hsecond, h⟩ := split_padText hc hc' (List.cons.inj h).2
  rw [← htail, ← htail'] at h
  have hlt : ∀ u, nanosOf u < 10 ^ 9 := by
    intro u
    unfold nanosOf
    omega
  have hdate : dateOf t = dateOf t' := by
    have hy' : (dateOf t).year = (dateOf t').year := by omega
    exact Date.ext hy' hmonth hday
  exact instant_eq hdate (secondOfDay_eq hhour hminute hsecond)
    (fractionText_inj (hlt t) (hlt t') (List.append_cancel_right h))

/-- The text has no quote in it. -/
theorem quote_notMem_utcText (t : ℤ) : (0x22 : UInt8) ∉ utcText t := by
  have hpad : ∀ width n, (0x22 : UInt8) ∉ padText width n :=
    fun width n h => absurd (isDigit_of_mem_padText h) (by decide)
  have hfraction : (0x22 : UInt8) ∉ fractionText (nanosOf t) := by
    unfold fractionText
    split
    · exact List.not_mem_nil
    · intro h
      rcases List.mem_cons.1 h with h | h
      · exact absurd h (by decide)
      · exact hpad 9 _ ((List.rdropWhile_prefix _ _).subset h)
  simp [utcText, hpad, hfraction]

example : rfc3339Nano 1784131200500000000 = some (text "2026-07-15T16:00:00.5Z") := by decide +kernel

end Calendar

import JobScheduler.Backoff
import JobScheduler.Webhook

/-!
# What a webhook is told, and what it asks for

Two ends of one exchange.  The request carries three headers of the scheduler that a receiver
deduplicates by; they are set before the headers of the payload, and a deny list keeps the payload's
away from them.  The response may carry a `Retry-After`, which is multiplied to nanoseconds in 64 bits
before it is capped.

* `scheduler_headers_kept` — whatever headers a payload has and in whatever order they are iterated
  over, the three are as the scheduler set them.
* `retry_after_parsed` — the parsed delay is the capped one if and only if the product does not wrap
  to less than the cap.
-/

namespace JobScheduler

/-! ### Canonical names -/

/-- Case is a matter of ASCII. -/
theorem ascii_or_caseless (c : Char) : c.toNat < 128 ∨ (c.toUpper = c ∧ c.toLower = c) := by
  refine or_iff_not_imp_left.2 fun hwide => ⟨?_, ?_⟩
  · unfold Char.toUpper
    rw [dif_neg]
    rintro ⟨-, hz⟩
    exact hwide (Nat.lt_of_le_of_lt hz (by decide))
  · unfold Char.toLower
    rw [dif_neg]
    rintro ⟨-, hz⟩
    exact hwide (Nat.lt_of_le_of_lt hz (by decide))

/-- A letter in upper or lower case. -/
def cased (upper : Bool) (c : Char) : Char := if upper then c.toUpper else c.toLower

/-- In either case a character still belongs to a name, is a hyphen if it was one, and has that case. -/
structure CaseKept (upper : Bool) (c : Char) : Prop where
  token : isTokenChar c = true → isTokenChar (cased upper c) = true
  hyphen : (cased upper c == '-') = (c == '-')
  again : cased upper (cased upper c) = cased upper c

theorem caseKept (upper : Bool) (c : Char) : CaseKept upper c := by
  rcases ascii_or_caseless c with hascii | ⟨hupper, hlower⟩
  · have hall : ∀ upper : Bool, ∀ n < 128,
        (isTokenChar (.ofNat n) = true → isTokenChar (cased upper (.ofNat n)) = true)
          ∧ (cased upper (.ofNat n) == '-') = (Char.ofNat n == '-')
          ∧ cased upper (cased upper (.ofNat n)) = cased upper (.ofNat n) := by decide +kernel
    obtain ⟨htoken, hhyphen, hagain⟩ := hall upper c.toNat hascii
    rw [Char.ofNat_toNat] at htoken hhyphen hagain
    exact ⟨htoken, hhyphen, hagain⟩
  · have hcased : cased upper c = c := by cases upper <;> simp [cased, hupper, hlower]
    exact ⟨fun h => by rwa [hcased], by rw [hcased], by rw [hcased, hcased]⟩

theorem canonicalChars_cons (upper : Bool) (c : Char) (cs : List Char) :
    canonicalChars upper (c :: cs) = cased upper c :: canonicalChars (c == '-') cs := rfl

theorem all_isTokenChar_canonicalChars (upper : Bool) {cs : List Char}
    (h : cs.all isTokenChar = true) : (canonicalChars upper cs).all isTokenChar = true := by
  induction cs generalizing upper with
  | nil => rfl
  | cons c cs ih =>
    simp only [List.all_cons, Bool.and_eq_true] at h
    simp only [canonicalChars_cons, List.all_cons, Bool.and_eq_true]
    exact ⟨(caseKept upper c).token h.1, ih _ h.2⟩

theorem canonicalChars_canonicalChars (upper : Bool) (cs : List Char) :
    canonicalChars upper (canonicalChars upper cs) = canonicalChars upper cs := by
  induction cs generalizing upper with
  | nil => rfl
  | cons c cs ih =>
    simp only [canonicalChars_cons, (caseKept upper c).hyphen, (caseKept upper c).again, ih]

theorem canonicalHeaderKey_canonicalHeaderKey (key : String) :
    canonicalHeaderKey (canonicalHeaderKey key) = canonicalHeaderKey key := by
  by_cases h : key.toList.all isTokenChar = true
  · have hkey : canonicalHeaderKey key = String.ofList (canonicalChars true key.toList) := if_pos h
    have hall := all_isTokenChar_canonicalChars true h
    rw [hkey, canonicalHeaderKey, String.toList_ofList, if_pos hall, canonicalChars_canonicalChars]
  · have hkey : canonicalHeaderKey key = key := if_neg h
    rw [hkey, hkey]

/-! ### The headers of the scheduler -/

/-- The three headers are the scheduler's, and no key of the map is another spelling of a name. -/
structure Header.Kept (j : WebhookJob) (header : Header) : Prop where
  jobID : header "X-Scheduler-Job-Id" = some [UUID.text j.id]
  attempt : header "X-Scheduler-Attempt" = some [toString j.attemptNumber]
  idempotencyKey : header "Idempotency-Key" = some [UUID.text j.id]
  canonical : ∀ key values, header key = some values → canonicalHeaderKey key = key

theorem Header.set_of_ne {header : Header} {key value name : String}
    (h : name ≠ canonicalHeaderKey key) : header.set key value name = header name :=
  Function.update_of_ne h _ _

theorem Header.set_canonical {header : Header}
    (h : ∀ key values, header key = some values → canonicalHeaderKey key = key) (key value : String) :
    ∀ name values, header.set key value name = some values → canonicalHeaderKey name = name := by
  intro name values hname
  by_cases heq : name = canonicalHeaderKey key
  · rw [heq, canonicalHeaderKey_canonicalHeaderKey]
  · rw [set_of_ne heq] at hname
    exact h name values hname

/-- The headers before those of the payload. -/
theorem kept_requestHeader_nil (j : WebhookJob) : (requestHeader j []).Kept j where
  jobID := by
    rw [requestHeader, List.foldl_nil, Header.set_of_ne (by decide), Header.set_of_ne (by decide)]
    exact Function.update_self _ _ _
  attempt := by
    rw [requestHeader, List.foldl_nil, Header.set_of_ne (by decide)]
    exact Function.update_self _ _ _
  idempotencyKey := by
    rw [requestHeader, List.foldl_nil]
    exact Function.update_self _ _ _
  canonical :=
    Header.set_canonical (Header.set_canonical (Header.set_canonical (Header.set_canonical
      (fun _ _ h => by cases h) _ _) _ _) _ _) _ _

/-- A header of the payload touches none of the three: its canonical name is not reserved, and `Set`
leaves a canonical name as it is. -/
theorem Header.Kept.set {j : WebhookJob} {header : Header} (h : header.Kept j) {key value : String}
    (hfree : isReservedHeader (canonicalHeaderKey key) = false) :
    (header.set (canonicalHeaderKey key) value).Kept j := by
  have hother : ∀ name, isReservedHeader name = true →
      header.set (canonicalHeaderKey key) value name = header name := by
    intro name hname
    apply Header.set_of_ne
    rintro rfl
    rw [canonicalHeaderKey_canonicalHeaderKey, hfree] at hname
    cases hname
  exact
    { jobID := (hother _ (by decide)).trans h.jobID
      attempt := (hother _ (by decide)).trans h.attempt
      idempotencyKey := (hother _ (by decide)).trans h.idempotencyKey
      canonical := Header.set_canonical h.canonical _ _ }

theorem kept_requestHeader (j : WebhookJob) (headers : List (String × String)) :
    (requestHeader j headers).Kept j := by
  -- the loop over the map keeps what holds of the headers set so far
  unfold requestHeader
  apply List.foldlRecOn
  · exact kept_requestHeader_nil j
  · rintro header h ⟨key, value⟩ -
    by_cases hreserved : isReservedHeader (canonicalHeaderKey key) = true
    · simp only [hreserved, if_true]
      exact h
    · simp only [hreserved, Bool.false_eq_true, if_false]
      exact h.set (Bool.eq_false_iff.2 hreserved)

/-- The request of any payload, with its headers in any order. -/
theorem scheduler_headers_kept (lib : TextLib) (j : WebhookJob) (payload : WebhookPayload)
    (target : URL) : (buildRequest lib j payload target).header.Kept j :=
  kept_requestHeader j payload.headers

/-! ### `Retry-After` -/

/-- The value of decimal digits. -/
def decimalValue (digits : List Char) : Int :=
  digits.foldl (fun n c => n * 10 + (c.toNat - '0'.toNat)) 0

/-- A text is a decimal integer with an optional sign. -/
def IsDecimal (text : String) (s : Int) : Prop :=
  ∃ digits : List Char, digits ≠ [] ∧ digits.all Char.isDigit = true ∧
    (((text.toList = digits ∨ text.toList = '+' :: digits) ∧ s = decimalValue digits)
      ∨ (text.toList = '-' :: digits ∧ s = -decimalValue digits))

theorem splitSign_of_digit {c : Char} (h : c.isDigit = true) (cs : List Char) :
    splitSign (c :: cs) = (false, c :: cs) := by
  have hminus : c ≠ '-' := fun heq => absurd (heq ▸ h) (by decide)
  have hplus : c ≠ '+' := fun heq => absurd (heq ▸ h) (by decide)
  unfold splitSign
  split
  · next heq => exact absurd (List.cons.inj heq).1 hminus
  · next heq => exact absurd (List.cons.inj heq).1 hplus
  · rfl

theorem splitSign_cases (text : List Char) :
    (∃ rest, text = '-' :: rest ∧ splitSign text = (true, rest)) ∨
      (∃ rest, text = '+' :: rest ∧ splitSign text = (false, rest)) ∨
      splitSign text = (false, text) := by
  unfold splitSign
  split
  · exact .inl ⟨_, rfl, rfl⟩
  · exact .inr (.inl ⟨_, rfl, rfl⟩)
  · exact .inr (.inr rfl)

/-- `Atoi` reads the decimal integers of 64 bits. -/
theorem atoi_eq_some_iff {text : String} {s : Int} :
    atoi text = some s ↔ IsDecimal text s ∧ -2 ^ 63 ≤ s ∧ s < 2 ^ 63 := by
  have hread : atoi text = some s ↔ (splitSign text.toList).2 ≠ [] ∧
      (splitSign text.toList).2.all Char.isDigit = true ∧
      s = (if (splitSign text.toList).1 then -decimalValue (splitSign text.toList).2
        else decimalValue (splitSign text.toList).2) ∧ -2 ^ 63 ≤ s ∧ s < 2 ^ 63 := by
    simp only [atoi, Option.ite_none_left_eq_some, Option.ite_none_right_eq_some, not_or,
      Bool.not_eq_false, Option.some.injEq, decimalValue]
    constructor
    · rintro ⟨⟨hne, hall⟩, hrange, rfl⟩
      exact ⟨hne, hall, rfl, hrange⟩
    · rintro ⟨hne, hall, rfl, hrange⟩
      exact ⟨⟨hne, hall⟩, hrange, rfl⟩
  rw [hread]
  constructor
  · rintro ⟨hne, hall, hs, hrange⟩
    refine ⟨⟨_, hne, hall, ?_⟩, hrange⟩
    rcases splitSign_cases text.toList with ⟨rest, htext, hsplit⟩ | ⟨rest, htext, hsplit⟩ | hsplit
    · rw [hsplit] at hs ⊢
      exact .inr ⟨htext, hs⟩
    · rw [hsplit] at hs ⊢
      exact .inl ⟨.inr htext, hs⟩
    · rw [hsplit] at hs ⊢
      exact .inl ⟨.inl rfl, hs⟩
  · rintro ⟨⟨digits, hne, hall, hsign⟩, hrange⟩
    rcases hsign with ⟨htext | htext, hs⟩ | ⟨htext, hs⟩
    · obtain ⟨c, cs, rfl⟩ := List.exists_cons_of_ne_nil hne
      have hc : c.isDigit = true := by
        rw [List.all_cons, Bool.and_eq_true] at hall
        exact hall.1
      rw [htext, splitSign_of_digit hc]
      exact ⟨hne, hall, hs, hrange⟩
    · rw [htext]
      exact ⟨hne, hall, hs, hrange⟩
    · rw [htext]
      exact ⟨hne, hall, hs, hrange⟩

/-- What `parseRetryAfter` is meant to make of a header: whole seconds, fifteen minutes at most. -/
structure RetryAfterParsed (value : String) : Prop where
  nonneg : 0 ≤ parseRetryAfter value
  capped : parseRetryAfter value ≤ 15 * 60 * second
  seconds : ∀ s, IsDecimal (trimSpace value) s → 0 ≤ s → s < 2 ^ 63 →
    parseRetryAfter value = min s 900 * second
  otherwise : (¬∃ s, IsDecimal (trimSpace value) s ∧ 0 ≤ s ∧ s < 2 ^ 63) →
    parseRetryAfter value = 0

/-- A number of seconds that reaches the cap in nanoseconds of 64 bits, or needs no cap: it is at most
`(2 ^ 63 - 1) / 10 ^ 9`, or it happens to wrap to fifteen minutes or more. -/
def SecondsFit (s : Int) : Prop :=
  s ≤ 9223372036 ∨ (900 * 5 ^ 9 ≤ s * 5 ^ 9 % 2 ^ 55 ∧ s * 5 ^ 9 % 2 ^ 55 < 2 ^ 54)

instance (s : Int) : Decidable (SecondsFit s) := inferInstanceAs (Decidable (_ ∨ _))

/-- `10 ^ 9` is `5 ^ 9 * 2 ^ 9`: what wraps is the product with `5 ^ 9`, in 55 bits. -/
theorem wrap64_second (s : Int) :
    wrap64 (s * second) = (if s * 5 ^ 9 % 2 ^ 55 < 2 ^ 54 then s * 5 ^ 9 % 2 ^ 55
      else s * 5 ^ 9 % 2 ^ 55 - 2 ^ 55) * 2 ^ 9 := by
  have hsplit : s * second = s * 5 ^ 9 * 2 ^ 9 := by
    rw [mul_assoc]
    rfl
  rw [wrap64, hsplit, Int.bmod_def]
  generalize s * 5 ^ 9 = x
  split <;> split <;> omega

/-- The capped product is the capped number if and only if the number fits. -/
theorem capped_iff_secondsFit {s : Int} (hs : 0 ≤ s) :
    min (wrap64 (s * second)) (15 * 60 * second) = min s 900 * second ↔ SecondsFit s := by
  have hcap : 15 * 60 * second = 900 * 5 ^ 9 * 2 ^ 9 := rfl
  have hsecond : second = 5 ^ 9 * 2 ^ 9 := rfl
  rw [wrap64_second, SecondsFit, hcap, hsecond]
  by_cases hsmall : s ≤ 9223372036
  · have hmod : s * 5 ^ 9 % 2 ^ 55 = s * 5 ^ 9 := Int.emod_eq_of_lt (by omega) (by omega)
    rw [hmod, if_pos (by omega)]
    exact ⟨fun _ => .inl hsmall, fun _ => by omega⟩
  · have hmin : min s 900 = 900 := min_eq_right (by omega)
    have hpos : 0 ≤ s * 5 ^ 9 % 2 ^ 55 := Int.emod_nonneg _ (by decide)
    rw [hmin]
    have hlt : s * 5 ^ 9 % 2 ^ 55 < 2 ^ 55 := Int.emod_lt_of_pos _ (by decide)
    generalize s * 5 ^ 9 % 2 ^ 55 = r at hpos hlt
    by_cases hhalf : r < 2 ^ 54
    · rw [if_pos hhalf]
      omega
    · rw [if_neg hhalf]
      omega

theorem parseRetryAfter_of_atoi {value : String} {s : Int} (h : atoi (trimSpace value) = some s) :
    parseRetryAfter value =
      if s < 0 then 0 else min (wrap64 (s * second)) (15 * 60 * second) := by
  have hmin : min (wrap64 (s * second)) (15 * 60 * second)
      = if wrap64 (s * second) > 15 * 60 * second then 15 * 60 * second
        else wrap64 (s * second) := by
    split <;> omega
  rw [hmin]
  simp only [parseRetryAfter, h]

theorem parseRetryAfter_of_none {value : String} (h : atoi (trimSpace value) = none) :
    parseRetryAfter value = 0 := by
  rw [parseRetryAfter, h]

/-- For any header: what it should give if and only if its number of seconds, if it is one, fits. -/
theorem retry_after_parsed (value : String) :
    RetryAfterParsed value ↔ ∀ s, IsDecimal (trimSpace value) s → 0 ≤ s → s < 2 ^ 63 → SecondsFit s := by
  constructor
  · intro h s hdecimal hs hlt
    have hread := atoi_eq_some_iff.2 ⟨hdecimal, by omega, hlt⟩
    have hexact := h.seconds s hdecimal hs hlt
    rw [parseRetryAfter_of_atoi hread, if_neg (not_lt.2 hs)] at hexact
    exact (capped_iff_secondsFit hs).1 hexact
  · intro h
    have hexact : ∀ s, IsDecimal (trimSpace value) s → 0 ≤ s → s < 2 ^ 63 →
        parseRetryAfter value = min s 900 * second := by
      intro s hdecimal hs hlt
      have hread := atoi_eq_some_iff.2 ⟨hdecimal, by omega, hlt⟩
      rw [parseRetryAfter_of_atoi hread, if_neg (not_lt.2 hs)]
      exact (capped_iff_secondsFit hs).2 (h s hdecimal hs hlt)
    have hzero : (¬∃ s, IsDecimal (trimSpace value) s ∧ 0 ≤ s ∧ s < 2 ^ 63) →
        parseRetryAfter value = 0 := by
      intro hnone
      cases hread : atoi (trimSpace value) with
      | none => exact parseRetryAfter_of_none hread
      | some s =>
        obtain ⟨hdecimal, -, hlt⟩ := atoi_eq_some_iff.1 hread
        have hneg : s < 0 := not_le.1 fun hs => hnone ⟨s, hdecimal, hs, hlt⟩
        rw [parseRetryAfter_of_atoi hread, if_pos hneg]
    have hrange : 0 ≤ parseRetryAfter value ∧ parseRetryAfter value ≤ 15 * 60 * second := by
      by_cases hsome : ∃ s, IsDecimal (trimSpace value) s ∧ 0 ≤ s ∧ s < 2 ^ 63
      · obtain ⟨s, hdecimal, hs, hlt⟩ := hsome
        have hlow : 0 ≤ min s 900 := le_min hs (by decide)
        have hhigh : min s 900 ≤ 900 := min_le_right s 900
        rw [hexact s hdecimal hs hlt]
        exact ⟨Int.mul_nonneg hlow (by decide), Int.mul_le_mul_of_nonneg_right hhigh (by decide)⟩
      · rw [hzero hsome]
        decide
    exact ⟨hrange.1, hrange.2, hexact, hzero⟩

/-- One second past the largest number whose nanoseconds fit: the delay is negative. -/
theorem retry_after_wraps : IsDecimal (trimSpace "9223372037") 9223372037
    ∧ parseRetryAfter "9223372037" < 0 ∧ ¬RetryAfterParsed "9223372037" := by
  have hneg : parseRetryAfter "9223372037" < 0 := by decide +kernel
  exact ⟨⟨"9223372037".toList, by decide, by decide, .inl ⟨.inl (by decide), by decide⟩⟩, hneg,
    fun h => absurd h.nonneg (not_le.2 hneg)⟩

end JobScheduler

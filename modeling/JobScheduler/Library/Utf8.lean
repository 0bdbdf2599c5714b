import Mathlib.Data.List.Basic

/-!
# UTF-8, one character at a time

Arbitrary bytes are cut into characters from the left; a byte that starts no well-formed sequence is a
piece of its own.  The sequences are those of RFC 3629: no overlong forms, no surrogates, nothing past
`U+10FFFF`.

* `flatMap_bytes_runes` — the pieces are the bytes, in order.
* `high_of_wide` — a character of several bytes has no ASCII byte in it.
* `Valid.induction` — valid text, one character at a time.
* `valid_take_iff` — a cut leaves valid text exactly where it does not fall inside a character.
* `runes_encode`, `decode_encode` — the bytes of a text are cut into its characters.
* `Storable` — what a database takes as text.
-/

namespace Utf8

/-- A piece of a byte string. -/
inductive Rune where
  | ascii (b : UInt8)
  | wide (bytes : List UInt8)
  /-- A byte that is not part of a character. -/
  | bad (b : UInt8)
  deriving DecidableEq

/-- The bytes of a piece. -/
def Rune.bytes : Rune → List UInt8
  | .ascii b => [b]
  | .wide bytes => bytes
  | .bad b => [b]

def isTail (b : UInt8) : Bool := 0x80 ≤ b && b ≤ 0xBF

/-- `UTF8-2`. -/
def isTwo (a b : UInt8) : Bool := 0xC2 ≤ a && a ≤ 0xDF && isTail b

/-- `UTF8-3`. -/
def isThree (a b c : UInt8) : Bool :=
  isTail c && ((a == 0xE0 && 0xA0 ≤ b && b ≤ 0xBF) || (0xE1 ≤ a && a ≤ 0xEC && isTail b)
    || (a == 0xED && 0x80 ≤ b && b ≤ 0x9F) || (0xEE ≤ a && a ≤ 0xEF && isTail b))

/-- `UTF8-4`. -/
def isFour (a b c d : UInt8) : Bool :=
  isTail c && isTail d && ((a == 0xF0 && 0x90 ≤ b && b ≤ 0xBF)
    || (0xF1 ≤ a && a ≤ 0xF3 && isTail b) || (a == 0xF4 && 0x80 ≤ b && b ≤ 0x8F))

/-- The pieces of a byte string. -/
def runes : List UInt8 → List Rune
  | [] => []
  | a :: rest =>
    if a < 0x80 then .ascii a :: runes rest
    else
      match rest with
      | [] => [.bad a]
      | b :: rest₂ =>
        if isTwo a b then .wide [a, b] :: runes rest₂
        else
          match rest₂ with
          | [] => .bad a :: runes [b]
          | c :: rest₃ =>
            if isThree a b c then .wide [a, b, c] :: runes rest₃
            else
              match rest₃ with
              | [] => .bad a :: runes [b, c]
              | d :: rest₄ =>
                if isFour a b c d then .wide [a, b, c, d] :: runes rest₄
                else .bad a :: runes (b :: c :: d :: rest₄)

/-- A piece that is a character. -/
def Rune.isChar : Rune → Bool
  | .ascii _ => true
  | .wide _ => true
  | .bad _ => false

/-- Every byte is part of a character. -/
def Valid (bytes : List UInt8) : Prop := ∀ b, .bad b ∉ runes bytes

theorem valid_iff_all_isChar {bytes : List UInt8} : Valid bytes ↔ (runes bytes).all Rune.isChar := by
  simp only [Valid, List.all_eq_true]
  constructor
  · intro h r hr
    cases r with
    | bad b => exact absurd hr (h b)
    | _ => rfl
  · intro h b hb
    cases h _ hb

instance (bytes : List UInt8) : Decidable (Valid bytes) :=
  decidable_of_iff _ valid_iff_all_isChar.symm

theorem flatMap_bytes_runes (bytes : List UInt8) : (runes bytes).flatMap Rune.bytes = bytes := by
  fun_induction runes bytes <;> simp_all [Rune.bytes]

theorem high_of_isTail {b : UInt8} (h : isTail b = true) : 0x80 ≤ b := by
  simp only [isTail, Bool.and_eq_true, decide_eq_true_eq] at h
  exact h.1

theorem high_of_isTwo {a b : UInt8} (ha : ¬a < 0x80) (h : isTwo a b = true) :
    ∀ x ∈ [a, b], 0x80 ≤ x := by
  simp only [isTwo, Bool.and_eq_true] at h
  simp [UInt8.not_lt.1 ha, high_of_isTail h.2]

theorem high_of_isThree {a b c : UInt8} (ha : ¬a < 0x80) (h : isThree a b c = true) :
    ∀ x ∈ [a, b, c], 0x80 ≤ x := by
  simp only [isThree, isTail, Bool.and_eq_true, Bool.or_eq_true, decide_eq_true_eq] at h
  have hb : 0x80 ≤ b := by
    rcases h.2 with ((h | h) | h) | h
    · exact UInt8.le_trans (by decide) h.1.2
    · exact h.2.1
    · exact h.1.2
    · exact h.2.1
  simp [UInt8.not_lt.1 ha, hb, h.1.1]

theorem high_of_isFour {a b c d : UInt8} (ha : ¬a < 0x80) (h : isFour a b c d = true) :
    ∀ x ∈ [a, b, c, d], 0x80 ≤ x := by
  simp only [isFour, isTail, Bool.and_eq_true, Bool.or_eq_true, decide_eq_true_eq] at h
  have hb : 0x80 ≤ b := by
    rcases h.2 with (h | h) | h
    · exact UInt8.le_trans (by decide) h.1.2
    · exact h.2.1
    · exact h.1.2
  simp [UInt8.not_lt.1 ha, hb, h.1.1.1, h.1.2.1]

theorem high_of_isTwo_lead {a b : UInt8} (h : isTwo a b = true) : ¬a < 0x80 := by
  simp only [isTwo, isTail, Bool.and_eq_true, decide_eq_true_eq, UInt8.le_iff_toNat_le,
    UInt8.lt_iff_toNat_lt, UInt8.reduceToNat] at h ⊢
  omega

theorem high_of_isThree_lead {a b c : UInt8} (h : isThree a b c = true) : ¬a < 0x80 := by
  simp only [isThree, isTail, Bool.and_eq_true, Bool.or_eq_true, decide_eq_true_eq, beq_iff_eq,
    UInt8.le_iff_toNat_le, UInt8.lt_iff_toNat_lt, UInt8.reduceToNat, ← UInt8.toNat_inj] at h ⊢
  omega

theorem high_of_isFour_lead {a b c d : UInt8} (h : isFour a b c d = true) : ¬a < 0x80 := by
  simp only [isFour, isTail, Bool.and_eq_true, Bool.or_eq_true, decide_eq_true_eq, beq_iff_eq,
    UInt8.le_iff_toNat_le, UInt8.lt_iff_toNat_lt, UInt8.reduceToNat, ← UInt8.toNat_inj] at h ⊢
  omega

/-- The encodings of a character of several bytes. -/
inductive Wide : List UInt8 → Prop where
  | two {a b : UInt8} (h : isTwo a b = true) : Wide [a, b]
  | three {a b c : UInt8} (h : isThree a b c = true) : Wide [a, b, c]
  | four {a b c d : UInt8} (h : isFour a b c d = true) : Wide [a, b, c, d]

theorem Wide.high {bs : List UInt8} (h : Wide bs) : ∀ b ∈ bs, 0x80 ≤ b := by
  cases h with
  | two h => exact high_of_isTwo (high_of_isTwo_lead h) h
  | three h => exact high_of_isThree (high_of_isThree_lead h) h
  | four h => exact high_of_isFour (high_of_isFour_lead h) h

theorem Wide.two_le {bs : List UInt8} (h : Wide bs) : ∃ b c rest, bs = b :: c :: rest := by
  cases h with
  | two h => exact ⟨_, _, _, rfl⟩
  | three h => exact ⟨_, _, _, rfl⟩
  | four h => exact ⟨_, _, _, rfl⟩

/-- The pieces there can be. -/
def Rune.WellFormed : Rune → Prop
  | .ascii b => b < 0x80
  | .wide bytes => Wide bytes
  | .bad b => ¬b < 0x80

theorem wellFormed_of_mem_runes {bytes : List UInt8} {r : Rune} (h : r ∈ runes bytes) :
    r.WellFormed := by
  fun_induction runes bytes with
  | case1 => exact absurd h List.not_mem_nil
  | case2 a rest ha ih =>
    rcases List.mem_cons.1 h with rfl | h
    · exact ha
    · exact ih h
  | case3 a ha =>
    obtain rfl := List.mem_singleton.1 h
    exact ha
  | case4 a ha b rest hab ih =>
    rcases List.mem_cons.1 h with rfl | h
    · exact Wide.two hab
    · exact ih h
  | case5 a ha b hab ih =>
    rcases List.mem_cons.1 h with rfl | h
    · exact ha
    · exact ih h
  | case6 a ha b hab c rest habc ih =>
    rcases List.mem_cons.1 h with rfl | h
    · exact Wide.three habc
    · exact ih h
  | case7 a ha b hab c habc ih =>
    rcases List.mem_cons.1 h with rfl | h
    · exact ha
    · exact ih h
  | case8 a ha b hab c habc d rest habcd ih =>
    rcases List.mem_cons.1 h with rfl | h
    · exact Wide.four habcd
    · exact ih h
  | case9 a ha b hab c habc d rest habcd ih =>
    rcases List.mem_cons.1 h with rfl | h
    · exact ha
    · exact ih h

/-- What is not ASCII has no ASCII byte in it. -/
theorem high_of_wide {bytes bs : List UInt8} (h : .wide bs ∈ runes bytes) : ∀ b ∈ bs, 0x80 ≤ b :=
  Wide.high (wellFormed_of_mem_runes h)

theorem high_of_bad {bytes : List UInt8} {b : UInt8} (h : .bad b ∈ runes bytes) : ¬b < 0x80 :=
  wellFormed_of_mem_runes h

/-- Every ASCII byte is a character. -/
theorem ascii_of_mem {bytes : List UInt8} {a : UInt8} (ha : a < 0x80) (h : a ∈ bytes) :
    .ascii a ∈ runes bytes := by
  rw [← flatMap_bytes_runes bytes] at h
  obtain ⟨r, hr, hmem⟩ := List.mem_flatMap.1 h
  cases r with
  | ascii b =>
    obtain rfl := List.mem_singleton.1 hmem
    exact hr
  | wide bs => exact absurd ha (UInt8.not_lt.2 (high_of_wide hr a hmem))
  | bad b =>
    obtain rfl := List.mem_singleton.1 hmem
    exact absurd ha (high_of_bad hr)

/-! ### Characters of several bytes -/

theorem tail_of_isTwo {a b : UInt8} (h : isTwo a b = true) : isTail a = false ∧ isTail b = true := by
  simp only [isTwo, isTail, Bool.and_eq_true, decide_eq_true_eq, UInt8.le_iff_toNat_le,
    UInt8.reduceToNat, Bool.and_eq_false_iff, decide_eq_false_iff_not] at h ⊢
  omega

theorem tail_of_isThree {a b c : UInt8} (h : isThree a b c = true) :
    isTail a = false ∧ isTail b = true ∧ isTail c = true := by
  simp only [isThree, isTail, Bool.and_eq_true, Bool.or_eq_true, decide_eq_true_eq, beq_iff_eq,
    UInt8.le_iff_toNat_le, UInt8.reduceToNat, ← UInt8.toNat_inj, Bool.and_eq_false_iff,
    decide_eq_false_iff_not] at h ⊢
  omega

theorem tail_of_isFour {a b c d : UInt8} (h : isFour a b c d = true) :
    isTail a = false ∧ isTail b = true ∧ isTail c = true ∧ isTail d = true := by
  simp only [isFour, isTail, Bool.and_eq_true, Bool.or_eq_true, decide_eq_true_eq, beq_iff_eq,
    UInt8.le_iff_toNat_le, UInt8.reduceToNat, ← UInt8.toNat_inj, Bool.and_eq_false_iff,
    decide_eq_false_iff_not] at h ⊢
  omega

/-- The first byte says how many there are. -/
theorem isTwo_eq_false_of_isThree {a b c : UInt8} (h : isThree a b c = true) : isTwo a b = false := by
  simp only [isThree, isTwo, isTail, Bool.and_eq_true, Bool.or_eq_true, decide_eq_true_eq, beq_iff_eq,
    UInt8.le_iff_toNat_le, UInt8.reduceToNat, ← UInt8.toNat_inj, Bool.and_eq_false_iff,
    decide_eq_false_iff_not] at h ⊢
  omega

theorem isTwo_eq_false_of_isFour {a b c d : UInt8} (h : isFour a b c d = true) :
    isTwo a b = false := by
  simp only [isFour, isTwo, isTail, Bool.and_eq_true, Bool.or_eq_true, decide_eq_true_eq, beq_iff_eq,
    UInt8.le_iff_toNat_le, UInt8.reduceToNat, ← UInt8.toNat_inj, Bool.and_eq_false_iff,
    decide_eq_false_iff_not] at h ⊢
  omega

theorem isThree_eq_false_of_isFour {a b c d : UInt8} (h : isFour a b c d = true) :
    isThree a b c = false := by
  simp only [isFour, isThree, isTail, Bool.and_eq_true, Bool.or_eq_true, decide_eq_true_eq, beq_iff_eq,
    UInt8.le_iff_toNat_le, UInt8.reduceToNat, ← UInt8.toNat_inj, Bool.and_eq_false_iff,
    Bool.or_eq_false_iff, beq_eq_false_iff_ne, ne_eq, decide_eq_false_iff_not] at h ⊢
  omega

theorem runes_ascii {a : UInt8} (ha : a < 0x80) (rest : List UInt8) :
    runes (a :: rest) = .ascii a :: runes rest := by
  rw [runes.eq_def]
  simp only [ha, if_true]

theorem runes_wide {bs : List UInt8} (h : Wide bs) (rest : List UInt8) :
    runes (bs ++ rest) = .wide bs :: runes rest := by
  rw [runes.eq_def]
  cases h with
  | two h => simp only [List.cons_append, List.nil_append, high_of_isTwo_lead h, if_false, h, if_true]
  | three h =>
    simp only [List.cons_append, List.nil_append, high_of_isThree_lead h, if_false,
      isTwo_eq_false_of_isThree h, Bool.false_eq_true, h, if_true]
  | four h =>
    simp only [List.cons_append, List.nil_append, high_of_isFour_lead h, if_false,
      isTwo_eq_false_of_isFour h, isThree_eq_false_of_isFour h, Bool.false_eq_true, h, if_true]

theorem valid_nil : Valid [] := fun _ h => by cases h

theorem Valid.of_ascii {a : UInt8} (ha : a < 0x80) {rest : List UInt8} :
    Valid (a :: rest) ↔ Valid rest := by
  simp [Valid, runes_ascii ha]

theorem Valid.of_wide {bs : List UInt8} (h : Wide bs) {rest : List UInt8} :
    Valid (bs ++ rest) ↔ Valid rest := by
  simp [Valid, runes_wide h]

/-- Valid text is empty, or a character and then valid text. -/
theorem Valid.induction {P : List UInt8 → Prop} (hnil : P [])
    (hascii : ∀ a rest, a < 0x80 → Valid rest → P rest → P (a :: rest))
    (hwide : ∀ bs rest, Wide bs → Valid rest → P rest → P (bs ++ rest)) {bytes : List UInt8}
    (h : Valid bytes) : P bytes := by
  fun_induction runes bytes with
  | case1 => exact hnil
  | case2 a rest ha ih =>
    have hrest := (Valid.of_ascii ha).1 h
    exact hascii a rest ha hrest (ih hrest)
  | case4 a ha b rest hab ih =>
    have hrest := (Valid.of_wide (.two hab)).1 h
    exact hwide [a, b] rest (.two hab) hrest (ih hrest)
  | case6 a ha b hab c rest habc ih =>
    have hrest := (Valid.of_wide (.three habc)).1 h
    exact hwide [a, b, c] rest (.three habc) hrest (ih hrest)
  | case8 a ha b hab c habc d rest habcd ih =>
    have hrest := (Valid.of_wide (.four habcd)).1 h
    exact hwide [a, b, c, d] rest (.four habcd) hrest (ih hrest)
  | case3 a ha => exact absurd (by simp [runes.eq_def, ha]) (h a)
  | case5 a ha b hab ih => exact absurd (by simp [runes.eq_def [a, b], ha, hab]) (h a)
  | case7 a ha b hab c habc ih =>
    exact absurd (by simp [runes.eq_def [a, b, c], ha, hab, habc]) (h a)
  | case9 a ha b hab c habc d rest habcd ih =>
    exact absurd (by simp [runes.eq_def (a :: b :: c :: d :: rest), ha, hab, habc, habcd]) (h a)

/-- In front of anything, valid text is read by itself. -/
theorem Valid.runes_append {bytes : List UInt8} (h : Valid bytes) (rest : List UInt8) :
    runes (bytes ++ rest) = runes bytes ++ runes rest := by
  apply Valid.induction (P := fun bytes => runes (bytes ++ rest) = runes bytes ++ runes rest) ?_ ?_ ?_ h
  · rfl
  · intro a tail ha _ ih
    rw [List.cons_append, runes_ascii ha, runes_ascii ha, ih, List.cons_append]
  · intro bs tail hbs _ ih
    rw [List.append_assoc, runes_wide hbs, runes_wide hbs, ih, List.cons_append]

/-! ### Bad bytes -/

/-- No character begins with such a byte. -/
theorem runes_of_lead {a : UInt8} (ha : 0xF5 ≤ a) (rest : List UInt8) :
    runes (a :: rest) = .bad a :: runes rest := by
  have hascii : ¬a < 0x80 := by
    simp only [UInt8.le_iff_toNat_le, UInt8.lt_iff_toNat_lt, UInt8.reduceToNat] at ha ⊢
    omega
  have htwo : ∀ b, isTwo a b = false := by
    intro b
    by_contra h
    simp only [Bool.not_eq_false, isTwo, Bool.and_eq_true, decide_eq_true_eq, UInt8.le_iff_toNat_le,
      UInt8.reduceToNat] at h ha
    omega
  have hthree : ∀ b c, isThree a b c = false := by
    intro b c
    by_contra h
    simp only [Bool.not_eq_false, isThree, Bool.and_eq_true, Bool.or_eq_true, decide_eq_true_eq,
      beq_iff_eq, UInt8.le_iff_toNat_le, UInt8.reduceToNat, ← UInt8.toNat_inj] at h ha
    omega
  have hfour : ∀ b c d, isFour a b c d = false := by
    intro b c d
    by_contra h
    simp only [Bool.not_eq_false, isFour, Bool.and_eq_true, Bool.or_eq_true, decide_eq_true_eq,
      beq_iff_eq, UInt8.le_iff_toNat_le, UInt8.reduceToNat, ← UInt8.toNat_inj] at h ha
    omega
  match rest with
  | [] => simp [runes.eq_def [a], hascii, runes.eq_def []]
  | [b] => simp [runes.eq_def [a, b], hascii, htwo]
  | [b, c] => simp [runes.eq_def [a, b, c], hascii, htwo, hthree]
  | b :: c :: d :: rest =>
    simp [runes.eq_def (a :: b :: c :: d :: rest), hascii, htwo, hthree, hfour]

/-- What is not valid text begins with valid text and a bad byte. -/
theorem exists_bad {bytes : List UInt8} (h : ¬Valid bytes) : ∃ before b after,
    bytes = before ++ b :: after ∧ Valid before ∧ runes (b :: after) = .bad b :: runes after := by
  fun_induction runes bytes with
  | case1 => exact absurd valid_nil h
  | case2 a rest ha ih =>
    obtain ⟨before, b, after, rfl, hbefore, hbad⟩ := ih fun hrest => h ((Valid.of_ascii ha).2 hrest)
    exact ⟨a :: before, b, after, rfl, (Valid.of_ascii ha).2 hbefore, hbad⟩
  | case4 a ha b rest hab ih =>
    obtain ⟨before, b', after, rfl, hbefore, hbad⟩ :=
      ih fun hrest => h ((Valid.of_wide (.two hab)).2 hrest)
    exact ⟨[a, b] ++ before, b', after, rfl, (Valid.of_wide (.two hab)).2 hbefore, hbad⟩
  | case6 a ha b hab c rest habc ih =>
    obtain ⟨before, b', after, rfl, hbefore, hbad⟩ :=
      ih fun hrest => h ((Valid.of_wide (.three habc)).2 hrest)
    exact ⟨[a, b, c] ++ before, b', after, rfl, (Valid.of_wide (.three habc)).2 hbefore, hbad⟩
  | case8 a ha b hab c habc d rest habcd ih =>
    obtain ⟨before, b', after, rfl, hbefore, hbad⟩ :=
      ih fun hrest => h ((Valid.of_wide (.four habcd)).2 hrest)
    exact ⟨[a, b, c, d] ++ before, b', after, rfl, (Valid.of_wide (.four habcd)).2 hbefore, hbad⟩
  | case3 a ha => exact ⟨[], a, [], rfl, valid_nil, by simp [runes.eq_def, ha]⟩
  | case5 a ha b hab ih => exact ⟨[], a, [b], rfl, valid_nil, by simp [runes.eq_def [a, b], ha, hab]⟩
  | case7 a ha b hab c habc ih =>
    exact ⟨[], a, [b, c], rfl, valid_nil, by simp [runes.eq_def [a, b, c], ha, hab, habc]⟩
  | case9 a ha b hab c habc d rest habcd ih =>
    exact ⟨[], a, b :: c :: d :: rest, rfl, valid_nil,
      by simp [runes.eq_def (a :: b :: c :: d :: rest), ha, hab, habc, habcd]⟩

/-! ### Cuts -/

/-- Inside a character: the byte behind the cut is a continuation, and what is before it is no text. -/
theorem cut_wide {bs : List UInt8} (h : Wide bs) {n : ℕ} (hpos : 0 < n) (hlt : n < bs.length)
    (rest : List UInt8) :
    ¬Valid ((bs ++ rest).take n) ∧ ∃ b, (bs ++ rest)[n]? = some b ∧ isTail b = true := by
  cases h with
  | @two a b h =>
    obtain rfl : n = 1 := by simp at hlt; omega
    have ha := high_of_isTwo_lead h
    refine ⟨fun hv => hv a (by simp [runes.eq_def, ha]), b, rfl, (tail_of_isTwo h).2⟩
  | @three a b c h =>
    have ha := high_of_isThree_lead h
    have hcut : n = 1 ∨ n = 2 := by simp at hlt; omega
    obtain rfl | rfl := hcut
    · exact ⟨fun hv => hv a (by simp [runes.eq_def, ha]), b, rfl, (tail_of_isThree h).2.1⟩
    · have htwo := isTwo_eq_false_of_isThree h
      exact ⟨fun hv => hv a (by simp [runes.eq_def [a, b], ha, htwo]), c, rfl,
        (tail_of_isThree h).2.2⟩
  | @four a b c d h =>
    have ha := high_of_isFour_lead h
    have htwo := isTwo_eq_false_of_isFour h
    have hcut : n = 1 ∨ n = 2 ∨ n = 3 := by simp at hlt; omega
    obtain rfl | rfl | rfl := hcut
    · exact ⟨fun hv => hv a (by simp [runes.eq_def, ha]), b, rfl, (tail_of_isFour h).2.1⟩
    · exact ⟨fun hv => hv a (by simp [runes.eq_def [a, b], ha, htwo]), c, rfl,
        (tail_of_isFour h).2.2.1⟩
    · have hthree := isThree_eq_false_of_isFour h
      exact ⟨fun hv => hv a (by simp [runes.eq_def [a, b, c], ha, htwo, hthree]), d, rfl,
        (tail_of_isFour h).2.2.2⟩

/-- The first byte of a character is not a continuation. -/
theorem isTail_head_wide {bs : List UInt8} (h : Wide bs) (rest : List UInt8) {b : UInt8}
    (hb : (bs ++ rest)[0]? = some b) : isTail b = false := by
  cases h with
  | two h => exact Option.some.inj hb ▸ (tail_of_isTwo h).1
  | three h => exact Option.some.inj hb ▸ (tail_of_isThree h).1
  | four h => exact Option.some.inj hb ▸ (tail_of_isFour h).1

theorem isTail_of_ascii {a : UInt8} (ha : a < 0x80) : isTail a = false := by
  simp only [isTail, Bool.and_eq_false_iff, decide_eq_false_iff_not, UInt8.le_iff_toNat_le,
    UInt8.lt_iff_toNat_lt, UInt8.reduceToNat] at ha ⊢
  omega

/-- The first bytes of valid text are valid text if and only if the next byte is no continuation. -/
theorem valid_take_iff {bytes : List UInt8} (h : Valid bytes) (n : ℕ) :
    Valid (bytes.take n) ↔ ∀ b, bytes[n]? = some b → isTail b = false := by
  revert n
  apply Valid.induction (P := fun bytes => ∀ n, Valid (bytes.take n) ↔
    ∀ b, bytes[n]? = some b → isTail b = false) ?_ ?_ ?_ h
  · simp [valid_nil]
  · intro a rest ha hrest ih n
    cases n with
    | zero =>
      refine ⟨fun _ b hb => ?_, fun _ => valid_nil⟩
      exact Option.some.inj hb ▸ isTail_of_ascii ha
    | succ n =>
      rw [List.take_succ_cons, Valid.of_ascii ha, List.getElem?_cons_succ]
      exact ih n
  · intro bs rest hbs hrest ih n
    by_cases hzero : n = 0
    · subst hzero
      exact ⟨fun _ b hb => isTail_head_wide hbs rest hb, fun _ => valid_nil⟩
    · by_cases hlt : n < bs.length
      · obtain ⟨hcut, b, hb, htail⟩ := cut_wide hbs (Nat.pos_of_ne_zero hzero) hlt rest
        refine ⟨fun hv => absurd hv hcut, fun hall => ?_⟩
        rw [hall b hb] at htail
        cases htail
      · rw [List.take_append, List.take_of_length_le (by omega), Valid.of_wide hbs,
          List.getElem?_append_right (by omega)]
        exact ih (n - bs.length)

/-! ### Text -/

/-- The piece a character is encoded as. -/
def Rune.ofChar (c : Char) : Rune :=
  if c.toNat < 0x80 then .ascii (UInt8.ofNat c.toNat) else .wide (String.utf8EncodeChar c)

/-- The character a piece stands for; U+FFFD for a byte that is part of none. -/
def Rune.char : Rune → Char
  | .ascii b => Char.ofNat b.toNat
  | .wide [a, b] => Char.ofNat (a.toNat % 32 * 64 + b.toNat % 64)
  | .wide [a, b, c] => Char.ofNat (a.toNat % 16 * 4096 + b.toNat % 64 * 64 + c.toNat % 64)
  | .wide [a, b, c, d] =>
    Char.ofNat (a.toNat % 8 * 262144 + b.toNat % 64 * 4096 + c.toNat % 64 * 64 + d.toNat % 64)
  | _ => Char.ofNat 0xFFFD

/-- The bytes of a text. -/
def encode (text : List Char) : List UInt8 := text.flatMap String.utf8EncodeChar

/-- The text of some bytes, with the replacement character for what is not UTF-8. -/
def decode (bytes : List UInt8) : List Char := (runes bytes).map Rune.char

/-- The three encodings of several bytes. -/
theorem utf8EncodeChar_wide {c : Char} (h : ¬c.toNat < 0x80) :
    Wide (String.utf8EncodeChar c) ∧ (Rune.wide (String.utf8EncodeChar c)).char = c := by
  have hvalid : c.toNat < 0xD800 ∨ (0xDFFF < c.toNat ∧ c.toNat < 0x110000) := c.valid
  have hchar : ∀ n, n = c.toNat → Char.ofNat n = c := fun n hn => hn ▸ Char.ofNat_toNat c
  have hlow : ¬c.val.toNat ≤ 127 := fun hle => h (Nat.lt_succ_of_le hle)
  simp only [String.utf8EncodeChar, hlow, if_false]
  generalize hv : c.val.toNat = v at *
  replace hv : c.toNat = v := hv
  rw [hv] at hchar hvalid
  split
  · refine ⟨.two ?_, hchar _ ?_⟩
    · simp only [isTwo, isTail, Bool.and_eq_true, decide_eq_true_eq, UInt8.le_iff_toNat_le,
        UInt8.toNat_ofNat', UInt8.reduceToNat]
      omega
    · simp only [UInt8.toNat_ofNat']
      omega
  · split
    · refine ⟨.three ?_, hchar _ ?_⟩
      · simp only [isThree, isTail, Bool.and_eq_true, Bool.or_eq_true, beq_iff_eq, decide_eq_true_eq,
          UInt8.le_iff_toNat_le, ← UInt8.toNat_inj, UInt8.toNat_ofNat', UInt8.reduceToNat]
        omega
      · simp only [UInt8.toNat_ofNat']
        omega
    · refine ⟨.four ?_, hchar _ ?_⟩
      · simp only [isFour, isTail, Bool.and_eq_true, Bool.or_eq_true, beq_iff_eq, decide_eq_true_eq,
          UInt8.le_iff_toNat_le, ← UInt8.toNat_inj, UInt8.toNat_ofNat', UInt8.reduceToNat]
        omega
      · simp only [UInt8.toNat_ofNat']
        omega

theorem utf8EncodeChar_ascii {c : Char} (h : c.toNat < 0x80) :
    String.utf8EncodeChar c = [UInt8.ofNat c.toNat] :=
  if_pos (Nat.le_of_lt_succ h)

theorem bytes_ofChar (c : Char) : (Rune.ofChar c).bytes = String.utf8EncodeChar c := by
  unfold Rune.ofChar
  split
  · exact (utf8EncodeChar_ascii ‹_›).symm
  · rfl

theorem char_ofChar (c : Char) : (Rune.ofChar c).char = c := by
  unfold Rune.ofChar
  split
  · rename_i h
    have hbyte : (UInt8.ofNat c.toNat).toNat = c.toNat := by
      rw [UInt8.toNat_ofNat']
      omega
    rw [Rune.char, hbyte, Char.ofNat_toNat]
  · exact (utf8EncodeChar_wide ‹_›).2

theorem runes_encode (text : List Char) : runes (encode text) = text.map Rune.ofChar := by
  induction text with
  | nil => simp [encode, runes]
  | cons c text ih =>
    have hcons : encode (c :: text) = String.utf8EncodeChar c ++ encode text := rfl
    rw [hcons, List.map_cons, ← ih, Rune.ofChar]
    split
    · rename_i h
      have hbyte : UInt8.ofNat c.toNat < 0x80 := by
        rw [UInt8.lt_iff_toNat_lt, UInt8.toNat_ofNat']
        show _ < 128
        omega
      rw [utf8EncodeChar_ascii h]
      exact runes_ascii hbyte _
    · rename_i h
      exact runes_wide (utf8EncodeChar_wide h).1 _

theorem valid_encode (text : List Char) : Valid (encode text) := by
  intro b hb
  rw [runes_encode] at hb
  obtain ⟨c, -, hc⟩ := List.mem_map.1 hb
  unfold Rune.ofChar at hc
  split at hc <;> cases hc

theorem decode_encode (text : List Char) : decode (encode text) = text := by
  simp [decode, runes_encode, Function.comp_def, char_ofChar]

theorem encode_injective : Function.Injective encode := fun a b h => by
  rw [← decode_encode a, h, decode_encode b]

/-! ### Text in a database -/

/-- What a `text` column of PostgreSQL takes: UTF-8 without the zero byte. -/
def Storable (bytes : List UInt8) : Prop := Valid bytes ∧ 0 ∉ bytes

instance : DecidablePred Storable := fun _ => inferInstanceAs (Decidable (_ ∧ _))

end Utf8

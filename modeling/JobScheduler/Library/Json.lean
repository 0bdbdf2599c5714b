import JobScheduler.Library.Utf8
import Mathlib.Data.Nat.Digits.Lemmas
import Mathlib.Tactic.IntervalCases

/-!
# JSON texts as bytes

How an encoder writes strings and integers, and which byte strings are JSON.  The recogniser is a
pushdown machine that reads one byte at a time, with a stack of the arrays and objects it is in;
the string encoder escapes what JSON and HTML require, and writes the replacement character for a byte
that is not UTF-8.

* `scan_append` — reading one text after another; `scan_quote`, `scan_itoa` — an encoded string or
  integer is read as one value.
* `Quiet` — a text that neither is nor begins an escaped zero character, in front of anything.
-/

namespace Json

open Utf8

/-- ASCII text as bytes. -/
def text (s : String) : List UInt8 := s.toList.map fun c => c.toNat.toUInt8

/-! ### Encoding -/

def hexDigit (n : UInt8) : UInt8 := if n < 10 then 0x30 + n else 0x57 + n

/-- `\u00` and two hexadecimal digits. -/
def unicodeEscape (b : UInt8) : List UInt8 :=
  [0x5C, 0x75, 0x30, 0x30, hexDigit (b >>> 4), hexDigit (b &&& 0x0F)]

/-- An ASCII character inside a string literal. -/
def escapeAscii (b : UInt8) : List UInt8 :=
  if b = 0x22 ∨ b = 0x5C then [0x5C, b]
  else if b = 0x08 then text "\\b"
  else if b = 0x0C then text "\\f"
  else if b = 0x0A then text "\\n"
  else if b = 0x0D then text "\\r"
  else if b = 0x09 then text "\\t"
  else if b < 0x20 ∨ b = 0x3C ∨ b = 0x3E ∨ b = 0x26 then unicodeEscape b
  else [b]

/-- A character inside a string literal; the two line separators are escaped. -/
def escapeRune : Rune → List UInt8
  | .ascii b => escapeAscii b
  | .wide bytes =>
    if bytes = [0xE2, 0x80, 0xA8] then text "\\u2028"
    else if bytes = [0xE2, 0x80, 0xA9] then text "\\u2029"
    else bytes
  | .bad _ => text "\\ufffd"

/-- A string literal. -/
def quote (bytes : List UInt8) : List UInt8 := [0x22] ++ (runes bytes).flatMap escapeRune ++ [0x22]

/-- A natural number in decimal. -/
def natText (n : ℕ) : List UInt8 :=
  if n = 0 then [0x30] else (Nat.digits 10 n).reverse.map fun d => (0x30 + d).toUInt8

/-- An integer in decimal. -/
def itoa (n : Int) : List UInt8 := if n < 0 then 0x2D :: natText n.natAbs else natText n.natAbs

def boolText (b : Bool) : List UInt8 := if b then text "true" else text "false"

/-! ### Recognising -/

/-- What the machine is inside of. -/
inductive Frame where
  | objectKey
  | objectValue
  | arrayValue
  deriving DecidableEq

/-- What the machine reads next. -/
inductive State where
  | beginValue
  | beginValueOrEmpty
  | beginString
  | beginStringOrEmpty
  | endValue
  | inString
  | escape
  /-- Hexadecimal digits still to come. -/
  | escapeHex (left : ℕ)
  | minus
  | zero
  | digits
  | dot
  | fraction
  | exponent
  | exponentSign
  | exponentDigits
  /-- The rest of `true`, `false` or `null`. -/
  | literal (rest : List UInt8)
  deriving DecidableEq

structure Machine where
  state : State
  stack : List Frame
  deriving DecidableEq

def isSpace (c : UInt8) : Bool := c == 0x20 || c == 0x09 || c == 0x0D || c == 0x0A

def isDigit (c : UInt8) : Bool := 0x30 ≤ c && c ≤ 0x39

def isHex (c : UInt8) : Bool := isDigit c || (0x61 ≤ c && c ≤ 0x66) || (0x41 ≤ c && c ≤ 0x46)

/-- A value has ended: white space, or what the innermost frame continues with. -/
def afterValue (stack : List Frame) (c : UInt8) : Option Machine :=
  if isSpace c then some ⟨.endValue, stack⟩
  else
    match stack with
    | [] => none
    | .objectKey :: rest => if c = 0x3A then some ⟨.beginValue, .objectValue :: rest⟩ else none
    | .objectValue :: rest =>
      if c = 0x2C then some ⟨.beginString, .objectKey :: rest⟩
      else if c = 0x7D then some ⟨.endValue, rest⟩
      else none
    | .arrayValue :: rest =>
      if c = 0x2C then some ⟨.beginValue, .arrayValue :: rest⟩
      else if c = 0x5D then some ⟨.endValue, rest⟩
      else none

/-- A value begins. -/
def startValue (stack : List Frame) (c : UInt8) : Option Machine :=
  if isSpace c then some ⟨.beginValue, stack⟩
  else if c = 0x7B then some ⟨.beginStringOrEmpty, .objectKey :: stack⟩
  else if c = 0x5B then some ⟨.beginValueOrEmpty, .arrayValue :: stack⟩
  else if c = 0x22 then some ⟨.inString, stack⟩
  else if c = 0x2D then some ⟨.minus, stack⟩
  else if c = 0x30 then some ⟨.zero, stack⟩
  else if isDigit c then some ⟨.digits, stack⟩
  else if c = 0x74 then some ⟨.literal (text "rue"), stack⟩
  else if c = 0x66 then some ⟨.literal (text "alse"), stack⟩
  else if c = 0x6E then some ⟨.literal (text "ull"), stack⟩
  else none

/-- A member name begins. -/
def startString (stack : List Frame) (c : UInt8) : Option Machine :=
  if isSpace c then some ⟨.beginString, stack⟩
  else if c = 0x22 then some ⟨.inString, stack⟩
  else none

/-- One byte. -/
def step (m : Machine) (c : UInt8) : Option Machine :=
  match m.state with
  | .beginValue => startValue m.stack c
  | .beginValueOrEmpty =>
    if isSpace c then some m
    else if c = 0x5D then some ⟨.endValue, m.stack.tail⟩
    else startValue m.stack c
  | .beginString => startString m.stack c
  | .beginStringOrEmpty =>
    if isSpace c then some m
    else if c = 0x7D then some ⟨.endValue, m.stack.tail⟩
    else startString m.stack c
  | .endValue => afterValue m.stack c
  | .inString =>
    if c = 0x22 then some ⟨.endValue, m.stack⟩
    else if c = 0x5C then some ⟨.escape, m.stack⟩
    else if c < 0x20 then none
    else some m
  | .escape =>
    if c ∈ text "bfnrt\\/\"" then some ⟨.inString, m.stack⟩
    else if c = 0x75 then some ⟨.escapeHex 4, m.stack⟩
    else none
  | .escapeHex left =>
    if isHex c then
      if left ≤ 1 then some ⟨.inString, m.stack⟩ else some ⟨.escapeHex (left - 1), m.stack⟩
    else none
  | .minus =>
    if c = 0x30 then some ⟨.zero, m.stack⟩ else if isDigit c then some ⟨.digits, m.stack⟩ else none
  | .zero =>
    if c = 0x2E then some ⟨.dot, m.stack⟩
    else if c = 0x65 ∨ c = 0x45 then some ⟨.exponent, m.stack⟩
    else afterValue m.stack c
  | .digits =>
    if isDigit c then some m
    else if c = 0x2E then some ⟨.dot, m.stack⟩
    else if c = 0x65 ∨ c = 0x45 then some ⟨.exponent, m.stack⟩
    else afterValue m.stack c
  | .dot => if isDigit c then some ⟨.fraction, m.stack⟩ else none
  | .fraction =>
    if isDigit c then some m
    else if c = 0x65 ∨ c = 0x45 then some ⟨.exponent, m.stack⟩
    else afterValue m.stack c
  | .exponent =>
    if c = 0x2B ∨ c = 0x2D then some ⟨.exponentSign, m.stack⟩
    else if isDigit c then some ⟨.exponentDigits, m.stack⟩
    else none
  | .exponentSign => if isDigit c then some ⟨.exponentDigits, m.stack⟩ else none
  | .exponentDigits => if isDigit c then some m else afterValue m.stack c
  | .literal rest =>
    match rest with
    | [] => none
    | [x] => if c = x then some ⟨.endValue, m.stack⟩ else none
    | x :: y :: rest => if c = x then some ⟨.literal (y :: rest), m.stack⟩ else none

/-- Read a text. -/
def scan (m : Machine) : List UInt8 → Option Machine
  | [] => some m
  | c :: cs => (step m c).bind fun m' => scan m' cs

/-- The text is one JSON value, with white space around it; a final blank ends a number. -/
def valid (doc : List UInt8) : Bool := scan ⟨.beginValue, []⟩ (doc ++ [0x20]) == some ⟨.endValue, []⟩

/-- An escaped zero character. -/
def hasNulEscape : List UInt8 → Bool
  | [] => false
  | [_] => false
  | b :: c :: rest =>
    if b = 0x5C then (c == 0x75 && rest.take 4 == text "0000") || hasNulEscape rest
    else hasNulEscape (c :: rest)

/-! ### Reading what was encoded -/

theorem scan_append (m : Machine) (xs ys : List UInt8) :
    scan m (xs ++ ys) = (scan m xs).bind fun m' => scan m' ys := by
  induction xs generalizing m with
  | nil => rfl
  | cons c cs ih =>
    simp only [List.cons_append, scan]
    cases step m c with
    | none => rfl
    | some m' => exact ih m'

/-- Texts that are read one after the other. -/
theorem scan_append_of {m m' : Machine} {xs : List UInt8} (h : scan m xs = some m') (ys : List UInt8) :
    scan m (xs ++ ys) = scan m' ys := by
  rw [scan_append, h]
  rfl

/-- Texts that leave the machine where it is. -/
theorem scan_flatMap {α : Type} {m : Machine} {f : α → List UInt8} {l : List α}
    (h : ∀ a ∈ l, scan m (f a) = some m) : scan m (l.flatMap f) = some m := by
  induction l with
  | nil => rfl
  | cons a l ih =>
    rw [List.flatMap_cons, scan_append_of (h a (by simp))]
    exact ih fun b hb => h b (by simp [hb])

variable {stack : List Frame}

theorem step_inString_of_plain {c : UInt8} (hquote : c ≠ 0x22) (hslash : c ≠ 0x5C) (hlow : ¬c < 0x20) :
    step ⟨.inString, stack⟩ c = some ⟨.inString, stack⟩ := by
  simp [step, hquote, hslash, hlow]

/-- A fact about every byte, checked byte by byte. -/
theorem forall_byte {p : UInt8 → Prop} (h : ∀ n : Fin 256, p (UInt8.ofFin n)) (b : UInt8) : p b := by
  have hb := h b.toFin
  rwa [UInt8.ofFin_toFin] at hb

theorem isHex_hexDigit (b : UInt8) : isHex (hexDigit (b >>> 4)) = true
    ∧ isHex (hexDigit (b &&& 0x0F)) = true := by
  revert b
  exact forall_byte (by decide +kernel)

theorem scan_unicodeEscape (b : UInt8) :
    scan ⟨.inString, stack⟩ (unicodeEscape b) = some ⟨.inString, stack⟩ := by
  obtain ⟨hhigh, hlow⟩ := isHex_hexDigit b
  have hzero : isHex 0x30 = true := by decide
  have hu : (0x75 : UInt8) ∉ text "bfnrt\\/\"" := by decide
  simp [unicodeEscape, scan, step, hhigh, hlow, hzero, hu]

theorem scan_escapeAscii (b : UInt8) :
    scan ⟨.inString, stack⟩ (escapeAscii b) = some ⟨.inString, stack⟩ := by
  unfold escapeAscii
  split
  · rename_i h
    rcases h with rfl | rfl <;> rfl
  · rename_i hquote
    repeat' split
    · rfl
    · rfl
    · rfl
    · rfl
    · rfl
    · exact scan_unicodeEscape b
    · rename_i hsafe
      rw [not_or] at hquote hsafe
      simp only [scan, step_inString_of_plain hquote.1 hquote.2 hsafe.1, Option.bind_some]

theorem scan_high {bytes : List UInt8} (h : ∀ b ∈ bytes, 0x80 ≤ b) :
    scan ⟨.inString, stack⟩ bytes = some ⟨.inString, stack⟩ := by
  induction bytes with
  | nil => rfl
  | cons b bytes ih =>
    have hb := UInt8.le_iff_toNat_le.1 (h b (by simp))
    have hstep : step ⟨.inString, stack⟩ b = some ⟨.inString, stack⟩ := by
      apply step_inString_of_plain
      · rintro rfl
        exact absurd hb (by decide)
      · rintro rfl
        exact absurd hb (by decide)
      · rw [UInt8.lt_iff_toNat_lt]
        have h20 : (0x20 : UInt8).toNat = 32 := rfl
        have h80 : (0x80 : UInt8).toNat = 128 := rfl
        omega
    simp only [scan, hstep, Option.bind_some]
    exact ih fun b' hb' => h b' (by simp [hb'])

theorem scan_escapeRune {bytes : List UInt8} {r : Rune} (h : r ∈ runes bytes) :
    scan ⟨.inString, stack⟩ (escapeRune r) = some ⟨.inString, stack⟩ := by
  cases r with
  | ascii b => exact scan_escapeAscii b
  | wide bs =>
    simp only [escapeRune]
    split
    · rfl
    · split
      · rfl
      · exact scan_high (high_of_wide h)
  | bad b => rfl

/-- After its opening quote, a string literal is read up to its closing one. -/
theorem scan_quote_tail (bytes : List UInt8) :
    scan ⟨.inString, stack⟩ ((runes bytes).flatMap escapeRune ++ [0x22]) = some ⟨.endValue, stack⟩ := by
  rw [scan_append_of (scan_flatMap fun r hr => scan_escapeRune hr)]
  rfl

/-- A string literal is read as one value. -/
theorem scan_quote (bytes : List UInt8) :
    scan ⟨.beginValue, stack⟩ (quote bytes) = some ⟨.endValue, stack⟩ := by
  have hopen : scan ⟨.beginValue, stack⟩ [0x22] = some ⟨.inString, stack⟩ := rfl
  rw [quote, List.append_assoc, scan_append_of hopen]
  exact scan_quote_tail bytes

theorem scan_boolText (b : Bool) :
    scan ⟨.beginValue, stack⟩ (boolText b) = some ⟨.endValue, stack⟩ := by
  cases b <;> rfl

/-! ### Numbers -/

/-- The byte of a decimal digit. -/
def digitByte (d : ℕ) : UInt8 := (0x30 + d).toUInt8

theorem isDigit_digitByte {d : ℕ} (h : d < 10) : isDigit (digitByte d) = true := by
  interval_cases d <;> rfl

theorem scan_digits {ds : List ℕ} (h : ∀ d ∈ ds, d < 10) :
    scan ⟨.digits, stack⟩ (ds.map digitByte) = some ⟨.digits, stack⟩ := by
  induction ds with
  | nil => rfl
  | cons d ds ih =>
    have hd := isDigit_digitByte (h d (by simp))
    simp only [List.map_cons, scan, step, hd, if_true, Option.bind_some]
    exact ih fun d' hd' => h d' (by simp [hd'])

/-- A byte that cannot go on with a number. -/
def EndsNumber (c : UInt8) : Prop := isDigit c = false ∧ c ≠ 0x2E ∧ c ≠ 0x65 ∧ c ≠ 0x45

/-- The states in which an integer has been read. -/
def AfterInteger (stack : List Frame) (m : Machine) : Prop :=
  ∀ c, EndsNumber c → step m c = afterValue stack c

theorem afterInteger_zero : AfterInteger stack ⟨.zero, stack⟩ := by
  rintro c ⟨-, hdot, he, hE⟩
  simp [step, hdot, he, hE]

theorem afterInteger_digits : AfterInteger stack ⟨.digits, stack⟩ := by
  rintro c ⟨hdigit, hdot, he, hE⟩
  simp [step, hdigit, hdot, he, hE]

/-- The decimal digits of a positive number start with one that is not zero. -/
theorem natText_of_pos {n : ℕ} (hn : n ≠ 0) : ∃ (d : ℕ) (ds : List ℕ), natText n = digitByte d :: ds.map digitByte
    ∧ d ≠ 0 ∧ d < 10 ∧ ∀ d' ∈ ds, d' < 10 := by
  have hnonempty : (Nat.digits 10 n).reverse ≠ [] := by simpa [Nat.digits_eq_nil_iff_eq_zero] using hn
  obtain ⟨d, ds, hds⟩ := List.exists_cons_of_ne_nil hnonempty
  have hlt : ∀ d' ∈ d :: ds, d' < 10 := by
    intro d' hd'
    rw [← hds, List.mem_reverse] at hd'
    exact Nat.digits_lt_base (by decide) hd'
  have hd : d ≠ 0 := by
    have hlast := Nat.getLast_digit_ne_zero 10 hn
    have hhead : (Nat.digits 10 n).getLast (by simpa using hnonempty) = d := by
      rw [← List.head_reverse hnonempty]
      simp [hds]
    rwa [hhead] at hlast
  refine ⟨d, ds, ?_, hd, hlt d (by simp), fun d' hd' => hlt d' (by simp [hd'])⟩
  rw [natText, if_neg hn, hds]
  rfl

/-- Whether or not a minus sign was read, a natural number is read as an integer. -/
theorem scan_natText {state : State} (h : state = .beginValue ∨ state = .minus) (n : ℕ) :
    ∃ m, scan ⟨state, stack⟩ (natText n) = some m ∧ AfterInteger stack m := by
  by_cases hn : n = 0
  · subst hn
    rcases h with rfl | rfl
    · exact ⟨_, rfl, afterInteger_zero⟩
    · exact ⟨_, rfl, afterInteger_zero⟩
  · obtain ⟨d, ds, htext, hd, hlt, hds⟩ := natText_of_pos hn
    have hfirst : step ⟨state, stack⟩ (digitByte d) = some ⟨.digits, stack⟩ := by
      rcases h with rfl | rfl
      · interval_cases d
        · exact absurd rfl hd
        all_goals rfl
      · interval_cases d
        · exact absurd rfl hd
        all_goals rfl
    refine ⟨⟨.digits, stack⟩, ?_, afterInteger_digits⟩
    rw [htext, scan, hfirst]
    exact scan_digits hds

/-- An integer is read as one value, which ends with the byte that follows. -/
theorem scan_itoa (n : Int) {c : UInt8} (hc : EndsNumber c) (rest : List UInt8) :
    scan ⟨.beginValue, stack⟩ (itoa n ++ c :: rest)
      = (afterValue stack c).bind fun m => scan m rest := by
  have hread : ∃ m, scan ⟨.beginValue, stack⟩ (itoa n) = some m ∧ AfterInteger stack m := by
    unfold itoa
    split
    · exact scan_natText (Or.inr rfl) n.natAbs
    · exact scan_natText (Or.inl rfl) n.natAbs
  obtain ⟨m, hm, hafter⟩ := hread
  rw [scan_append_of hm, scan, hafter c hc]

/-! ### Escaped zero characters -/

/-- In front of anything, the text neither is nor begins an escaped zero character. -/
def Quiet (xs : List UInt8) : Prop := ∀ ys, hasNulEscape (xs ++ ys) = hasNulEscape ys

theorem Quiet.append {xs ys : List UInt8} (hx : Quiet xs) (hy : Quiet ys) : Quiet (xs ++ ys) := by
  intro zs
  rw [List.append_assoc, hx, hy]

theorem Quiet.flatMap {α : Type} {f : α → List UInt8} {l : List α} (h : ∀ a ∈ l, Quiet (f a)) :
    Quiet (l.flatMap f) := by
  induction l with
  | nil => exact fun _ => rfl
  | cons a l ih =>
    rw [List.flatMap_cons]
    exact (h a (by simp)).append (ih fun b hb => h b (by simp [hb]))

theorem Quiet.hasNulEscape_eq {xs : List UInt8} (h : Quiet xs) : hasNulEscape xs = false := by
  have hnil := h []
  rwa [List.append_nil] at hnil

theorem hasNulEscape_cons {b : UInt8} (hb : b ≠ 0x5C) (ys : List UInt8) :
    hasNulEscape (b :: ys) = hasNulEscape ys := by
  cases ys with
  | nil => rfl
  | cons c ys => simp [hasNulEscape, hb]

theorem quiet_of_plain {xs : List UInt8} (h : (0x5C : UInt8) ∉ xs) : Quiet xs := by
  induction xs with
  | nil => exact fun _ => rfl
  | cons b xs ih =>
    rw [List.mem_cons, not_or] at h
    intro ys
    rw [List.cons_append, hasNulEscape_cons (Ne.symm h.1)]
    exact ih h.2 ys

theorem quiet_shortEscape {c : UInt8} (h : c ≠ 0x75) : Quiet [0x5C, c] := by
  intro ys
  simp [hasNulEscape, h]

theorem quiet_hexEscape {a b c d : UInt8} (hplain : (0x5C : UInt8) ∉ [a, b, c, d])
    (hzero : [a, b, c, d] ≠ text "0000") : Quiet [0x5C, 0x75, a, b, c, d] := by
  intro ys
  have htail : Quiet [a, b, c, d] := quiet_of_plain hplain
  have htake : ([a, b, c, d] ++ ys).take 4 = [a, b, c, d] := rfl
  have hrest := htail ys
  simp only [List.cons_append, List.nil_append] at htake hrest ⊢
  rw [hasNulEscape, htake, hrest]
  simp [hzero]

theorem quiet_unicodeEscape {b : UInt8} (hb : b ≠ 0) : Quiet (unicodeEscape b) := by
  have hfacts : ∀ b : UInt8, hexDigit (b >>> 4) ≠ 0x5C ∧ hexDigit (b &&& 0x0F) ≠ 0x5C
      ∧ (hexDigit (b >>> 4) = 0x30 → hexDigit (b &&& 0x0F) = 0x30 → b = 0) :=
    forall_byte (by decide +kernel)
  obtain ⟨hhigh, hlow, hzero⟩ := hfacts b
  apply quiet_hexEscape
  · simp [hhigh.symm, hlow.symm]
  · intro heq
    have htext : text "0000" = [0x30, 0x30, 0x30, 0x30] := rfl
    rw [htext] at heq
    simp only [List.cons.injEq, true_and, and_true] at heq
    exact hb (hzero heq.1 heq.2)

/-- A character other than the zero one. -/
theorem quiet_escapeAscii {b : UInt8} (hb : b ≠ 0) : Quiet (escapeAscii b) := by
  unfold escapeAscii
  repeat' split
  · rename_i h
    rcases h with rfl | rfl
    · exact quiet_shortEscape (by decide)
    · exact quiet_shortEscape (by decide)
  · exact quiet_shortEscape (by decide)
  · exact quiet_shortEscape (by decide)
  · exact quiet_shortEscape (by decide)
  · exact quiet_shortEscape (by decide)
  · exact quiet_shortEscape (by decide)
  · exact quiet_unicodeEscape hb
  · rename_i hquote _ _ _ _ _ _
    rw [not_or] at hquote
    exact quiet_of_plain (by simpa using Ne.symm hquote.2)

theorem quiet_escapeRune {bytes : List UInt8} {r : Rune} (h : r ∈ runes bytes) (hr : r ≠ .ascii 0) :
    Quiet (escapeRune r) := by
  cases r with
  | ascii b => exact quiet_escapeAscii fun hb => hr (by rw [hb])
  | wide bs =>
    simp only [escapeRune]
    repeat' split
    · exact quiet_hexEscape (by decide) (by decide)
    · exact quiet_hexEscape (by decide) (by decide)
    · apply quiet_of_plain
      intro hb
      exact absurd (high_of_wide h _ hb) (by decide)
  | bad b => exact quiet_hexEscape (by decide) (by decide)

theorem quiet_quote {bytes : List UInt8} (h : (0 : UInt8) ∉ bytes) : Quiet (quote bytes) := by
  have hrunes : ∀ r ∈ runes bytes, r ≠ .ascii 0 := by
    rintro r hr rfl
    apply h
    rw [← flatMap_bytes_runes bytes]
    exact List.mem_flatMap.2 ⟨_, hr, by simp [Rune.bytes]⟩
  have hopen : Quiet [0x22] := quiet_of_plain (by decide)
  exact (hopen.append (Quiet.flatMap fun r hr => quiet_escapeRune hr (hrunes r hr))).append hopen

/-- A zero byte is escaped as one. -/
theorem hasNulEscape_flatMap {bytes : List UInt8} {l : List Rune} (hl : ∀ r ∈ l, r ∈ runes bytes)
    (h : Rune.ascii 0 ∈ l) (rest : List UInt8) :
    hasNulEscape (l.flatMap escapeRune ++ rest) = true := by
  induction l with
  | nil => exact absurd h List.not_mem_nil
  | cons r l ih =>
    rw [List.flatMap_cons, List.append_assoc]
    by_cases hr : r = .ascii 0
    · subst hr
      rfl
    · -- what stands in front of the zero byte is no escaped zero character
      have hquiet := quiet_escapeRune (hl r List.mem_cons_self) hr (l.flatMap escapeRune ++ rest)
      rw [hquiet]
      rcases List.mem_cons.1 h with heq | h
      · exact absurd heq.symm hr
      · exact ih (fun r' hr' => hl r' (List.mem_cons_of_mem r hr')) h

theorem hasNulEscape_quote {bytes : List UInt8} (h : (0 : UInt8) ∈ bytes) (rest : List UInt8) :
    hasNulEscape (quote bytes ++ rest) = true := by
  have hrune : Rune.ascii 0 ∈ runes bytes := ascii_of_mem (by decide) h
  rw [quote, List.append_assoc, List.append_assoc, List.cons_append, hasNulEscape_cons (by decide),
    List.nil_append]
  exact hasNulEscape_flatMap (fun _ hr => hr) hrune _

theorem quiet_itoa (n : Int) : Quiet (itoa n) := by
  have hnat : ∀ m : ℕ, Quiet (natText m) := by
    intro m
    by_cases hm : m = 0
    · subst hm
      exact quiet_of_plain (by decide)
    · obtain ⟨d, ds, htext, -, hd, hds⟩ := natText_of_pos hm
      rw [htext]
      apply quiet_of_plain
      have hdigit : ∀ d < 10, digitByte d ≠ 0x5C := by decide
      intro hb
      rcases List.mem_cons.1 hb with hb | hb
      · exact hdigit d hd hb.symm
      · obtain ⟨d', hd', hb⟩ := List.mem_map.1 hb
        exact hdigit d' (hds d' hd') hb
  unfold itoa
  split
  · exact Quiet.append (quiet_of_plain (by decide) : Quiet [0x2D]) (hnat _)
  · exact hnat _

theorem quiet_boolText (b : Bool) : Quiet (boolText b) := by
  cases b with
  | true => exact quiet_of_plain (by decide)
  | false => exact quiet_of_plain (by decide)

end Json

import JobScheduler.Library.Json
import Mathlib.Data.List.DropRight

/-!
# What a JSON text says

What can be read back from an encoded text, and what a compacted one still says.

* `itoa_injective`, `quote_split` — an integer, and a string of valid UTF-8, can be read back; a string
  can be told from whatever follows it.
* `meaning` — a text up to white space between its tokens and up to the way its strings are escaped.
* `meaning_of_compact` — dropping the white space and escaping what HTML requires keeps the meaning.
-/

namespace Json

open Utf8

/-! ### Reading numbers back -/

/-- The value of decimal digits. -/
def value (digits : List UInt8) : ℕ := digits.foldl (fun n b => n * 10 + (b.toNat - 0x30)) 0

theorem toNat_digitByte {d : ℕ} (h : d < 10) : (digitByte d).toNat - 0x30 = d := by
  interval_cases d <;> rfl

theorem foldl_digitByte {ds : List ℕ} (h : ∀ d ∈ ds, d < 10) (n : ℕ) :
    (ds.map digitByte).foldl (fun n b => n * 10 + (b.toNat - 0x30)) n
      = ds.foldl (fun n d => n * 10 + d) n := by
  induction ds generalizing n with
  | nil => rfl
  | cons d ds ih =>
    rw [List.map_cons, List.foldl_cons, List.foldl_cons, toNat_digitByte (h d List.mem_cons_self)]
    exact ih (fun d' hd' => h d' (List.mem_cons_of_mem d hd')) _

theorem foldr_digits (ds : List ℕ) : ds.foldr (fun d n => n * 10 + d) 0 = Nat.ofDigits 10 ds := by
  induction ds with
  | nil => rfl
  | cons d ds ih =>
    rw [List.foldr_cons, ih, Nat.ofDigits_cons]
    omega

theorem value_natText (n : ℕ) : value (natText n) = n := by
  by_cases hn : n = 0
  · subst hn
    rfl
  · have htext : natText n = (Nat.digits 10 n).reverse.map digitByte := by
      rw [natText, if_neg hn]
      rfl
    have hlt : ∀ d ∈ (Nat.digits 10 n).reverse, d < 10 :=
      fun d hd => Nat.digits_lt_base (by decide) (List.mem_reverse.1 hd)
    rw [value, htext, foldl_digitByte hlt, List.foldl_reverse, foldr_digits, Nat.ofDigits_digits]

theorem natText_injective : Function.Injective natText :=
  Function.LeftInverse.injective value_natText

theorem isDigit_of_mem_natText {n : ℕ} {b : UInt8} (h : b ∈ natText n) : isDigit b = true := by
  by_cases hn : n = 0
  · subst hn
    obtain rfl := List.mem_singleton.1 h
    rfl
  · obtain ⟨d, ds, htext, -, hd, hds⟩ := natText_of_pos hn
    rw [htext] at h
    rcases List.mem_cons.1 h with rfl | h
    · exact isDigit_digitByte hd
    · obtain ⟨d', hd', rfl⟩ := List.mem_map.1 h
      exact isDigit_digitByte (hds d' hd')

theorem ne_minus_of_natText {n : ℕ} {xs : List UInt8} : natText n ≠ 0x2D :: xs := by
  intro h
  have hdigit : isDigit 0x2D = true := isDigit_of_mem_natText (h ▸ List.mem_cons_self)
  exact absurd hdigit (by decide)

theorem itoa_injective : Function.Injective itoa := by
  intro n m h
  simp only [itoa] at h
  split at h <;> split at h
  · have habs := natText_injective (List.cons.inj h).2
    omega
  · exact absurd h.symm ne_minus_of_natText
  · exact absurd h ne_minus_of_natText
  · have habs := natText_injective h
    omega

/-- The bytes of an integer. -/
theorem mem_itoa {n : Int} {b : UInt8} (h : b ∈ itoa n) : b = 0x2D ∨ isDigit b = true := by
  unfold itoa at h
  split at h
  · exact (List.mem_cons.1 h).imp_right isDigit_of_mem_natText
  · exact Or.inr (isDigit_of_mem_natText h)

/-- A natural number in decimal, with leading zeros up to a width. -/
def padText (width n : ℕ) : List UInt8 :=
  List.replicate (width - (natText n).length) 0x30 ++ natText n

theorem value_replicate_zero (k : ℕ) (digits : List UInt8) :
    value (List.replicate k 0x30 ++ digits) = value digits := by
  induction k with
  | zero => rfl
  | succ k ih => exact ih

theorem value_padText (width n : ℕ) : value (padText width n) = n := by
  rw [padText, value_replicate_zero, value_natText]

theorem isDigit_of_mem_padText {width n : ℕ} {b : UInt8} (h : b ∈ padText width n) :
    isDigit b = true := by
  rcases List.mem_append.1 h with h | h
  · rw [List.eq_of_mem_replicate h]
    rfl
  · exact isDigit_of_mem_natText h

/-! ### Telling the parts of a text apart -/

/-- What satisfies a condition, up to the first that does not. -/
theorem split_first {α : Type} {p : α → Prop} {xs ys s t : List α} {c d : α} (hx : ∀ b ∈ xs, p b)
    (hy : ∀ b ∈ ys, p b) (hc : ¬p c) (hd : ¬p d) (h : xs ++ c :: s = ys ++ d :: t) :
    xs = ys ∧ c = d ∧ s = t := by
  induction xs generalizing ys with
  | nil =>
    cases ys with
    | nil => exact ⟨rfl, List.cons.inj h⟩
    | cons y ys => exact absurd (hy c ((List.cons.inj h).1 ▸ List.mem_cons_self)) hc
  | cons x xs ih =>
    cases ys with
    | nil => exact absurd (hx d ((List.cons.inj h).1 ▸ List.mem_cons_self)) hd
    | cons y ys =>
      obtain ⟨rfl, hrest⟩ := List.cons.inj h
      obtain ⟨rfl, hsep⟩ := ih (fun b hb => hx b (List.mem_cons_of_mem x hb))
        (fun b hb => hy b (List.mem_cons_of_mem x hb)) hrest
      exact ⟨rfl, hsep⟩

/-- The last occurrence of a separator. -/
theorem split_last {α : Type} {c : α} {p q xs ys : List α} (hx : c ∉ xs) (hy : c ∉ ys)
    (h : p ++ c :: xs = q ++ c :: ys) : p = q ∧ xs = ys := by
  have hreverse := congrArg List.reverse h
  simp only [List.reverse_append, List.reverse_cons, List.append_assoc, List.singleton_append]
    at hreverse
  obtain ⟨hxs, -, hpq⟩ := split_first (p := fun b => b ≠ c)
    (fun b hb he => hx (he ▸ List.mem_reverse.1 hb)) (fun b hb he => hy (he ▸ List.mem_reverse.1 hb))
    (not_not_intro rfl) (not_not_intro rfl) hreverse
  exact ⟨List.reverse_injective hpq, List.reverse_injective hxs⟩

/-! ### Reading strings back -/

/-- The character of a two-byte escape. -/
def simpleEscape (c : UInt8) : UInt8 :=
  if c = 0x62 then 0x08 else if c = 0x66 then 0x0C else if c = 0x6E then 0x0A
  else if c = 0x72 then 0x0D else if c = 0x74 then 0x09 else c

/-- The value of a hexadecimal digit. -/
def hexValue (c : UInt8) : ℕ :=
  if c ≤ 0x39 then c.toNat - 0x30 else if c ≤ 0x46 then c.toNat - 0x37 else c.toNat - 0x57

/-- The piece an escape stands for. -/
def readEscape (code : List UInt8) : Rune :=
  if code = text "u2028" then .wide [0xE2, 0x80, 0xA8]
  else if code = text "u2029" then .wide [0xE2, 0x80, 0xA9]
  else
    match code with
    | [c] => .ascii (simpleEscape c)
    | [_, 0x30, 0x30, a, b] => .ascii (hexValue a * 16 + hexValue b).toUInt8
    | _ => .bad 0

/-- The piece that is encoded so. -/
def readRune (code : List UInt8) : Rune :=
  match code with
  | [] => .bad 0
  | b :: rest => if b = 0x5C then readEscape rest else if rest = [] then .ascii b else .wide code

theorem readRune_escapeAscii (b : UInt8) : readRune (escapeAscii b) = .ascii b := by
  revert b
  exact forall_byte (by decide +kernel)

theorem readRune_escapeRune {r : Rune} (h : r.WellFormed) (hchar : r.isChar = true) :
    readRune (escapeRune r) = r := by
  cases r with
  | ascii b => exact readRune_escapeAscii b
  | wide bs =>
    simp only [escapeRune]
    split
    · rename_i hsep
      subst hsep
      rfl
    · split
      · rename_i hsep
        subst hsep
        rfl
      · obtain ⟨b, c, rest, rfl⟩ := h.two_le
        have hb : b ≠ 0x5C := by
          rintro rfl
          exact absurd (h.high _ List.mem_cons_self) (by decide)
        simp [readRune, hb]
  | bad b => cases hchar

/-- The code of a bad byte stands for no character. -/
theorem escapeRune_injective {r r' : Rune} (h : r.WellFormed) (h' : r'.WellFormed)
    (hchar : r.isChar = true) (heq : escapeRune r = escapeRune r') : r = r' := by
  have hread := readRune_escapeRune h hchar
  cases hchar' : r'.isChar with
  | true => rw [← hread, heq, readRune_escapeRune h' hchar']
  | false =>
    cases r' with
    | bad b =>
      have hbad : readRune (escapeRune (.bad b)) = .bad 0 := rfl
      rw [heq, hbad] at hread
      rw [← hread] at hchar
      cases hchar
    | ascii b => cases hchar'
    | wide bs => cases hchar'

/-- A code is a backslash and one byte, a backslash, `u` and four bytes, or the piece itself. -/
inductive Coded (r : Rune) : List UInt8 → Prop where
  | short {c : UInt8} (h : c ≠ 0x75) : Coded r [0x5C, c]
  | long (a b c d : UInt8) : Coded r [0x5C, 0x75, a, b, c, d]
  | raw {b : UInt8} {bs : List UInt8} (hbytes : r.bytes = b :: bs) (hslash : b ≠ 0x5C)
      (hquote : b ≠ 0x22) (hfirst : ∀ rest, runes (r.bytes ++ rest) = r :: runes rest) :
      Coded r (b :: bs)

theorem coded_escapeAscii {b : UInt8} (h : b < 0x80) : Coded (.ascii b) (escapeAscii b) := by
  unfold escapeAscii
  repeat' split
  · rename_i hb
    rcases hb with rfl | rfl
    · exact .short (by decide)
    · exact .short (by decide)
  · exact .short (by decide)
  · exact .short (by decide)
  · exact .short (by decide)
  · exact .short (by decide)
  · exact .short (by decide)
  · exact .long _ _ _ _
  · rename_i hb _ _ _ _ _ _
    rw [not_or] at hb
    exact .raw rfl hb.2 hb.1 fun rest => runes_ascii h rest

theorem coded_escapeRune {r : Rune} (h : r.WellFormed) : Coded r (escapeRune r) := by
  cases r with
  | ascii b => exact coded_escapeAscii h
  | wide bs =>
    simp only [escapeRune]
    split
    · exact .long _ _ _ _
    · split
      · exact .long _ _ _ _
      · obtain ⟨b, c, rest, rfl⟩ := h.two_le
        have hb := h.high b List.mem_cons_self
        refine .raw rfl ?_ ?_ fun rest' => runes_wide h rest'
        · rintro rfl
          exact absurd hb (by decide)
        · rintro rfl
          exact absurd hb (by decide)
  | bad b => exact .long _ _ _ _

/-- A code can be told from whatever follows it. -/
theorem Coded.split {r r' : Rune} {xs ys s t : List UInt8} (h : Coded r xs) (h' : Coded r' ys)
    (heq : xs ++ s = ys ++ t) : xs = ys ∧ s = t := by
  cases h with
  | short hc =>
    cases h' with
    | short hc' => simpa using heq
    | long => exact absurd (by simpa using heq : _ ∧ _).1 hc
    | raw hbytes hslash => exact absurd (List.cons.inj heq).1.symm hslash
  | long =>
    cases h' with
    | short hc' => exact absurd (by simpa using heq.symm : _ ∧ _).1 hc'
    | long => simpa [and_assoc] using heq
    | raw hbytes hslash => exact absurd (List.cons.inj heq).1.symm hslash
  | raw hbytes hslash hquote hfirst =>
    cases h' with
    | short => exact absurd (List.cons.inj heq).1 hslash
    | long => exact absurd (List.cons.inj heq).1 hslash
    | raw hbytes' hslash' hquote' hfirst' =>
      -- both begin with their first character
      have hrunes := hfirst s
      rw [hbytes, heq, ← hbytes', hfirst' t] at hrunes
      obtain rfl := (List.cons.inj hrunes).1
      rw [← hbytes, ← hbytes'] at heq ⊢
      exact ⟨rfl, List.append_cancel_left heq⟩

theorem Coded.head_ne_quote {r : Rune} {xs s t : List UInt8} (h : Coded r xs) :
    xs ++ s ≠ 0x22 :: t := by
  intro heq
  cases h with
  | short => exact absurd (List.cons.inj heq).1 (by decide)
  | long => exact absurd (List.cons.inj heq).1 (by decide)
  | raw _ _ hquote => exact hquote (List.cons.inj heq).1

/-- Up to the closing quote, the codes are the same. -/
theorem codes_split {l l' : List Rune} {s t : List UInt8} (hl : ∀ r ∈ l, r.WellFormed)
    (hl' : ∀ r ∈ l', r.WellFormed)
    (h : l.flatMap escapeRune ++ 0x22 :: s = l'.flatMap escapeRune ++ 0x22 :: t) :
    l.map escapeRune = l'.map escapeRune ∧ s = t := by
  induction l generalizing l' with
  | nil =>
    cases l' with
    | nil => exact ⟨rfl, (List.cons.inj h).2⟩
    | cons r' l' =>
      rw [List.flatMap_cons, List.append_assoc] at h
      exact absurd h.symm (coded_escapeRune (hl' r' List.mem_cons_self)).head_ne_quote
  | cons r l ih =>
    rw [List.flatMap_cons, List.append_assoc] at h
    have hr := coded_escapeRune (hl r List.mem_cons_self)
    cases l' with
    | nil => exact absurd h hr.head_ne_quote
    | cons r' l' =>
      rw [List.flatMap_cons, List.append_assoc] at h
      obtain ⟨hcode, hrest⟩ := hr.split (coded_escapeRune (hl' r' List.mem_cons_self)) h
      obtain ⟨hcodes, hst⟩ := ih (fun r₁ h₁ => hl r₁ (List.mem_cons_of_mem r h₁))
        (fun r₁ h₁ => hl' r₁ (List.mem_cons_of_mem r' h₁)) hrest
      rw [List.map_cons, List.map_cons, hcode, hcodes]
      exact ⟨rfl, hst⟩

/-- A string of valid text can be read back, whatever follows it. -/
theorem quote_split {a b s t : List UInt8} (ha : Valid a) (h : quote a ++ s = quote b ++ t) :
    a = b ∧ s = t := by
  simp only [quote, List.append_assoc, List.nil_append, List.cons_append, List.cons.injEq,
    true_and] at h
  obtain ⟨hcodes, hst⟩ := codes_split (fun r hr => wellFormed_of_mem_runes hr)
    (fun r hr => wellFormed_of_mem_runes hr) h
  refine ⟨?_, hst⟩
  have hrunes : runes a = runes b := by
    have hlength : (runes a).length = (runes b).length := by simpa using congrArg List.length hcodes
    apply List.ext_getElem hlength
    intro i hi hi'
    have hchar := List.all_eq_true.1 (valid_iff_all_isChar.1 ha) _ (List.getElem_mem hi)
    apply escapeRune_injective (wellFormed_of_mem_runes (List.getElem_mem hi))
      (wellFormed_of_mem_runes (List.getElem_mem hi')) hchar
    have hget := congrArg (fun l => l[i]?) hcodes
    simpa [hi, hi'] using hget
  rw [← flatMap_bytes_runes a, hrunes, flatMap_bytes_runes]

/-! ### Compacting -/

/-- The machine is inside a string literal. -/
def State.inLiteral : State → Bool
  | .inString => true
  | .escape => true
  | .escapeHex _ => true
  | _ => false

/-- `U+2028` or `U+2029` begins: its escape. -/
def separatorEscape (c : UInt8) (rest : List UInt8) : Option (List UInt8) :=
  if c = 0xE2 ∧ rest.take 2 = [0x80, 0xA8] then some (text "\\u2028")
  else if c = 0xE2 ∧ rest.take 2 = [0x80, 0xA9] then some (text "\\u2029")
  else none

/-- A text without its white space, and with what HTML requires escaped.  `skip` bytes have already been
written as part of an escape. -/
def compactFrom (m : Machine) (skip : ℕ) : List UInt8 → Option (List UInt8)
  | [] => some []
  | c :: rest =>
    (step m c).bind fun m' =>
      match skip with
      | skip + 1 => compactFrom m' skip rest
      | 0 =>
        if c = 0x3C ∨ c = 0x3E ∨ c = 0x26 then
          (compactFrom m' 0 rest).map fun out => unicodeEscape c ++ out
        else
          match separatorEscape c rest with
          | some escape => (compactFrom m' 2 rest).map fun out => escape ++ out
          | none =>
            if isSpace c && !m.state.inLiteral then compactFrom m' 0 rest
            else (compactFrom m' 0 rest).map fun out => c :: out

/-- The compacted text; only JSON can be compacted. -/
def compact (doc : List UInt8) : Option (List UInt8) :=
  if valid doc then compactFrom ⟨.beginValue, []⟩ 0 doc else none

theorem exists_compactFrom {doc : List UInt8} {m m' : Machine} (h : scan m doc = some m') (skip : ℕ) :
    ∃ out, compactFrom m skip doc = some out := by
  induction doc generalizing m skip with
  | nil => exact ⟨[], rfl⟩
  | cons c rest ih =>
    obtain ⟨m₁, hstep, hrest⟩ := Option.bind_eq_some_iff.1 h
    simp only [compactFrom, hstep, Option.bind_some]
    cases skip with
    | succ skip => exact ih hrest skip
    | zero =>
      obtain ⟨out, hout⟩ := ih hrest 0
      obtain ⟨out₂, hout₂⟩ := ih hrest 2
      simp only [hout, hout₂, Option.map_some]
      repeat' split
      all_goals exact ⟨_, rfl⟩

theorem exists_compact {doc : List UInt8} (h : valid doc = true) : ∃ out, compact doc = some out := by
  have hscan := beq_iff_eq.1 h
  rw [scan_append] at hscan
  obtain ⟨m, hm, -⟩ := Option.bind_eq_some_iff.1 hscan
  rw [compact, if_pos h]
  exact exists_compactFrom hm 0

/-! ### The meaning of a text -/

/-- What a text is made of: the bytes outside of its strings, the bytes of their characters, and the
surrogates that were escaped. -/
inductive Token where
  | mark (b : UInt8)
  | char (b : UInt8)
  | surrogate (unit : ℕ)
  deriving DecidableEq

/-- Where in a text a byte is read. -/
inductive Mode where
  | outside
  | inside
  | escaped
  /-- Hexadecimal digits still to come, and the value of those read. -/
  | hex (left unit : ℕ)
  deriving DecidableEq

/-- A code unit that is no surrogate, in UTF-8. -/
def unitBytes (unit : ℕ) : List UInt8 :=
  if unit < 0x80 then [unit.toUInt8]
  else if unit < 0x800 then [(0xC0 + unit / 64).toUInt8, (0x80 + unit % 64).toUInt8]
  else [(0xE0 + unit / 4096).toUInt8, (0x80 + unit / 64 % 64).toUInt8, (0x80 + unit % 64).toUInt8]

/-- A pair of surrogates, in UTF-8. -/
def pairBytes (high low : ℕ) : List UInt8 :=
  let point := 0x10000 + (high - 0xD800) * 0x400 + (low - 0xDC00)
  [(0xF0 + point / 262144).toUInt8, (0x80 + point / 4096 % 64).toUInt8,
    (0x80 + point / 64 % 64).toUInt8, (0x80 + point % 64).toUInt8]

def unitTokens (unit : ℕ) : List Token :=
  if 0xD800 ≤ unit ∧ unit < 0xE000 then [.surrogate unit] else (unitBytes unit).map .char

/-- One byte: where the next one is read, and what it says.  White space between tokens says nothing. -/
def Mode.next : Mode → UInt8 → Mode × List Token
  | .outside, c =>
    if isSpace c then (.outside, [])
    else if c = 0x22 then (.inside, [.mark c])
    else (.outside, [.mark c])
  | .inside, c =>
    if c = 0x22 then (.outside, [.mark c])
    else if c = 0x5C then (.escaped, [])
    else (.inside, [.char c])
  | .escaped, c => if c = 0x75 then (.hex 4 0, []) else (.inside, [.char (simpleEscape c)])
  | .hex left unit, c =>
    if left ≤ 1 then (.inside, unitTokens (unit * 16 + hexValue c))
    else (.hex (left - 1) (unit * 16 + hexValue c), [])

def tokens (mode : Mode) : List UInt8 → List Token
  | [] => []
  | c :: rest => (mode.next c).2 ++ tokens (mode.next c).1 rest

/-- A high surrogate and the low one behind it are one character. -/
def joinSurrogates : List Token → List Token
  | .surrogate high :: .surrogate low :: rest =>
    if high < 0xDC00 ∧ 0xDC00 ≤ low then (pairBytes high low).map .char ++ joinSurrogates rest
    else .surrogate high :: joinSurrogates (.surrogate low :: rest)
  | token :: rest => token :: joinSurrogates rest
  | [] => []

/-- What a text says, whatever its white space and the escapes of its strings. -/
def meaning (doc : List UInt8) : List Token := joinSurrogates (tokens .outside doc)

/-! ### Compacting keeps the meaning -/

/-- The mode of a machine. -/
def State.Reads : State → Mode → Prop
  | .inString, mode => mode = .inside
  | .escape, mode => mode = .escaped
  | .escapeHex left, mode => ∃ unit, mode = .hex left unit
  | .literal rest, mode => mode = .outside ∧ ∀ b ∈ rest, 0x61 ≤ b ∧ b ≤ 0x7A
  | _, mode => mode = .outside

theorem next_outside {c : UInt8} (h : c ≠ 0x22) : (Mode.next .outside c).1 = .outside := by
  simp only [Mode.next, if_neg h]
  split
  · rfl
  · rfl

variable {m m' : Machine} {c : UInt8} {mode : Mode}

/-- A value or a member name ends: the machine is outside of strings. -/
theorem reads_afterValue (h : afterValue stack c = some m') : m'.state.Reads .outside := by
  unfold afterValue at h
  repeat' split at h
  all_goals cases h
  all_goals rfl

theorem lower_of_all {rest : List UInt8}
    (h : rest.all (fun b => decide (0x61 ≤ b) && decide (b ≤ 0x7A)) = true) :
    ∀ b ∈ rest, 0x61 ≤ b ∧ b ≤ 0x7A := by
  simpa using h

theorem reads_startValue (hc : c ≠ 0x22) (h : startValue stack c = some m') :
    m'.state.Reads .outside := by
  unfold startValue at h
  rw [if_neg hc] at h
  repeat' split at h
  all_goals cases h
  all_goals first
    | rfl
    | exact ⟨rfl, lower_of_all (by decide)⟩

theorem reads_startString (hc : c ≠ 0x22) (h : startString stack c = some m') :
    m'.state.Reads .outside := by
  unfold startString at h
  rw [if_neg hc] at h
  split at h
  all_goals cases h
  rfl

/-- Outside of strings, a byte other than a quote does not begin one. -/
theorem reads_outside (hm : m.state.Reads .outside) (hc : c ≠ 0x22) (h : step m c = some m') :
    m'.state.Reads .outside := by
  obtain ⟨state, stack⟩ := m
  cases state with
  | inString => cases hm
  | escape => cases hm
  | escapeHex left =>
    obtain ⟨unit, hmode⟩ := hm
    cases hmode
  | literal rest =>
    cases rest with
    | nil => cases h
    | cons x rest =>
      cases rest with
      | nil =>
        simp only [step] at h
        split at h
        all_goals cases h
        rfl
      | cons y rest =>
        simp only [step] at h
        split at h
        all_goals cases h
        exact ⟨rfl, fun b hb => hm.2 b (List.mem_cons_of_mem x hb)⟩
  | beginValue => exact reads_startValue hc h
  | beginString => exact reads_startString hc h
  | endValue => exact reads_afterValue h
  | beginValueOrEmpty =>
    simp only [step] at h
    split at h
    · cases h
      rfl
    · split at h
      · cases h
        rfl
      · exact reads_startValue hc h
  | beginStringOrEmpty =>
    simp only [step] at h
    split at h
    · cases h
      rfl
    · split at h
      · cases h
        rfl
      · exact reads_startString hc h
  | _ =>
    -- inside of a number, the next byte goes on with it or ends it
    simp only [step] at h
    repeat' split at h
    all_goals first
      | exact reads_afterValue h
      | (cases h; rfl)
      | cases h

/-- Outside of strings, a quote begins one. -/
theorem reads_quote (hm : m.state.Reads .outside) (h : step m 0x22 = some m') :
    m'.state = .inString := by
  have hspace : isSpace 0x22 = false := by decide
  have hdigit : isDigit 0x22 = false := by decide
  have hafter : ∀ stack, afterValue stack 0x22 = none := by
    intro stack
    cases stack with
    | nil => rfl
    | cons frame stack => cases frame <;> rfl
  obtain ⟨state, stack⟩ := m
  cases state with
  | inString => cases hm
  | escape => cases hm
  | escapeHex left =>
    obtain ⟨unit, hmode⟩ := hm
    cases hmode
  | literal rest =>
    cases rest with
    | nil => cases h
    | cons x rest =>
      have hx : (0x22 : UInt8) ≠ x := by
        rintro rfl
        exact absurd (hm.2 0x22 List.mem_cons_self).1 (by decide)
      cases rest with
      | nil => simp [step, hx] at h
      | cons y rest => simp [step, hx] at h
  | _ =>
    simp [step, startValue, startString, hspace, hdigit, hafter] at h
    try rw [← h]

/-- The modes follow the machine. -/
theorem reads_step (hm : m.state.Reads mode) (h : step m c = some m') :
    m'.state.Reads (mode.next c).1 := by
  by_cases hout : mode = .outside
  · subst hout
    by_cases hc : c = 0x22
    · subst hc
      rw [reads_quote hm h]
      rfl
    · rw [next_outside hc]
      exact reads_outside hm hc h
  · obtain ⟨state, stack⟩ := m
    cases state with
    | inString =>
      obtain rfl : mode = .inside := hm
      simp only [step] at h
      simp only [Mode.next]
      repeat' split at h
      all_goals cases h
      all_goals simp [*, State.Reads]
    | escape =>
      obtain rfl : mode = .escaped := hm
      simp only [step] at h
      simp only [Mode.next]
      split at h
      · cases h
        have hu : c ≠ 0x75 := by
          rintro rfl
          exact absurd ‹_ ∈ _› (by decide)
        rw [if_neg hu]
        rfl
      · split at h
        · cases h
          rw [if_pos ‹_›]
          exact ⟨0, rfl⟩
        · cases h
    | escapeHex left =>
      obtain ⟨unit, rfl⟩ := hm
      simp only [step] at h
      simp only [Mode.next]
      split at h
      · split at h
        · cases h
          rw [if_pos ‹_›]
          rfl
        · cases h
          rw [if_neg ‹_›]
          exact ⟨_, rfl⟩
      · cases h
    | literal rest => exact absurd hm.1 hout
    | _ => exact absurd hm hout

/-- The bytes that are escaped; outside of strings JSON has none of them. -/
def Foreign (c : UInt8) : Prop := c = 0x3C ∨ c = 0x3E ∨ c = 0x26 ∨ c = 0xE2

theorem Foreign.plain (hc : Foreign c) : isSpace c = false ∧ isDigit c = false ∧ isHex c = false
    ∧ c ∉ text "bfnrt\\/\"" ∧ ¬(0x61 ≤ c ∧ c ≤ 0x7A) ∧ ¬c < 0x20
    ∧ c ∉ [0x22, 0x2B, 0x2C, 0x2D, 0x2E, 0x30, 0x3A, 0x45, 0x5B, 0x5C, 0x5D, 0x65, 0x66, 0x6E, 0x74,
      0x75, 0x7B, 0x7D] := by
  rcases hc with rfl | rfl | rfl | rfl <;> decide

theorem inString_of_foreign (hm : m.state.Reads mode) (hc : Foreign c) (h : step m c = some m') :
    m.state = .inString ∧ m' = m := by
  obtain ⟨hspace, hdigit, hhex, hescape, hlower, hlow, hmark⟩ := hc.plain
  simp only [List.mem_cons, List.not_mem_nil, or_false, not_or] at hmark
  have hafter : ∀ stack, afterValue stack c = none := by
    intro stack
    cases stack with
    | nil => simp [afterValue, hspace]
    | cons frame stack => cases frame <;> simp [afterValue, hspace, hmark]
  obtain ⟨state, stack⟩ := m
  cases state with
  | inString =>
    rw [step_inString_of_plain hmark.1 (by simp [hmark]) hlow] at h
    exact ⟨rfl, (Option.some.inj h).symm⟩
  | literal rest =>
    cases rest with
    | nil => cases h
    | cons x rest =>
      have hx : c ≠ x := by
        rintro rfl
        exact hlower (hm.2 c List.mem_cons_self)
      cases rest with
      | nil => simp [step, hx] at h
      | cons y rest => simp [step, hx] at h
  | _ => simp [step, startValue, startString, hspace, hdigit, hhex, hescape, hmark, hafter] at h

/-! The escapes say what they stand for. -/

theorem tokens_unicodeEscape (hc : c = 0x3C ∨ c = 0x3E ∨ c = 0x26) (rest : List UInt8) :
    tokens .inside (unicodeEscape c ++ rest) = .char c :: tokens .inside rest := by
  rcases hc with rfl | rfl | rfl <;> rfl

theorem tokens_separatorEscape {rest escape : List UInt8} (h : separatorEscape c rest = some escape)
    (out : List UInt8) : c = 0xE2 ∧ ∃ last rest', rest = 0x80 :: last :: rest' ∧ ¬last < 0x80 ∧
      tokens .inside (escape ++ out) = [.char c, .char 0x80, .char last] ++ tokens .inside out := by
  have hsplit : ∀ {last : UInt8}, rest.take 2 = [0x80, last] → rest = 0x80 :: last :: rest.drop 2 := by
    intro last hrest
    calc rest = rest.take 2 ++ rest.drop 2 := (List.take_append_drop 2 rest).symm
      _ = _ := by rw [hrest]; rfl
  unfold separatorEscape at h
  split at h
  · rename_i hsep
    obtain ⟨rfl, hrest⟩ := hsep
    obtain rfl := Option.some.inj h
    exact ⟨rfl, 0xA8, _, hsplit hrest, by decide, rfl⟩
  · split at h
    · rename_i hsep
      obtain ⟨rfl, hrest⟩ := hsep
      obtain rfl := Option.some.inj h
      exact ⟨rfl, 0xA9, _, hsplit hrest, by decide, rfl⟩
    · cases h

/-- A plain byte of a string. -/
theorem tokens_inside (hquote : c ≠ 0x22) (hslash : c ≠ 0x5C) (rest : List UInt8) :
    tokens .inside (c :: rest) = .char c :: tokens .inside rest := by
  simp only [tokens, Mode.next, if_neg hquote, if_neg hslash, List.singleton_append]

theorem high_ne {b : UInt8} (h : ¬b < 0x80) : b ≠ 0x22 ∧ b ≠ 0x5C ∧ ¬b < 0x20 := by
  refine ⟨?_, ?_, fun hlow => h (UInt8.lt_of_lt_of_le hlow (by decide))⟩
  · rintro rfl
    exact h (by decide)
  · rintro rfl
    exact h (by decide)

theorem outside_of_not_inLiteral {state : State} (h : state.Reads mode)
    (hout : state.inLiteral = false) : mode = .outside := by
  cases state with
  | inString => cases hout
  | escape => cases hout
  | escapeHex left => cases hout
  | literal rest => exact h.1
  | _ => exact h

/-- The induction is on the text.  Where bytes are still to be skipped, the machine is in a string and
they are high, so it stays there. -/
theorem tokens_compactFrom {doc out : List UInt8} {skip : ℕ} (hm : m.state.Reads mode)
    (hskip : skip ≠ 0 → m.state = .inString ∧ ∀ b ∈ doc.take skip, ¬b < 0x80)
    (h : compactFrom m skip doc = some out) : tokens mode out = tokens mode (doc.drop skip) := by
  induction doc generalizing m mode skip out with
  | nil =>
    obtain rfl := Option.some.inj h
    rw [List.drop_nil]
  | cons c rest ih =>
    obtain ⟨m', hstep, h⟩ := Option.bind_eq_some_iff.1 h
    cases skip with
    | succ skip =>
      obtain ⟨hstate, hhigh⟩ := hskip (Nat.succ_ne_zero skip)
      obtain ⟨hquote, hslash, hlow⟩ := high_ne (hhigh c List.mem_cons_self)
      obtain rfl : m' = m := by
        obtain ⟨state, stack⟩ := m
        subst hstate
        rw [step_inString_of_plain hquote hslash hlow] at hstep
        exact (Option.some.inj hstep).symm
      exact ih hm (fun _ => ⟨hstate, fun b hb => hhigh b (List.mem_cons_of_mem c hb)⟩) h
    | zero =>
      simp only at h
      split at h
      · rename_i hhtml
        obtain ⟨out', hout', rfl⟩ := Option.map_eq_some_iff.1 h
        have hforeign : Foreign c := hhtml.imp_right (Or.imp_right Or.inl)
        obtain ⟨hstate, rfl⟩ := inString_of_foreign hm hforeign hstep
        obtain rfl : mode = .inside := by rwa [hstate] at hm
        have hne : c ≠ 0x22 ∧ c ≠ 0x5C := by rcases hhtml with rfl | rfl | rfl <;> decide
        rw [tokens_unicodeEscape hhtml, ih hm (fun hzero => absurd rfl hzero) hout', List.drop_zero,
          List.drop_zero, tokens_inside hne.1 hne.2]
      · split at h
        · rename_i escape hescape
          obtain ⟨out', hout', rfl⟩ := Option.map_eq_some_iff.1 h
          obtain ⟨rfl, last, rest', rfl, hlast, htokens⟩ := tokens_separatorEscape hescape out'
          obtain ⟨hstate, rfl⟩ := inString_of_foreign hm (Or.inr (Or.inr (Or.inr rfl))) hstep
          obtain rfl : mode = .inside := by rwa [hstate] at hm
          have hrest := ih hm (fun _ => ⟨hstate, ?_⟩) hout'
          · rw [htokens, hrest]
            obtain ⟨hquote, hslash, -⟩ := high_ne hlast
            simp only [List.drop_zero, List.drop_succ_cons]
            rw [tokens_inside (by decide) (by decide), tokens_inside (by decide) (by decide),
              tokens_inside hquote hslash]
            rfl
          · intro b hb
            simp only [List.take_succ_cons, List.take_zero, List.mem_cons, List.not_mem_nil,
              or_false] at hb
            rcases hb with rfl | rfl
            · decide
            · exact hlast
        · split at h
          · rename_i hspace
            rw [Bool.and_eq_true, Bool.not_eq_true'] at hspace
            obtain rfl := outside_of_not_inLiteral hm hspace.2
            have hnext : Mode.next .outside c = (.outside, []) := if_pos hspace.1
            have hm' := reads_step hm hstep
            rw [hnext] at hm'
            rw [ih hm' (fun hzero => absurd rfl hzero) h, List.drop_zero, List.drop_zero, tokens, hnext]
            rfl
          · obtain ⟨out', hout', rfl⟩ := Option.map_eq_some_iff.1 h
            have hrest := ih (reads_step hm hstep) (fun hzero => absurd rfl hzero) hout'
            rw [List.drop_zero] at hrest ⊢
            simp only [tokens, hrest]

theorem meaning_of_compact {doc out : List UInt8} (h : compact doc = some out) :
    meaning out = meaning doc := by
  unfold compact at h
  split at h
  · have hstart : State.Reads .beginValue .outside := rfl
    have htokens := tokens_compactFrom (m := ⟨.beginValue, []⟩) hstart (fun hzero => absurd rfl hzero) h
    rw [meaning, htokens]
    rfl
  · cases h

/-- White space between the tokens, and another escape of the same character. -/
example : meaning (text "\x7b \"a\" : \"\\u003C\"\x7d") = meaning (text "\x7b\"a\":\"<\"\x7d") := by
  decide +kernel

end Json

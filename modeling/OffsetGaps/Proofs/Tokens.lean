/-
# Tokens read back

A token is written as its text: strings are escaped, numbers keep their
literal. Whatever stands behind it and whatever white space stands in front,
the first token of the text is that token and the rest is left over. Only a
number needs an end: it must not be followed by a character that would make
its literal longer (`endsNumber`).

A character of a string may stand for itself or be escaped by a letter, by its
code unit or by a surrogate pair, with hexadecimal digits of either case
(`Json.CharText`). Each of these is scanned as the character; the writer uses
one of them.

Scanning a number is local: what was scanned of a text is scanned of every
longer text, if the first character that is added ends a number.

Key definitions: `Json.CharText`, `Token.text`, `Token.Valid`,
`Json.endsNumber`.
Key theorems: `Json.scanString_charText`, `Json.scanString_escaped`,
`Json.scanNumber_local`, `Json.isNumberLiteral_write`,
`Json.nextToken_blanks`, `Json.nextToken_text`, `Json.length_of_nextToken`.
-/
import OffsetGaps.Proofs.Lines

namespace OffsetGaps

/-! ### Strings -/

namespace Quoted

/-- Four hexadecimal digits of a code unit. -/
theorem hex_four {u : ℕ} (hu : u < 0x10000) :
    hex 4 u = [Nat.digitChar (u / 0x1000), Nat.digitChar (u / 0x100 % 0x10),
      Nat.digitChar (u / 0x10 % 0x10), Nat.digitChar (u % 0x10)] := by
  have hdigits (n : ℕ) := @Nat.toDigits_eq_if 0x10 n (by decide)
  have hzero : Nat.digitChar 0 = '0' := rfl
  by_cases h1 : u < 0x10
  · have h : u / 0x1000 = 0 ∧ u / 0x100 = 0 ∧ u / 0x10 = 0 ∧ u % 0x10 = u := by omega
    simp [hex, hdigits, h1, h, hzero]
  by_cases h2 : u / 0x10 < 0x10
  · have h : u / 0x1000 = 0 ∧ u / 0x100 = 0 ∧ u / 0x10 % 0x10 = u / 0x10 := by omega
    simp [hex, hdigits u, hdigits (u / 0x10), h1, h2, h, hzero]
  by_cases h3 : u / 0x100 < 0x10
  · have h : u / 0x1000 = 0 ∧ u / 0x100 % 0x10 = u / 0x100 := by omega
    simp [hex, hdigits u, hdigits (u / 0x10), hdigits (u / 0x100), Nat.div_div_eq_div_mul,
      h1, h2, h3, h, hzero]
  · have h4 : u / 0x1000 < 0x10 := by omega
    simp [hex, hdigits u, hdigits (u / 0x10), hdigits (u / 0x100), hdigits (u / 0x1000),
      Nat.div_div_eq_div_mul, h1, h2, h3, h4]

end Quoted

namespace Json

/-- Characters and the letters that stand for them behind a backslash. -/
def letterEscapes : List (Char × Char) :=
  [('"', '"'), ('\\', '\\'), ('/', '/'), ('\x08', 'b'), ('\x0c', 'f'), ('\n', 'n'), ('\r', 'r'),
    ('\t', 't')]

/-- A code unit in four hexadecimal digits, of either case. -/
def HexUnit (u : ℕ) (digits : List Char) : Prop :=
  u < 0x10000 ∧ digits.map Char.toLower = Quoted.hex 4 u

/-- The texts that stand for a character inside a string. -/
inductive CharText : Char → List Char → Prop where
  | plain {c : Char} (hquote : c ≠ '"') (hslash : c ≠ '\\') (hcontrol : ¬ c.toNat < 0x20) :
    CharText c [c]
  | letter {c letter : Char} (h : (c, letter) ∈ letterEscapes) : CharText c ['\\', letter]
  | unit {c : Char} {digits : List Char} (h : HexUnit c.toNat digits) :
    CharText c ('\\' :: 'u' :: digits)
  /-- A character beyond the code units, as a surrogate pair. -/
  | pair {c : Char} {high low : List Char} (hc : 0x10000 ≤ c.toNat)
    (hhigh : HexUnit (0xD800 + (c.toNat - 0x10000) / 0x400) high)
    (hlow : HexUnit (0xDC00 + (c.toNat - 0x10000) % 0x400) low) :
    CharText c ('\\' :: 'u' :: high ++ '\\' :: 'u' :: low)

theorem hexValue_digitChar : ∀ d < 0x10, hexValue? (Nat.digitChar d) = some d := by decide

theorem hexValue4_hex {u : ℕ} (hu : u < 0x10000) :
    ∃ a b c d, Quoted.hex 4 u = [a, b, c, d] ∧ hexValue4? a b c d = some u := by
  refine ⟨_, _, _, _, Quoted.hex_four hu, ?_⟩
  have hvalue : ((u / 0x1000 * 16 + u / 0x100 % 0x10) * 16 + u / 0x10 % 0x10) * 16 + u % 0x10 = u := by
    omega
  simp [hexValue4?, hexValue_digitChar _ (show u / 0x1000 < 0x10 by omega),
    hexValue_digitChar _ (show u / 0x100 % 0x10 < 0x10 by omega),
    hexValue_digitChar _ (show u / 0x10 % 0x10 < 0x10 by omega),
    hexValue_digitChar _ (show u % 0x10 < 0x10 by omega), hvalue]

theorem hexValue_toLower (c : Char) : hexValue? c.toLower = hexValue? c := by
  have hcapital : ∀ n < 0x5B, hexValue? (Char.ofNat n).toLower = hexValue? (Char.ofNat n) := by
    decide
  by_cases hc : c.toNat < 0x5B
  · have hvalue := hcapital c.toNat hc
    rwa [Char.ofNat_toNat] at hvalue
  · have hupper : ¬ (c.val ≥ 'A'.val ∧ c.val ≤ 'Z'.val) := by
      rintro ⟨-, hle⟩
      exact hc (Nat.lt_succ_of_le hle)
    have hsame : c.toLower = c := dif_neg hupper
    rw [hsame]

theorem hexValue4_of_hexUnit {u : ℕ} {digits : List Char} (h : HexUnit u digits) :
    ∃ a b c d, digits = [a, b, c, d] ∧ hexValue4? a b c d = some u := by
  obtain ⟨hu, hdigits⟩ := h
  obtain ⟨a', b', c', d', hhex, hvalue⟩ := hexValue4_hex hu
  rw [hhex] at hdigits
  obtain ⟨a, b, c, d, rfl⟩ : ∃ a b c d, digits = [a, b, c, d] := by
    apply List.length_eq_four.mp
    rw [← List.length_map Char.toLower, hdigits]
    rfl
  refine ⟨a, b, c, d, rfl, ?_⟩
  simp only [List.map_cons, List.map_nil, List.cons.injEq, and_true] at hdigits
  obtain ⟨rfl, rfl, rfl, rfl⟩ := hdigits
  simpa only [hexValue4?, hexValue_toLower] using hvalue

/-- An escaped code unit is taken in. -/
theorem scanString_unit {u : ℕ} {digits : List Char} (h : HexUnit u digits) (waiting : Option ℕ)
    (done rest : List Char) :
    scanString waiting done ('\\' :: 'u' :: digits ++ rest) =
      scanString (takeUnit waiting done u).1 (takeUnit waiting done u).2 rest := by
  obtain ⟨a, b, c, d, rfl, hvalue⟩ := hexValue4_of_hexUnit h
  show scanString waiting done ('\\' :: 'u' :: a :: b :: c :: d :: rest) = _
  rw [scanString]
  simp only [hvalue]

theorem toNat_bounds (c : Char) : c.toNat < 0xD800 ∨ 0xDFFF < c.toNat ∧ c.toNat < 0x110000 :=
  c.valid

/-- A character is no half of a surrogate pair. -/
theorem takeUnit_toNat (c : Char) (done : List Char) :
    takeUnit none done c.toNat = (none, c :: done) := by
  have hbounds := toNat_bounds c
  have hhigh : isHighSurrogate c.toNat = false := by
    simp only [isHighSurrogate, Bool.and_eq_false_imp, decide_eq_true_eq, decide_eq_false_iff_not]
    omega
  have hlow : isLowSurrogate c.toNat = false := by
    simp only [isLowSurrogate, Bool.and_eq_false_imp, decide_eq_true_eq, decide_eq_false_iff_not]
    omega
  simp [takeUnit, hhigh, hlow]

/-- The two halves of a surrogate pair make up its character. -/
theorem takeUnit_pair {c : Char} (hc : 0x10000 ≤ c.toNat) {high low : ℕ}
    (hhigh : high = 0xD800 + (c.toNat - 0x10000) / 0x400)
    (hlow : low = 0xDC00 + (c.toNat - 0x10000) % 0x400) (done : List Char) :
    takeUnit none done high = (some high, done) ∧
      takeUnit (some high) done low = (none, c :: done) := by
  have hbounds := toNat_bounds c
  have hfirst : isHighSurrogate high = true := by
    simp only [isHighSurrogate, Bool.and_eq_true, decide_eq_true_eq]
    omega
  have hsecond : isLowSurrogate low = true := by
    simp only [isLowSurrogate, Bool.and_eq_true, decide_eq_true_eq]
    omega
  have hjoin : 0x10000 + (high - 0xD800) * 0x400 + (low - 0xDC00) = c.toNat := by omega
  simp [takeUnit, hfirst, hsecond, hjoin]

/-- **Every spelling of a character is scanned as the character.** -/
theorem scanString_charText {c : Char} {cs : List Char} (h : CharText c cs)
    (done rest : List Char) :
    scanString none done (cs ++ rest) = scanString none (c :: done) rest := by
  cases h with
  | plain hquote hslash hcontrol =>
    rw [List.singleton_append, scanString.eq_5 none done c rest hquote
      (fun _ _ _ _ _ hc _ => hslash hc) (fun _ _ hc _ => hslash hc), if_neg hcontrol]
    rfl
  | letter h =>
    simp only [letterEscapes, List.mem_cons, Prod.mk.injEq, List.not_mem_nil, or_false] at h
    rcases h with ⟨rfl, rfl⟩ | ⟨rfl, rfl⟩ | ⟨rfl, rfl⟩ | ⟨rfl, rfl⟩ | ⟨rfl, rfl⟩ | ⟨rfl, rfl⟩ |
      ⟨rfl, rfl⟩ | ⟨rfl, rfl⟩ <;> rfl
  | unit h => rw [scanString_unit h, takeUnit_toNat]
  | pair hc hhigh hlow =>
    obtain ⟨hwait, hjoin⟩ := takeUnit_pair hc rfl rfl done
    rw [List.append_assoc, scanString_unit hhigh, hwait, scanString_unit hlow, hjoin]

theorem charText_escape (c : Char) : CharText c (escape c) := by
  unfold escape
  split_ifs with hmark hfeed hreturn htab hback hform hcode
  · rcases hmark with rfl | rfl <;> exact .letter (by decide)
  · rw [hfeed]; exact .letter (by decide)
  · rw [hreturn]; exact .letter (by decide)
  · rw [htab]; exact .letter (by decide)
  · obtain rfl : c = '\x08' := Char.toNat_inj.mp hback
    exact .letter (by decide)
  · obtain rfl : c = '\x0c' := Char.toNat_inj.mp hform
    exact .letter (by decide)
  · have hunit : c.toNat < 0x10000 := by
      simp only [← Char.toNat_inj] at hcode
      have hcase : c.toNat < 0x20 ∨ c.toNat = 0x3C ∨ c.toNat = 0x3E ∨ c.toNat = 0x26 ∨
          c.toNat = 0x2028 ∨ c.toNat = 0x2029 := hcode
      omega
    have hlower : ∀ d < 0x10, (Nat.digitChar d).toLower = Nat.digitChar d := by decide
    refine .unit ⟨hunit, ?_⟩
    rw [Quoted.hex_four hunit]
    simp only [List.map_cons, List.map_nil]
    rw [hlower _ (by omega), hlower _ (by omega), hlower _ (by omega), hlower _ (by omega)]
  · rw [not_or] at hmark hcode
    exact .plain hmark.1 hmark.2 hcode.1

theorem scanString_escape (c : Char) (done rest : List Char) :
    scanString none done (escape c ++ rest) = scanString none (c :: done) rest :=
  scanString_charText (charText_escape c) done rest

theorem scanString_escaped (cs done rest : List Char) :
    scanString none done (cs.flatMap escape ++ '"' :: rest) = some (done.reverse ++ cs, rest) := by
  induction cs generalizing done with
  | nil => simp [scanString, settle]
  | cons c cs ih =>
    rw [List.flatMap_cons, List.append_assoc, scanString_escape, ih]
    simp

theorem length_of_scanString {waiting : Option ℕ} {done cs s rest : List Char}
    (h : scanString waiting done cs = some (s, rest)) : rest.length < cs.length := by
  fun_induction scanString waiting done cs with
  | case1 => cases h
  | case2 => cases h; simp
  | case3 _ _ _ _ _ _ _ _ _ _ _ _ ih => have := ih h; simp only [List.length_cons]; omega
  | case4 => cases h
  | case5 _ _ _ _ _ _ _ ih => have := ih h; simp only [List.length_cons]; omega
  | case6 => cases h
  | case7 => cases h
  | case8 _ _ _ _ _ _ _ _ ih => have := ih h; simp only [List.length_cons]; omega

/-! ### Numbers -/

/-- Whether a number has ended before this text: the text does not start with
a character that a literal may go on with. -/
def endsNumber : List Char → Bool
  | [] => true
  | c :: _ => !(c.isDigit || c == '.' || c == 'e' || c == 'E')

theorem digits_append {rest : List Char} (hrest : endsNumber rest = true) (cs : List Char) :
    (cs ++ rest).takeWhile Char.isDigit = cs.takeWhile Char.isDigit ∧
      (cs ++ rest).dropWhile Char.isDigit = cs.dropWhile Char.isDigit ++ rest := by
  induction cs with
  | nil =>
    cases rest with
    | nil => exact ⟨rfl, rfl⟩
    | cons c rest =>
      have hc : c.isDigit = false := by
        simp only [endsNumber, Bool.not_eq_true', Bool.or_eq_false_iff] at hrest
        exact hrest.1.1.1
      simp [hc]
  | cons c cs ih => by_cases hc : c.isDigit = true <;> simp [hc, ih]

section Locality

variable {literal cs out tail : List Char}

/-- The digits of an exponent stand behind its sign, if it has one. -/
theorem scanExponent_signed {e c : Char} (he : e = 'e' ∨ e = 'E') (literal cs : List Char) :
    ∃ sign digits, c :: cs = sign ++ digits ∧ ∀ rest,
      scanExponent literal (e :: c :: cs ++ rest) =
        if ((digits ++ rest).takeWhile Char.isDigit).isEmpty then none
        else some (literal ++ e :: sign ++ (digits ++ rest).takeWhile Char.isDigit,
          (digits ++ rest).dropWhile Char.isDigit) := by
  obtain rfl | hplus := eq_or_ne c '+'
  · exact ⟨['+'], cs, rfl, fun rest => by simp [scanExponent, he]⟩
  obtain rfl | hminus := eq_or_ne c '-'
  · exact ⟨['-'], cs, rfl, fun rest => by simp [scanExponent, he]⟩
  · exact ⟨[], c :: cs, rfl, fun rest => by simp [scanExponent, he, hplus, hminus]⟩

theorem scanExponent_local (h : scanExponent literal cs = some (out, tail)) :
    (∃ more, out = literal ++ more ∧ cs = more ++ tail) ∧ ∀ rest, endsNumber rest = true →
      scanExponent literal (cs ++ rest) = some (out, tail ++ rest) := by
  cases cs with
  | nil =>
    cases h
    refine ⟨⟨[], by simp⟩, ?_⟩
    intro rest hrest
    cases rest with
    | nil => rfl
    | cons c rest =>
      simp only [endsNumber, Bool.not_eq_true', Bool.or_eq_false_iff, beq_eq_false_iff_ne] at hrest
      simp [scanExponent, hrest]
  | cons e cs =>
    by_cases he : e = 'e' ∨ e = 'E'
    · cases cs with
      | nil => simp [scanExponent, he] at h
      | cons c cs =>
        obtain ⟨sign, digits, hsplit, hscan⟩ := scanExponent_signed (c := c) he literal cs
        have hown := hscan []
        rw [List.append_nil, List.append_nil, h] at hown
        split_ifs at hown with hrun
        cases hown
        refine ⟨⟨e :: sign ++ digits.takeWhile Char.isDigit, ?_⟩, ?_⟩
        · simp [hsplit, List.takeWhile_append_dropWhile]
        · intro rest hrest
          obtain ⟨htake, hdrop⟩ := digits_append hrest digits
          rw [hscan rest, htake, hdrop, if_neg hrun]
    · simp only [List.cons_append, scanExponent, if_neg he] at h ⊢
      cases h
      exact ⟨⟨[], by simp⟩, fun _ _ => rfl⟩

theorem scanFraction_local (h : scanFraction literal cs = some (out, tail)) :
    (∃ more, out = literal ++ more ∧ cs = more ++ tail) ∧ ∀ rest, endsNumber rest = true →
      scanFraction literal (cs ++ rest) = some (out, tail ++ rest) := by
  by_cases hpoint : ∃ digits, cs = '.' :: digits
  · obtain ⟨digits, rfl⟩ := hpoint
    simp only [scanFraction] at h
    split_ifs at h with hrun
    obtain ⟨⟨more, rfl, hmore⟩, hlocal⟩ := scanExponent_local h
    refine ⟨⟨'.' :: digits.takeWhile Char.isDigit ++ more, by simp, ?_⟩, ?_⟩
    · rw [List.append_assoc, ← hmore, List.cons_append, List.takeWhile_append_dropWhile]
    · intro rest hrest
      obtain ⟨htake, hdrop⟩ := digits_append hrest digits
      simp only [List.cons_append, scanFraction, htake, hdrop, if_neg hrun]
      exact hlocal rest hrest
  · have hnone : ∀ digits, cs = '.' :: digits → False := fun digits hcs => hpoint ⟨digits, hcs⟩
    rw [scanFraction.eq_2 literal cs hnone] at h
    obtain ⟨hmore, hlocal⟩ := scanExponent_local h
    refine ⟨hmore, ?_⟩
    intro rest hrest
    rw [scanFraction.eq_2, hlocal rest hrest]
    intro digits hcs
    cases cs with
    | nil =>
      rw [List.nil_append] at hcs
      rw [hcs] at hrest
      cases hrest
    | cons c cs => exact hnone cs (by rw [(List.cons.inj hcs).1])

theorem scanWhole_local (h : scanWhole literal cs = some (out, tail)) :
    (∃ c more, out = literal ++ c :: more ∧ cs = c :: more ++ tail) ∧
      ∀ rest, endsNumber rest = true → scanWhole literal (cs ++ rest) = some (out, tail ++ rest) := by
  cases cs with
  | nil => cases h
  | cons c cs =>
    simp only [scanWhole] at h
    split_ifs at h with hzero hdigit
    · obtain ⟨⟨more, rfl, hmore⟩, hlocal⟩ := scanFraction_local h
      refine ⟨⟨c, more, by simp [hzero], by rw [hmore]; rfl⟩, ?_⟩
      intro rest hrest
      simp only [List.cons_append, scanWhole, if_pos hzero]
      exact hlocal rest hrest
    · obtain ⟨⟨more, rfl, hmore⟩, hlocal⟩ := scanFraction_local h
      refine ⟨⟨c, cs.takeWhile Char.isDigit ++ more, by simp, ?_⟩, ?_⟩
      · rw [List.cons_append, List.append_assoc, ← hmore, List.takeWhile_append_dropWhile]
      · intro rest hrest
        obtain ⟨htake, hdrop⟩ := digits_append hrest cs
        simp only [List.cons_append, scanWhole, if_neg hzero, if_pos hdigit, htake, hdrop]
        exact hlocal rest hrest

/-- **Numbers are scanned locally.** What was scanned stands at the front of
the text, and is scanned again in any longer text before which numbers
end. -/
theorem scanNumber_local (h : scanNumber cs = some (out, tail)) :
    (∃ c more, out = c :: more ∧ cs = out ++ tail) ∧
      ∀ rest, endsNumber rest = true → scanNumber (cs ++ rest) = some (out, tail ++ rest) := by
  cases cs with
  | nil => cases h
  | cons c cs =>
    obtain rfl | hsign := eq_or_ne c '-'
    · obtain ⟨⟨d, more, rfl, hcs⟩, hlocal⟩ := scanWhole_local h
      exact ⟨⟨'-', d :: more, rfl, by rw [hcs]; rfl⟩, hlocal⟩
    · have hscan (rest : List Char) : scanNumber (c :: rest) = scanWhole [] (c :: rest) :=
        scanNumber.eq_2 _ fun _ hcs => hsign (List.cons.inj hcs).1
      rw [hscan] at h
      obtain ⟨⟨d, more, rfl, hcs⟩, hlocal⟩ := scanWhole_local h
      exact ⟨⟨d, more, rfl, hcs⟩, fun rest hrest => (hscan _).trans (hlocal rest hrest)⟩

end Locality

/-- Only zero is written with a zero in front. -/
theorem head_toDigits {n : ℕ} (hn : n ≠ 0) : (Nat.toDigits 10 n).head? ≠ some '0' := by
  have hdigit : ∀ d < 10, d ≠ 0 → Nat.digitChar d ≠ '0' := by decide
  induction n using Nat.strongRecOn with
  | ind n ih =>
    rw [Nat.toDigits_eq_if (by decide)]
    split
    · rename_i hlt
      simpa using hdigit n hlt hn
    · have hhead := ih (n / 10) (by omega) (by omega)
      cases hdigits : Nat.toDigits 10 (n / 10) with
      | nil => simp at hdigits
      | cons c cs =>
        rw [hdigits] at hhead
        exact hhead

/-- Digits without a needless zero are a whole literal. -/
theorem scanWhole_toDigits (sign : List Char) (n : ℕ) :
    scanWhole sign (Nat.toDigits 10 n) = some (sign ++ Nat.toDigits 10 n, []) := by
  have hdigits : ∀ c ∈ Nat.toDigits 10 n, c.isDigit = true :=
    fun c hc => Nat.isDigit_of_mem_toDigits (by decide) (by decide) hc
  by_cases hn : n = 0
  · rw [hn]; rfl
  have hhead := head_toDigits hn
  cases hcs : Nat.toDigits 10 n with
  | nil => simp at hcs
  | cons c cs =>
    rw [hcs] at hdigits hhead
    have hc : c ≠ '0' := by simpa using hhead
    have hrest : ∀ d ∈ cs, d.isDigit = true := fun d hd => hdigits d (List.mem_cons_of_mem c hd)
    simp only [scanWhole, if_neg hc, hdigits c List.mem_cons_self, if_true,
      List.takeWhile_eq_self_iff.mpr hrest, List.dropWhile_eq_nil_iff.mpr hrest]
    rfl

theorem scanNumber_write (n : ℤ) : scanNumber (Decimal.write n) = some (Decimal.write n, []) := by
  cases n with
  | negSucc n => exact scanWhole_toDigits ['-'] (n + 1)
  | ofNat n =>
    have hscan : scanNumber (Nat.toDigits 10 n) = scanWhole [] (Nat.toDigits 10 n) := by
      apply scanNumber.eq_2
      intro rest hcs
      have hmem : '-' ∈ Nat.toDigits 10 n := by rw [hcs]; exact List.mem_cons_self
      exact absurd (Nat.isDigit_of_mem_toDigits (by decide) (by decide) hmem) (by decide)
    exact hscan.trans (scanWhole_toDigits [] n)

/-- Integers are written as literals of numbers. -/
theorem isNumberLiteral_write (n : ℤ) : isNumberLiteral (Decimal.write n) = true := by
  simp [isNumberLiteral, scanNumber_write]

end Json

/-! ### Tokens -/

namespace Token

/-- A token as it is written. -/
def text : Token → List Char
  | .openObject => ['\x7b']
  | .closeObject => ['\x7d']
  | .openArray => ['[']
  | .closeArray => [']']
  | .colon => [':']
  | .comma => [',']
  | .string s => Json.stringText s
  | .number literal => literal.toList
  | .null => "null".toList
  | .bool b => Json.boolText b

/-- A number has a literal of numbers. -/
def Valid : Token → Prop
  | .number literal => Json.isNumberLiteral literal.toList = true
  | _ => True

/-- The token ends before this text. -/
def Ends (rest : List Char) : Token → Prop
  | .number _ => Json.endsNumber rest = true
  | _ => True

end Token

namespace Json

theorem token_of_scanNumber {cs out tail : List Char} (h : scanNumber cs = some (out, tail)) :
    token cs = some (.number (String.ofList out), tail) := by
  unfold token
  split
  case h_11 => rw [h]; rfl
  -- nothing else that starts a token starts a number
  all_goals exact absurd h (by simp [scanNumber, scanWhole])

theorem token_text {t : Token} (ht : t.Valid) {rest : List Char} (hrest : t.Ends rest) :
    token (t.text ++ rest) = some (t, rest) := by
  cases t with
  | openObject | closeObject | openArray | closeArray | colon | comma | null => rfl
  | bool b => cases b <;> rfl
  | string s =>
    have hscan : scanString none [] (s.toList.flatMap escape ++ '"' :: rest) = some (s.toList, rest) :=
      scanString_escaped s.toList [] rest
    simp [Token.text, stringText, token, hscan]
  | number literal =>
    have hliteral : isNumberLiteral literal.toList = true := ht
    unfold isNumberLiteral at hliteral
    split at hliteral
    · rename_i out hscan
      obtain ⟨⟨-, -, -, htext⟩, hlocal⟩ := scanNumber_local hscan
      rw [List.append_nil] at htext
      have htoken := token_of_scanNumber (hlocal rest hrest)
      rw [List.nil_append, ← htext, String.ofList_toList] at htoken
      exact htoken
    · cases hliteral

/-- White space before a token is skipped. -/
theorem nextToken_blanks {blanks : List Char} (hblanks : blanks.all isSpace = true)
    (cs : List Char) : nextToken (blanks ++ cs) = nextToken cs := by
  have hskip : blanks.dropWhile isSpace = [] :=
    List.dropWhile_eq_nil_iff.mpr (List.all_eq_true.mp hblanks)
  unfold nextToken
  rw [List.dropWhile_append, hskip]
  rfl

theorem nextToken_of_token {cs : List Char} {r : Token × List Char} (h : token cs = some r) :
    nextToken cs = some r := by
  have hstart : cs.dropWhile isSpace = cs := by
    cases cs with
    | nil => rfl
    | cons c rest =>
      by_cases hc : isSpace c = true
      · have hblank : isBlank c = true := by
          simp only [isSpace, Bool.or_eq_true, beq_iff_eq] at hc
          rcases hc with ((rfl | rfl) | rfl) | rfl <;> rfl
        rw [token_of_blank hblank] at h
        cases h
      · simp [hc]
  unfold nextToken
  rw [hstart, h]

/-- **Tokens read back.** The first token of a text is the one that is written
there. -/
theorem nextToken_text {t : Token} (ht : t.Valid) {rest : List Char} (hrest : t.Ends rest) :
    nextToken (t.text ++ rest) = some (t, rest) :=
  nextToken_of_token (token_text ht hrest)

/-- Every token takes at least one character. -/
theorem length_of_nextToken {cs rest : List Char} {t : Token} (h : nextToken cs = some (t, rest)) :
    rest.length < cs.length := by
  have hskip : (cs.dropWhile isSpace).length ≤ cs.length := (List.dropWhile_sublist _).length_le
  unfold nextToken at h
  generalize cs.dropWhile isSpace = start at h hskip
  suffices hstart : rest.length < start.length by omega
  unfold token at h
  split at h
  case h_7 rest' =>
    obtain ⟨⟨s, tail⟩, hscan, hpair⟩ := Option.map_eq_some_iff.mp h
    cases hpair
    have := length_of_scanString hscan
    simp only [List.length_cons]
    omega
  case h_11 =>
    obtain ⟨⟨s, tail⟩, hscan, hpair⟩ := Option.map_eq_some_iff.mp h
    cases hpair
    obtain ⟨⟨c, more, rfl, htext⟩, -⟩ := scanNumber_local hscan
    rw [htext, List.length_append, List.length_cons]
    omega
  all_goals
    cases h
    simp only [List.length_cons]
    omega

end Json
end OffsetGaps

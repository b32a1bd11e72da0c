/-
# Literals of numbers and their values

The literal of a JSON number stands for a rational: its digits, before and
behind the point, taken as one number, times a power of ten
(`Json.Literal.Denotes`). An integer has literals with a fraction or an
exponent as well, `16.0` or `1e3`. A parameter does not take these: what it
reads is a numeral, so a literal is bound to the integer that it denotes if
and only if it is written without point and exponent, and is refused as "not
an integer in range" otherwise. A floating-point number that is equal to the
same integer is bound in any case; so the two ways in which the number may be
handed over agree on the plain literals only.

Key definitions: `Json.Literal.Denotes`, `Json.Literal.isPlain`.
Key theorems: `Json.Literal.Denotes.numeral`, `Decimal.Numeral.isPlain`,
`Param.binds_literal_iff_plain`, `Param.exponent_literal_refused`.
-/
import OffsetGaps.Host.OffsetMap
import OffsetGaps.Proofs.Binding
import OffsetGaps.Proofs.Spellings

namespace OffsetGaps
namespace Json
namespace Literal

/-- The power of ten that an exponent stands for. -/
def power : List Char → ℤ
  | [] => 0
  | _ :: '+' :: digits => Nat.ofDigitChars 10 digits 0
  | _ :: '-' :: digits => -(Nat.ofDigitChars 10 digits 0 : ℤ)
  | _ :: digits => Nat.ofDigitChars 10 digits 0

/-- The number that the parts of a literal stand for. The digits behind the
point are those of the fraction without its first character. -/
def value (sign whole fraction exponent : List Char) : ℚ :=
  (if sign = ['-'] then -1 else 1) * Nat.ofDigitChars 10 (whole ++ fraction.tail) 0 *
    10 ^ (power exponent - fraction.tail.length)

/-- **The number that a literal denotes.** `Denotes cs q`: by the grammar of
JSON the text `cs` is the literal of a number, and `q` is the number. -/
inductive Denotes : List Char → ℚ → Prop where
  | parts {sign whole fraction exponent : List Char} {q : ℚ} (hsign : sign = [] ∨ sign = ['-'])
    (hwhole : Whole whole) (hfraction : Fraction fraction) (hexponent : Exponent exponent)
    (hvalue : q = value sign whole fraction exponent) :
    Denotes (sign ++ (whole ++ (fraction ++ exponent))) q

/-- Whether a literal has neither a point nor an exponent. -/
def isPlain (cs : List Char) : Bool := cs.all fun c => c != '.' && c != 'e' && c != 'E'

theorem isPlain_append {cs ds : List Char} :
    isPlain (cs ++ ds) = true ↔ isPlain cs = true ∧ isPlain ds = true := by
  simp only [isPlain, List.all_append, Bool.and_eq_true]

theorem Fraction.eq_nil {cs : List Char} (h : Fraction cs) (hplain : isPlain cs = true) :
    cs = [] := by
  cases h with
  | absent => rfl
  | digits _ => simp [isPlain] at hplain

theorem Exponent.eq_nil {cs : List Char} (h : Exponent cs) (hplain : isPlain cs = true) :
    cs = [] := by
  cases h with
  | absent => rfl
  | digits hmark _ _ => rcases hmark with rfl | rfl <;> simp [isPlain] at hplain

theorem Whole.digits_only {cs : List Char} (h : Whole cs) :
    cs ≠ [] ∧ ∀ c ∈ cs, c.isDigit = true := by
  cases h with
  | zero => exact ⟨List.cons_ne_nil _ _, List.forall_mem_singleton.mpr rfl⟩
  | digits hdigits _ => exact ⟨hdigits.1, List.all_eq_true.mp hdigits.2⟩

/-- A plain literal is a numeral of the integer that it denotes. -/
theorem Denotes.numeral {cs : List Char} {n : ℤ} (h : Denotes cs n) (hplain : isPlain cs = true) :
    Decimal.Numeral cs n := by
  generalize hq : (n : ℚ) = q at h
  cases h with
  | @parts sign whole fraction exponent q hsign hwhole hfraction hexponent hvalue =>
    obtain ⟨-, hrest⟩ := isPlain_append.mp hplain
    obtain ⟨-, hparts⟩ := isPlain_append.mp hrest
    obtain rfl := hfraction.eq_nil (isPlain_append.mp hparts).1
    obtain rfl := hexponent.eq_nil (isPlain_append.mp hparts).2
    obtain ⟨hne, hdigits⟩ := hwhole.digits_only
    rw [← hq] at hvalue
    rcases hsign with rfl | rfl
    · have hrational : (n : ℚ) = Nat.ofDigitChars 10 whole 0 := by
        simpa [value, power] using hvalue
      obtain rfl : n = Nat.ofDigitChars 10 whole 0 := by exact_mod_cast hrational
      simpa using Decimal.Numeral.unsigned hne hdigits
    · have hrational : (n : ℚ) = -Nat.ofDigitChars 10 whole 0 := by
        simpa [value, power] using hvalue
      obtain rfl : n = -(Nat.ofDigitChars 10 whole 0 : ℤ) := by exact_mod_cast hrational
      simpa using Decimal.Numeral.minus hne hdigits

end Literal
end Json

theorem Decimal.Numeral.isPlain {cs : List Char} {n : ℤ} (h : Decimal.Numeral cs n) :
    Json.Literal.isPlain cs = true := by
  rw [Json.Literal.isPlain, List.all_eq_true]
  intro c hc
  rcases h.digit_or_sign hc with hdigit | rfl | rfl
  · have hne : ∀ d : Char, d.isDigit = false → c ≠ d := by
      rintro d hd rfl
      rw [hdigit] at hd
      cases hd
    simp [hne '.' rfl, hne 'e' rfl, hne 'E' rfl]
  · rfl
  · rfl

namespace Param

/-- **A literal is bound if it is plain.** The literal of a number, however it
is spelled, denotes a 64-bit integer. A parameter binds it to this integer if
it has neither a point nor an exponent, and else refuses it as no integer in
range. A floating-point number that denotes the integer is bound to it; so the
two are bound alike if and only if the literal is plain. -/
theorem binds_literal_iff_plain (p : Param) {literal : String} {n : Int64}
    (hliteral : Json.Literal.Denotes literal.toList (n.toInt : ℚ)) :
    p.bindInteger (.number literal) =
      (if Json.Literal.isPlain literal.toList then .ok (some n)
        else .error ⟨p.name, p.type, "json.Number", "not an integer in range"⟩) ∧
    ∀ bits : UInt64, Binary64.denoted bits = some (n.toInt : ℚ) →
      p.bindInteger (.float bits) = .ok (some n) ∧
      (p.bindInteger (.number literal) = p.bindInteger (.float bits) ↔
        Json.Literal.isPlain literal.toList = true) := by
  have hbind : p.bindInteger (.number literal) =
      (if Json.Literal.isPlain literal.toList then .ok (some n)
        else .error ⟨p.name, p.type, "json.Number", "not an integer in range"⟩) := by
    by_cases hplain : Json.Literal.isPlain literal.toList = true
    · rw [if_pos hplain, bindInteger_eq_some_iff]
      exact .number (hliteral.numeral hplain)
    · rw [if_neg hplain]
      -- what is read is a numeral, and this literal is none
      cases hread : Decimal.readInt64 literal.toList with
      | ok o => exact absurd (Decimal.readInt64_eq_ok_iff.mp hread).isPlain hplain
      | error e =>
        simp only [bindInteger, hread]
        rfl
  refine ⟨hbind, fun bits hbits => ?_⟩
  have hfloat : p.bindInteger (.float bits) = .ok (some n) :=
    bindInteger_eq_some_iff.mpr (.float hbits)
  refine ⟨hfloat, ?_⟩
  rw [hbind, hfloat]
  split_ifs with hplain
  · exact iff_of_true rfl hplain
  · exact iff_of_false (by simp) hplain

/-- The integer 1000 with a fraction and an exponent is refused; written out,
or as a floating-point number, it is bound. -/
theorem binds_literal_iff_plain_thousand :
    OffsetMap.param.bindInteger (.number "10.0e+2") =
      .error ⟨"value", .integer, "json.Number", "not an integer in range"⟩ ∧
    OffsetMap.param.bindInteger (.number "1000") = .ok (some 1000) ∧
    OffsetMap.param.bindInteger (.number "1000") =
      OffsetMap.param.bindInteger (.float 0x408F400000000000) := by
  have hspelled : Json.Literal.Denotes "10.0e+2".toList ((1000 : Int64).toInt : ℚ) := by
    have hwhole : Json.Literal.Whole ['1', '0'] := .digits ⟨by decide, by decide⟩ (by decide)
    have hfraction : Json.Literal.Fraction ['.', '0'] := .digits ⟨by decide, by decide⟩
    have hexponent : Json.Literal.Exponent ('e' :: ['+'] ++ ['2']) :=
      .digits (Or.inl rfl) (Or.inr (Or.inl rfl)) ⟨by decide, by decide⟩
    have hvalue : ((1000 : Int64).toInt : ℚ) =
        Json.Literal.value [] ['1', '0'] ['.', '0'] ('e' :: ['+'] ++ ['2']) := by
      show ((1000 : ℤ) : ℚ) = 1 * (100 : ℕ) * 10 ^ (1 : ℤ)
      norm_num
    exact .parts (Or.inl rfl) hwhole hfraction hexponent hvalue
  have hplain : Json.Literal.Denotes "1000".toList ((1000 : Int64).toInt : ℚ) := by
    have hwhole : Json.Literal.Whole ['1', '0', '0', '0'] :=
      .digits ⟨by decide, by decide⟩ (by decide)
    have hvalue : ((1000 : Int64).toInt : ℚ) =
        Json.Literal.value [] ['1', '0', '0', '0'] [] [] := by
      show ((1000 : ℤ) : ℚ) = 1 * (1000 : ℕ) * 10 ^ (0 : ℤ)
      norm_num
    exact .parts (Or.inl rfl) hwhole .absent .absent hvalue
  have hbits : Binary64.denoted 0x408F400000000000 = some ((1000 : Int64).toInt : ℚ) :=
    Binary64.toInt64_ofBits_eq_some_iff.mp (by decide)
  obtain ⟨hrefused, -⟩ := binds_literal_iff_plain OffsetMap.param hspelled
  obtain ⟨hbound, hfloat⟩ := binds_literal_iff_plain OffsetMap.param hplain
  exact ⟨hrefused, hbound, (hfloat _ hbits).2.mpr (by decide)⟩

/-- A literal that denotes the integer 1000 is not bound to it, although a
floating-point number that denotes 1000 is. -/
theorem exponent_literal_refused :
    Json.Literal.Denotes "1e3".toList (1000 : ℚ) ∧
    OffsetMap.param.bindInteger (.number "1e3") =
      .error ⟨"value", .integer, "json.Number", "not an integer in range"⟩ ∧
    Binary64.denoted 0x408F400000000000 = some (1000 : ℚ) ∧
    OffsetMap.param.bindInteger (.float 0x408F400000000000) = .ok (some 1000) := by
  have hwhole : Json.Literal.Whole ['1'] := .digits ⟨by decide, by decide⟩ (by decide)
  have hexponent : Json.Literal.Exponent ('e' :: [] ++ ['3']) :=
    .digits (Or.inl rfl) (Or.inl rfl) ⟨by decide, by decide⟩
  have hvalue : (1000 : ℚ) = Json.Literal.value [] ['1'] [] ('e' :: [] ++ ['3']) := by
    show (1000 : ℚ) = 1 * (1 : ℕ) * 10 ^ (3 : ℤ)
    norm_num
  have hbits : Binary64.denoted 0x408F400000000000 = some ((1000 : Int64).toInt : ℚ) :=
    Binary64.toInt64_ofBits_eq_some_iff.mp (by decide)
  exact ⟨.parts (Or.inl rfl) hwhole .absent hexponent hvalue, by decide, hbits, by decide⟩

end Param
end OffsetGaps

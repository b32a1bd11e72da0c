/-
# Values are bound by their exact value

A value of the host stands for an integer in one of four ways: as a machine
integer of any width, as a reference to one, as a floating-point number, or
as the literal of a number (`Value.Denotes`). A parameter binds a value to
the integer it stands for, if that fits in 64 bits, and to nothing else; a
null is bound to absent where the parameter allows it; all else is refused
with an error that names the parameter and the two types.

What the bits of a floating-point number stand for is said by the formula of
the format, over the rationals (`Binary64.denoted`). The program cuts the
fraction off, compares, and converts; these are the operations on rationals
(`Binary64.lt_iff`, `Binary64.equal_iff`, `Binary64.rational_trunc`). The
greatest 64-bit integer, with which it compares, is rounded to `2^63`
(`Binary64.maxInt64_nearest`), and so the comparison asks for a number below
it.

Key definitions: `Binary64.denoted`, `Value.Denotes`, `Value.isNull`.
Key theorems: `Binary64.denoted_eq`, `Binary64.toInt64_eq_some_iff`,
`Integer.toInt64_eq_some_iff`, `Param.bindInteger_eq_some_iff`,
`Param.binds_exact_values`.
-/
import Mathlib.Algebra.Order.Field.Rat
import Mathlib.Data.Nat.Cast.Field
import Mathlib.Tactic.FieldSimp
import Mathlib.Tactic.Linarith
import Mathlib.Tactic.NormNum
import Mathlib.Tactic.Ring
import OffsetGaps.Host.Param
import OffsetGaps.Proofs.Numerals

namespace OffsetGaps

/-! ### Floating-point numbers -/

namespace Binary64

/-- **The number that 64 bits denote**, unless they denote an infinity or no
number: one bit is the sign, eleven are the exponent, 52 the fraction. The
least exponent is that of the numbers below all others, without the hidden
bit. -/
def denoted (bits : UInt64) : Option ℚ :=
  let sign : ℚ := if bits.toBitVec.msb then -1 else 1
  let exponent : ℕ := (bits.toBitVec.extractLsb' 52 11).toNat
  let fraction : ℚ := (bits.toBitVec.extractLsb' 0 52).toNat / 2 ^ 52
  if exponent = 2047 then none
  else if exponent = 0 then some (sign * fraction * 2 ^ (-1022 : ℤ))
  else some (sign * (1 + fraction) * 2 ^ ((exponent : ℤ) - 1023))

/-- The number itself, if there is one. -/
def rational? : Binary64 → Option ℚ
  | .finite negative m e => some ((if negative then -1 else 1) * m * 2 ^ e)
  | .infinite _ => none
  | .notANumber => none

/-- The decoded bits are the number that they denote. -/
theorem denoted_eq (bits : UInt64) : denoted bits = (ofBits bits).rational? := by
  have hlt : bits.toNat < 2 ^ 64 := bits.toNat_lt
  have hsign : bits.toBitVec.msb = decide (bits.toNat / 0x8000000000000000 = 1) := by
    rw [BitVec.msb_eq_decide, UInt64.toNat_toBitVec]
    congr 1
    apply propext
    omega
  have hexponent : (bits.toBitVec.extractLsb' 52 11).toNat =
      bits.toNat / 0x10000000000000 % 0x800 := by
    rw [BitVec.extractLsb'_toNat, Nat.shiftRight_eq_div_pow, UInt64.toNat_toBitVec]
  have hfraction : (bits.toBitVec.extractLsb' 0 52).toNat = bits.toNat % 0x10000000000000 := by
    rw [BitVec.extractLsb'_toNat, Nat.shiftRight_zero, UInt64.toNat_toBitVec]
  unfold denoted ofBits
  simp only [hsign, hexponent, hfraction]
  generalize bits.toNat / 0x10000000000000 % 0x800 = exponent
  generalize bits.toNat % 0x10000000000000 = fraction
  generalize decide (bits.toNat / 0x8000000000000000 = 1) = negative
  by_cases hspecial : exponent = 2047
  · by_cases hzero : fraction = 0 <;> simp [hspecial, hzero, rational?]
  by_cases hleast : exponent = 0
  · have hpower : (2 : ℚ) ^ (-1022 : ℤ) = 2 ^ 52 * 2 ^ (-1074 : ℤ) := by
      rw [← zpow_natCast, ← zpow_add₀ two_ne_zero]
      norm_num
    simp only [hleast, show ¬ (0 = 2047) by decide, if_true, if_false, rational?, hpower]
    congr 1
    ring
  · have hpower : (2 : ℚ) ^ ((exponent : ℤ) - 1023) = 2 ^ 52 * 2 ^ ((exponent : ℤ) - 1075) := by
      rw [← zpow_natCast, ← zpow_add₀ two_ne_zero]
      congr 1
      push_cast
      ring
    simp only [hspecial, hleast, if_false, rational?, hpower]
    push_cast
    congr 1
    ring

theorem signed_mul_pow (negative : Bool) (m k : ℕ) :
    signed negative (m * 2 ^ k) = signed negative m * 2 ^ k := by
  unfold signed
  cases negative <;> simp

theorem natAbs_signed (negative : Bool) (m : ℕ) : (signed negative m).natAbs = m := by
  unfold signed
  cases negative <;> simp

/-- `m · 2^e` is an integer `n` if and only if `m` times the power, or `n`
times the inverse power, is the other of the two. -/
theorem rational_eq_some_iff {negative : Bool} {m : ℕ} {e n : ℤ} :
    (finite negative m e).rational? = some (n : ℚ) ↔
      signed negative m * 2 ^ e.toNat = n * 2 ^ (-e).toNat := by
  have hpower : (2 : ℚ) ^ e = 2 ^ e.toNat / 2 ^ (-e).toNat := by
    rw [← zpow_natCast, ← zpow_natCast, ← zpow_sub₀ two_ne_zero]
    congr 1
    omega
  have hsigned : (signed negative m : ℚ) = (if negative then -1 else 1) * m := by
    unfold signed
    cases negative <;> simp
  have hne : (2 : ℚ) ^ (-e).toNat ≠ 0 := pow_ne_zero _ two_ne_zero
  simp only [rational?, Option.some.injEq]
  rw [← hsigned, hpower, mul_div_assoc', div_eq_iff hne]
  exact_mod_cast Iff.rfl

/-- Two numbers in units of the smaller of their powers of two. -/
theorem rational_scaled (negative negative' : Bool) (m m' : ℕ) (e e' : ℤ) :
    ∃ unit : ℚ, 0 < unit ∧
      (finite negative m e).rational? = some (scaled negative m (e - e') * unit) ∧
      (finite negative' m' e').rational? = some (scaled negative' m' (e' - e) * unit) := by
  have hsplit : ∀ (negative : Bool) (m : ℕ) (e e' : ℤ), (finite negative m e).rational? =
      some (scaled negative m (e - e') * (2 : ℚ) ^ min e e') := by
    intro negative m e e'
    have hpower : (2 : ℚ) ^ e = 2 ^ (e - e').toNat * 2 ^ min e e' := by
      rw [← zpow_natCast, ← zpow_add₀ two_ne_zero]
      congr 1
      omega
    rw [rational?, hpower]
    unfold scaled signed
    cases negative <;> simp [mul_assoc]
  refine ⟨(2 : ℚ) ^ min e e', zpow_pos two_pos _, hsplit negative m e e', ?_⟩
  rw [min_comm]
  exact hsplit negative' m' e' e

section Comparison

variable {a b : Binary64} {x y : ℚ}

theorem lt_iff (ha : a.rational? = some x) (hb : b.rational? = some y) : a.lt b = true ↔ x < y := by
  cases a with
  | finite negative m e =>
    cases b with
    | finite negative' m' e' =>
      obtain ⟨unit, hunit, hx, hy⟩ := rational_scaled negative negative' m m' e e'
      rw [← Option.some.inj (hx.symm.trans ha), ← Option.some.inj (hy.symm.trans hb),
        mul_lt_mul_iff_left₀ hunit, Int.cast_lt, lt, decide_eq_true_eq]
    | _ => cases hb
  | _ => cases ha

theorem equal_iff (ha : a.rational? = some x) (hb : b.rational? = some y) :
    a.equal b = true ↔ x = y := by
  cases a with
  | finite negative m e =>
    cases b with
    | finite negative' m' e' =>
      obtain ⟨unit, hunit, hx, hy⟩ := rational_scaled negative negative' m m' e e'
      rw [← Option.some.inj (hx.symm.trans ha), ← Option.some.inj (hy.symm.trans hb),
        mul_left_inj' hunit.ne', Int.cast_inj, equal, beq_iff_eq]
    | _ => cases hb
  | _ => cases ha

theorem le_iff (ha : a.rational? = some x) (hb : b.rational? = some y) : a.le b = true ↔ x ≤ y := by
  rw [le, Bool.or_eq_true, lt_iff ha hb, equal_iff ha hb, le_iff_lt_or_eq]

end Comparison

/-- Cutting the fraction off leaves the whole number. -/
theorem rational_trunc (negative : Bool) (m : ℕ) (e : ℤ) :
    (finite negative m e).trunc.rational? = some ((finite negative m e).whole : ℚ) := by
  rw [trunc, rational_eq_some_iff, whole, ← signed_mul_pow, max_comm]
  by_cases he : 0 ≤ e
  · have hnone : (-e).toNat = 0 := by omega
    have hmax : max 0 e = e := by omega
    simp [hnone, hmax]
  · have hnone : e.toNat = 0 := by omega
    have hmax : max 0 e = 0 := by omega
    simp [hnone, hmax]

/-- An integer has no fraction. -/
theorem whole_of_rational {b : Binary64} {n : ℤ} (h : b.rational? = some (n : ℚ)) : b.whole = n := by
  cases b with
  | finite negative m e =>
    rw [rational_eq_some_iff, ← signed_mul_pow] at h
    have hpos : 0 < 2 ^ (-e).toNat := Nat.pow_pos (by decide)
    have habs : m * 2 ^ e.toNat = n.natAbs * 2 ^ (-e).toNat := by
      have habs := congrArg Int.natAbs h
      rwa [natAbs_signed, Int.natAbs_mul, Int.natAbs_pow] at habs
    have hsign : signed negative n.natAbs = n := by
      rw [habs, signed_mul_pow] at h
      exact Int.eq_of_mul_eq_mul_right (pow_ne_zero _ two_ne_zero) h
    show signed negative (m * 2 ^ e.toNat / 2 ^ (-e).toNat) = n
    rw [habs, Nat.mul_div_cancel _ hpos, hsign]
  | _ => cases h

theorem rational_minInt64 : minInt64.rational? = some (-2 ^ 63) := by
  have hbits : minInt64 = finite true 0x10000000000000 11 := by decide
  rw [hbits, rational?]
  norm_num

theorem rational_maxInt64 : maxInt64.rational? = some (2 ^ 63) := by
  have hbits : maxInt64 = finite false 0x10000000000000 11 := by decide
  rw [hbits, rational?]
  norm_num

/-- A significand has 53 bits. -/
theorem significand_lt {bits : UInt64} {negative : Bool} {m : ℕ} {e : ℤ}
    (h : ofBits bits = finite negative m e) : m < 2 ^ 53 := by
  have hfraction : bits.toNat % 0x10000000000000 < 0x10000000000000 := Nat.mod_lt _ (by decide)
  unfold ofBits at h
  simp only at h
  split_ifs at h
  · obtain ⟨-, rfl, -⟩ := finite.inj h
    omega
  · obtain ⟨-, rfl, -⟩ := finite.inj h
    omega

/-- The numbers of the format above `2^62` are multiples of 1024. -/
theorem le_or_multiple {bits : UInt64} {x : ℚ} (hx : denoted bits = some x) :
    x ≤ 2 ^ 62 ∨ ∃ k : ℤ, x = k * 1024 := by
  rw [denoted_eq] at hx
  cases hdecoded : ofBits bits with
  | finite negative m e =>
    rw [hdecoded] at hx
    have hm : (m : ℚ) ≤ 2 ^ 53 := by exact_mod_cast (significand_lt hdecoded).le
    by_cases he : e < 10
    · have hunit : (2 : ℚ) ^ e ≤ 2 ^ (9 : ℤ) := zpow_le_zpow_right₀ (by norm_num) (by omega)
      have hpos : 0 < (2 : ℚ) ^ e := zpow_pos two_pos e
      have hsize : (m : ℚ) * 2 ^ e ≤ 2 ^ 53 * 2 ^ (9 : ℤ) :=
        mul_le_mul hm hunit hpos.le (by norm_num)
      have hnonneg : 0 ≤ (m : ℚ) * 2 ^ e := mul_nonneg (Nat.cast_nonneg m) hpos.le
      norm_num at hsize
      refine Or.inl ?_
      rw [← Option.some.inj hx, mul_assoc]
      cases negative <;> norm_num <;> linarith
    · have hpower : (2 : ℚ) ^ e = 2 ^ (e - 10).toNat * 1024 := by
        rw [show (1024 : ℚ) = 2 ^ (10 : ℤ) by norm_num, ← zpow_natCast, ← zpow_add₀ two_ne_zero]
        congr 1
        omega
      refine Or.inr ⟨(if negative then -1 else 1) * m * 2 ^ (e - 10).toNat, ?_⟩
      rw [← Option.some.inj hx, hpower]
      push_cast
      ring
  | _ => rw [hdecoded] at hx; cases hx

/-- **The greatest integer is rounded to `2^63`**: no number of the format is
nearer to it. -/
theorem maxInt64_nearest {bits : UInt64} {x y : ℚ} (hx : denoted bits = some x)
    (hy : maxInt64.rational? = some y) : |y - (2 ^ 63 - 1)| ≤ |x - (2 ^ 63 - 1)| := by
  rw [← Option.some.inj (rational_maxInt64.symm.trans hy)]
  by_contra hnear
  rw [not_le, show |(2 : ℚ) ^ 63 - (2 ^ 63 - 1)| = 1 by norm_num, abs_lt] at hnear
  obtain ⟨hlow, hhigh⟩ := hnear
  rcases le_or_multiple hx with hsmall | ⟨k, rfl⟩
  · norm_num at hlow hsmall
    linarith
  · have hlow' : (2 : ℤ) ^ 63 - 2 < k * 1024 := by
      have hlow' : (2 : ℚ) ^ 63 - 2 < k * 1024 := by linarith
      exact_mod_cast hlow'
    have hhigh' : k * 1024 < (2 : ℤ) ^ 63 := by
      have hhigh' : k * 1024 < (2 : ℚ) ^ 63 := by linarith
      exact_mod_cast hhigh'
    omega

/-- The tests that a number must pass, as they are about its value. -/
theorem toInt64_of_rational {negative : Bool} {m : ℕ} {e : ℤ} {x : ℚ}
    (hx : (finite negative m e).rational? = some x) :
    (finite negative m e).toInt64? =
      if x = (finite negative m e).whole ∧ -2 ^ 63 ≤ x ∧ x < 2 ^ 63 then
        some (finite negative m e).toInt64
      else none := by
  have hequal := equal_iff hx (rational_trunc negative m e)
  have hleast := lt_iff hx rational_minInt64
  have hgreatest := le_iff rational_maxInt64 hx
  have htests : (!(finite negative m e).equal (finite negative m e).trunc ||
      (finite negative m e).lt minInt64 || maxInt64.le (finite negative m e)) = true ↔
        ¬ (x = (finite negative m e).whole ∧ -2 ^ 63 ≤ x ∧ x < 2 ^ 63) := by
    rw [Bool.or_eq_true, Bool.or_eq_true, Bool.not_eq_true', ← Bool.not_eq_true, hequal, hleast,
      hgreatest, not_and_or, not_and_or, not_le, not_lt, or_assoc]
  rw [toInt64?, if_congr htests rfl rfl, ite_not]

/-- **A number is converted to the integer that it is**, and to none if it is
none or out of range. -/
theorem toInt64_eq_some_iff {b : Binary64} {o : Int64} :
    b.toInt64? = some o ↔ b.rational? = some (o.toInt : ℚ) := by
  have hlow := o.le_toInt
  have hhigh := o.toInt_lt
  cases b with
  | infinite negative =>
    have hnone : (infinite negative).toInt64? = none := by cases negative <;> decide
    simp [hnone, rational?]
  | notANumber =>
    have hnone : notANumber.toInt64? = none := by decide
    simp [hnone, rational?]
  | finite negative m e =>
    obtain ⟨x, hx⟩ : ∃ x, (finite negative m e).rational? = some x := ⟨_, rfl⟩
    rw [toInt64_of_rational hx, hx, Option.some.injEq]
    constructor
    · intro h
      split_ifs at h with htests
      obtain ⟨hwhole, hleast, hgreatest⟩ := htests
      rw [hwhole] at hleast hgreatest
      have hvalue : (Int64.ofInt (finite negative m e).whole).toInt = (finite negative m e).whole :=
        Int64.toInt_ofInt_of_le (by exact_mod_cast hleast) (by exact_mod_cast hgreatest)
      rw [hwhole, ← Option.some.inj h, toInt64, hvalue]
    · rintro rfl
      have hwhole := whole_of_rational hx
      rw [if_pos ⟨by rw [hwhole], by exact_mod_cast hlow, by exact_mod_cast hhigh⟩, toInt64, hwhole,
        Int64.ofInt_toInt]

/-- The bits of a number are converted to the integer that they denote. -/
theorem toInt64_ofBits_eq_some_iff {bits : UInt64} {o : Int64} :
    (ofBits bits).toInt64? = some o ↔ denoted bits = some (o.toInt : ℚ) := by
  rw [toInt64_eq_some_iff, denoted_eq]

end Binary64

/-! ### What values stand for -/

namespace Value

/-- Whether a value is a null or a reference to nothing. -/
def isNull : Value → Bool
  | .null => true
  | .reference none => true
  | _ => false

/-- **The integer that a value stands for.** A machine integer stands for
itself, and so does one that is referred to; a floating-point number for the
integer that it is equal to, and the literal of a number for its value as a
numeral. Nothing else stands for an integer. -/
inductive Denotes : Value → ℤ → Prop where
  | integer (i : Integer) : Denotes (.integer i) i.value
  | reference (n : Int64) : Denotes (.reference (some n)) n.toInt
  | float {bits : UInt64} {n : ℤ} (hbits : Binary64.denoted bits = some (n : ℚ)) :
    Denotes (.float bits) n
  | number {literal : String} {n : ℤ} (hnumeral : Decimal.Numeral literal.toList n) :
    Denotes (.number literal) n

theorem denotes_integer_iff {i : Integer} {n : ℤ} : Denotes (.integer i) n ↔ i.value = n := by
  refine ⟨fun h => by cases h; rfl, ?_⟩
  rintro rfl
  exact .integer i

theorem denotes_reference_iff {m : Int64} {n : ℤ} :
    Denotes (.reference (some m)) n ↔ m.toInt = n := by
  refine ⟨fun h => by cases h; rfl, ?_⟩
  rintro rfl
  exact .reference m

theorem denotes_float_iff {bits : UInt64} {n : ℤ} :
    Denotes (.float bits) n ↔ Binary64.denoted bits = some (n : ℚ) :=
  ⟨fun h => by cases h; assumption, .float⟩

theorem denotes_number_iff {literal : String} {n : ℤ} :
    Denotes (.number literal) n ↔ Decimal.Numeral literal.toList n :=
  ⟨fun h => by cases h; assumption, .number⟩

end Value

/-! ### Binding -/

namespace Integer

/-- Only the unsigned integers of 64 bits may be out of range. -/
theorem exceeds_iff {i : Integer} : i.exceeds = true ↔ 2 ^ 63 ≤ i.value := by
  have hunsigned (n : UInt64) : n > 0x7FFFFFFFFFFFFFFF ↔ 2 ^ 63 ≤ (n.toNat : ℤ) := by
    rw [gt_iff_lt, UInt64.lt_iff_toNat_lt]
    show 0x7FFFFFFFFFFFFFFF < n.toNat ↔ _
    omega
  have hkept : ∀ {n : ℤ}, n < 2 ^ 63 → (false = true ↔ 2 ^ 63 ≤ n) := fun h =>
    iff_of_false Bool.false_ne_true (not_le.mpr h)
  cases i with
  | int64 n | int n => exact hkept n.toInt_lt
  | int32 n | int16 n | int8 n =>
    have hlt := n.toInt_lt
    exact hkept (by simp only [value]; omega)
  | uint8 n | uint16 n | uint32 n =>
    have hlt := n.toNat_lt
    exact hkept (by simp only [value]; omega)
  | uint n | uint64 n => exact decide_eq_true_iff.trans (hunsigned n)

theorem toInt_toInt64 {i : Integer} (h : i.exceeds = false) : i.toInt64.toInt = i.value := by
  have hbits {n : UInt64} (hn : n.toNat < 2 ^ 63) : n.toInt64.toInt = n.toNat := by
    show n.toBitVec.toInt = n.toNat
    rw [BitVec.toInt_eq_toNat_of_lt (by rw [UInt64.toNat_toBitVec]; omega), UInt64.toNat_toBitVec]
  have hrange : i.value < 2 ^ 63 := by
    rw [← not_le, ← exceeds_iff, h]
    exact Bool.false_ne_true
  cases i with
  | int64 n | int n => rfl
  | int32 n | int16 n | int8 n => exact n.toInt_toInt64
  | uint8 n | uint16 n | uint32 n =>
    have hwide := n.toNat_toUInt64
    simp only [value] at hrange
    rw [toInt64, hbits (by omega), hwide]
    rfl
  | uint n | uint64 n =>
    simp only [value] at hrange
    exact hbits (by omega)

/-- **A machine integer is converted to itself**, unless it is out of range. -/
theorem toInt64_eq_some_iff {i : Integer} {o : Int64} : i.toInt64? = some o ↔ i.value = o.toInt := by
  have hhigh := o.toInt_lt
  unfold toInt64?
  cases hexceeds : i.exceeds with
  | true =>
    have hvalue := exceeds_iff.mp hexceeds
    rw [if_pos rfl]
    exact iff_of_false (Option.some_ne_none _).symm (by omega)
  | false => rw [if_neg Bool.false_ne_true, Option.some.injEq, ← Int64.toInt_inj, toInt_toInt64 hexceeds]

end Integer

namespace Param

theorem bindExact_eq_some_iff {p : Param} {v : Value} {reason : String} {n : Option Int64}
    {o : Int64} : p.bindExact v reason n = .ok (some o) ↔ n = some o := by
  cases n <;> simp [bindExact]

theorem bindExact_ne_none {p : Param} {v : Value} {reason : String} {n : Option Int64} :
    p.bindExact v reason n ≠ .ok none := by
  cases n <;> simp [bindExact]

theorem error_of_bindExact {p : Param} {v : Value} {reason : String} {n : Option Int64}
    {e : TypeError} (h : p.bindExact v reason n = .error e) : e = p.mismatch v reason := by
  cases n with
  | none => exact (Except.error.inj h).symm
  | some o => cases h

theorem bindInteger_null {p : Param} {v : Value} (h : v.isNull = true) :
    p.bindInteger v = p.bindNull := by
  cases v with
  | null => rfl
  | reference target =>
    cases target with
    | none => rfl
    | some n => cases h
  | _ => cases h

/-- **A value is bound to the integer that it stands for.** -/
theorem bindInteger_eq_some_iff {p : Param} {v : Value} {o : Int64} :
    p.bindInteger v = .ok (some o) ↔ v.Denotes o.toInt := by
  have hnull : p.bindNull ≠ .ok (some o) := by
    unfold bindNull
    cases p.nullable <;> simp
  cases v with
  | integer i =>
    rw [bindInteger, bindExact_eq_some_iff, Integer.toInt64_eq_some_iff, Value.denotes_integer_iff]
  | float bits =>
    rw [bindInteger, bindExact_eq_some_iff, Binary64.toInt64_ofBits_eq_some_iff,
      Value.denotes_float_iff]
  | number literal =>
    rw [Value.denotes_number_iff, ← Decimal.readInt64_eq_ok_iff]
    simp only [bindInteger, bindExact_eq_some_iff]
    cases Decimal.readInt64 literal.toList <;> simp [Except.toOption]
  | reference target =>
    cases target with
    | none => exact iff_of_false hnull (by intro h; cases h)
    | some m => simp [bindInteger, Value.denotes_reference_iff, Int64.toInt_inj]
  | null => exact iff_of_false hnull (by intro h; cases h)
  | _ => exact iff_of_false (by intro h; cases h) (by intro h; cases h)

/-- A value that is no null is bound to an integer, or refused for its own
type. -/
theorem bindInteger_of_not_null {p : Param} {v : Value} (h : v.isNull ≠ true) :
    ∃ reason n, p.bindInteger v = p.bindExact v reason n := by
  cases v with
  | integer i => exact ⟨_, _, rfl⟩
  | float bits => exact ⟨_, _, rfl⟩
  | number literal => exact ⟨_, _, rfl⟩
  | reference target =>
    cases target with
    | none => exact absurd rfl h
    | some n => exact ⟨"", some n, rfl⟩
  | null => exact absurd rfl h
  | _ => exact ⟨"", none, rfl⟩

/-- A value is bound to absent if it is a null and may be one. -/
theorem bindInteger_eq_none_iff {p : Param} {v : Value} :
    p.bindInteger v = .ok none ↔ v.isNull = true ∧ p.nullable = true := by
  by_cases hnull : v.isNull = true
  · rw [bindInteger_null hnull]
    unfold bindNull
    cases p.nullable <;> simp [hnull]
  · obtain ⟨reason, n, hbind⟩ := bindInteger_of_not_null (p := p) hnull
    rw [hbind]
    exact iff_of_false bindExact_ne_none fun h => hnull h.1

/-- An error names the parameter, its type, and the type of the value. -/
theorem error_of_bindInteger {p : Param} {v : Value} {e : TypeError}
    (h : p.bindInteger v = .error e) :
    ∃ reason, e = ⟨p.name, p.type, if v.isNull then "null" else v.typeName, reason⟩ := by
  by_cases hnull : v.isNull = true
  · rw [bindInteger_null hnull] at h
    unfold bindNull at h
    split at h
    · cases h
    · rw [if_pos hnull]
      exact ⟨_, (Except.error.inj h).symm⟩
  · obtain ⟨reason, n, hbind⟩ := bindInteger_of_not_null (p := p) hnull
    rw [hbind] at h
    rw [if_neg hnull]
    exact ⟨reason, error_of_bindExact h⟩

/-- **Values are bound by their exact value.** A parameter binds a value to
`n` if and only if the value stands for `n` and `n` fits in 64 bits; to absent
if and only if the value is a null and the parameter is nullable. In all other
cases, and in no others, the value is refused with an error that names the
parameter, its type and the type of the value, which is `null` for a null. -/
theorem binds_exact_values (p : Param) (v : Value) :
    (∀ n : ℤ, (∃ o : Int64, p.bindInteger v = .ok (some o) ∧ o.toInt = n) ↔
      v.Denotes n ∧ -2 ^ 63 ≤ n ∧ n ≤ 2 ^ 63 - 1) ∧
    (p.bindInteger v = .ok none ↔ v.isNull = true ∧ p.nullable = true) ∧
    ((∃ reason, p.bindInteger v = .error
        ⟨p.name, p.type, if v.isNull then "null" else v.typeName, reason⟩) ↔
      (∀ n, v.Denotes n → n < -2 ^ 63 ∨ 2 ^ 63 - 1 < n) ∧
        ¬ (v.isNull = true ∧ p.nullable = true)) := by
  have hsome (n : ℤ) : (∃ o : Int64, p.bindInteger v = .ok (some o) ∧ o.toInt = n) ↔
      v.Denotes n ∧ -2 ^ 63 ≤ n ∧ n ≤ 2 ^ 63 - 1 := by
    rw [← Decimal.exists_toInt_eq_iff]
    constructor
    · rintro ⟨o, hbind, rfl⟩
      exact ⟨bindInteger_eq_some_iff.mp hbind, o, rfl⟩
    · rintro ⟨hdenotes, o, rfl⟩
      exact ⟨o, bindInteger_eq_some_iff.mpr hdenotes, rfl⟩
  refine ⟨hsome, bindInteger_eq_none_iff, ?_⟩
  rw [← bindInteger_eq_none_iff]
  constructor
  · rintro ⟨reason, herror⟩
    refine ⟨fun n hdenotes => ?_, by simp [herror]⟩
    by_contra hrange
    obtain ⟨o, hbind, -⟩ := (hsome n).mpr ⟨hdenotes, by omega, by omega⟩
    rw [herror] at hbind
    cases hbind
  · rintro ⟨hother, hnone⟩
    rcases hbind : p.bindInteger v with e | _ | o
    · obtain ⟨reason, rfl⟩ := error_of_bindInteger hbind
      exact ⟨reason, rfl⟩
    · exact absurd hbind hnone
    · obtain ⟨hdenotes, hlow, hhigh⟩ := (hsome o.toInt).mp ⟨o, hbind, rfl⟩
      have hout := hother _ hdenotes
      omega

end Param
end OffsetGaps

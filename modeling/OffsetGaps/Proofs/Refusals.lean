/-
# Why a word is refused

A word that is neither `null` nor the numeral of a 64-bit integer is refused,
for one of two reasons. Digits are read from left to right, and the first
problem decides: a value that leaves 64 bits ends the reading at once, before
what follows is looked at, and the signed limit is asked for after the last
digit. Put in terms of the whole word: the value is out of range if the digits
that follow the sign have a value of 2^64 or more, or if the word is a numeral
and its value does not fit; in all other cases the word is malformed.

The same digits may be read in a register of 64 bits (`Decimal.accumulate`).
There a value that is too large is found out before it is multiplied, and a
sum that is too large by its having wrapped.

Key definitions: `Decimal.unsigned`, `Decimal.Outsized`, `Decimal.accumulate`,
`Listing.RefusedFor`.
Key theorems: `Decimal.magnitude_eq_outOfRange_iff`,
`Decimal.readInt64_eq_outOfRange_iff`, `Decimal.map_toNat_accumulate`,
`Listing.offsets_read_by_value`.
-/
import OffsetGaps.Proofs.Decorations

namespace OffsetGaps
namespace Decimal

/-- A text without its sign, if it has one. -/
def unsigned : List Char → List Char
  | '+' :: digits => digits
  | '-' :: digits => digits
  | digits => digits

/-- **Texts whose value is out of range.** The digits behind the sign, up to
the first other character, have a value that does not fit in 64 bits; or the
whole text is a numeral, and its signed value does not fit. -/
def Outsized (cs : List Char) : Prop :=
  2 ^ 64 ≤ Nat.ofDigitChars 10 ((unsigned cs).takeWhile Char.isDigit) 0 ∨
    ∃ n : ℤ, Numeral cs n ∧ ¬ (-2 ^ 63 ≤ n ∧ n ≤ 2 ^ 63 - 1)

/-! ### Digits -/

/-- Reading runs out of range if and only if the digits at the front of the
text do: their value only grows, so it does not matter after which of them the
limit is passed. -/
theorem magnitude_eq_outOfRange_iff : ∀ {cs : List Char} {acc : ℕ}, acc < 2 ^ 64 →
    (magnitude acc cs = .error .outOfRange ↔
      2 ^ 64 ≤ Nat.ofDigitChars 10 (cs.takeWhile Char.isDigit) acc)
  | [], acc, hacc => by
    simp only [magnitude, reduceCtorEq, List.takeWhile_nil, Nat.ofDigitChars_nil, false_iff]
    omega
  | c :: cs, acc, hacc => by
    unfold magnitude
    by_cases hc : c.isDigit = true
    · rw [if_pos hc, List.takeWhile_cons_of_pos hc, Nat.ofDigitChars_cons]
      by_cases hnext : 10 * acc + digitValue c < 2 ^ 64
      · simp only [show 10 * acc + digitValue c < 0x10000000000000000 from hnext, if_true]
        exact magnitude_eq_outOfRange_iff hnext
      · have hover : ¬ 10 * acc + digitValue c < 0x10000000000000000 := hnext
        simp only [hover, if_false, true_iff]
        calc 2 ^ 64 ≤ 10 * acc + digitValue c := not_lt.mp hnext
          _ ≤ _ := le_ofDigitChars _ _
    · rw [if_neg hc, List.takeWhile_cons_of_neg hc, Nat.ofDigitChars_nil]
      simp only [Except.error.injEq, reduceCtorEq, false_iff]
      omega

theorem readUnsigned_eq_outOfRange_iff {cs : List Char} :
    readUnsigned cs = .error .outOfRange ↔
      2 ^ 64 ≤ Nat.ofDigitChars 10 (cs.takeWhile Char.isDigit) 0 := by
  cases cs with
  | nil => simp [readUnsigned]
  | cons c cs => exact magnitude_eq_outOfRange_iff (show 0 < 2 ^ 64 by decide)

/-! ### Signs -/

theorem error_of_nonnegative {m : ℕ} {e : NumberError} (h : nonnegative m = .error e) :
    e = .outOfRange := by
  unfold nonnegative at h
  split_ifs at h
  exact (Except.error.inj h).symm

theorem error_of_negative {m : ℕ} {e : NumberError} (h : negative m = .error e) :
    e = .outOfRange := by
  unfold negative at h
  split_ifs at h
  exact (Except.error.inj h).symm

/-- Digits behind a sign are out of range if those at the front are, or if they
are all that there is and `sign` does not take their value. -/
theorem bind_readUnsigned_eq_outOfRange_iff {sign : ℕ → Except NumberError Int64} {value : ℕ → ℤ}
    (hsign : ∀ {m n}, sign m = .ok n ↔ value m = n.toInt)
    (herror : ∀ {m e}, sign m = .error e → e = .outOfRange) {cs : List Char} :
    (readUnsigned cs).bind sign = .error .outOfRange ↔
      2 ^ 64 ≤ Nat.ofDigitChars 10 (cs.takeWhile Char.isDigit) 0 ∨
        (cs ≠ [] ∧ ∀ c ∈ cs, c.isDigit = true) ∧
          ¬ ∃ o : Int64, o.toInt = value (Nat.ofDigitChars 10 cs 0) := by
  rw [← readUnsigned_eq_outOfRange_iff]
  cases hread : readUnsigned cs with
  | error e =>
    -- all digits and yet refused: then the value left 64 bits on the way
    have hdigits : (cs ≠ [] ∧ ∀ c ∈ cs, c.isDigit = true) → e = .outOfRange := by
      rintro ⟨hne, hdigits⟩
      have hover : ¬ Nat.ofDigitChars 10 cs 0 < 2 ^ 64 := by
        intro hlt
        have hok := readUnsigned_eq_ok_iff.mpr ⟨hne, hdigits, rfl, hlt⟩
        rw [hread] at hok
        cases hok
      have hfront : cs.takeWhile Char.isDigit = cs := List.takeWhile_eq_self_iff.mpr hdigits
      have hrange : readUnsigned cs = .error .outOfRange := by
        rw [readUnsigned_eq_outOfRange_iff, hfront]
        exact not_lt.mp hover
      rw [hread] at hrange
      exact Except.error.inj hrange
    show Except.error e = _ ↔ _
    rw [Except.error.injEq, Except.error.injEq]
    constructor
    · exact Or.inl
    · rintro (h | ⟨h, -⟩)
      · exact h
      · exact hdigits h
  | ok m =>
    obtain ⟨hne, hdigits, rfl, -⟩ := readUnsigned_eq_ok_iff.mp hread
    show sign _ = .error .outOfRange ↔ _
    constructor
    · intro h
      refine Or.inr ⟨⟨hne, hdigits⟩, ?_⟩
      rintro ⟨o, ho⟩
      rw [hsign.mpr ho.symm] at h
      cases h
    · rintro (h | ⟨-, hnone⟩)
      · cases h
      · cases hs : sign (Nat.ofDigitChars 10 cs 0) with
        | ok o => exact absurd ⟨o, (hsign.mp hs).symm⟩ hnone
        | error e => rw [herror hs]

/-! ### Numerals -/

theorem not_digit_plus {digits : List Char} : ¬ ∀ c ∈ '+' :: digits, c.isDigit = true :=
  fun h => absurd (h '+' List.mem_cons_self) (by decide)

theorem not_digit_minus {digits : List Char} : ¬ ∀ c ∈ '-' :: digits, c.isDigit = true :=
  fun h => absurd (h '-' List.mem_cons_self) (by decide)

theorem numeral_plus_iff {digits : List Char} {n : ℤ} :
    Numeral ('+' :: digits) n ↔
      (digits ≠ [] ∧ ∀ c ∈ digits, c.isDigit = true) ∧ n = Nat.ofDigitChars 10 digits 0 := by
  constructor
  · intro h
    cases h with
    | unsigned _ hdigits => exact absurd hdigits not_digit_plus
    | plus hne hdigits => exact ⟨⟨hne, hdigits⟩, rfl⟩
  · rintro ⟨⟨hne, hdigits⟩, rfl⟩
    exact .plus hne hdigits

theorem numeral_minus_iff {digits : List Char} {n : ℤ} :
    Numeral ('-' :: digits) n ↔
      (digits ≠ [] ∧ ∀ c ∈ digits, c.isDigit = true) ∧ n = -(Nat.ofDigitChars 10 digits 0 : ℤ) := by
  constructor
  · intro h
    cases h with
    | unsigned _ hdigits => exact absurd hdigits not_digit_minus
    | minus hne hdigits => exact ⟨⟨hne, hdigits⟩, rfl⟩
  · rintro ⟨⟨hne, hdigits⟩, rfl⟩
    exact .minus hne hdigits

theorem numeral_unsigned_iff {cs : List Char} (hplus : ∀ digits, cs ≠ '+' :: digits)
    (hminus : ∀ digits, cs ≠ '-' :: digits) {n : ℤ} :
    Numeral cs n ↔
      (cs ≠ [] ∧ ∀ c ∈ cs, c.isDigit = true) ∧ n = Nat.ofDigitChars 10 cs 0 := by
  constructor
  · intro h
    cases h with
    | unsigned hne hdigits => exact ⟨⟨hne, hdigits⟩, rfl⟩
    | plus _ _ => exact absurd rfl (hplus _)
    | minus _ _ => exact absurd rfl (hminus _)
  · rintro ⟨⟨hne, hdigits⟩, rfl⟩
    exact .unsigned hne hdigits

/-- The second part of `Outsized`, for a sign that makes `value` of the
digits. -/
theorem exists_numeral_iff {cs digits : List Char} (value : ℕ → ℤ)
    (hcs : ∀ {n : ℤ}, Numeral cs n ↔
      (digits ≠ [] ∧ ∀ c ∈ digits, c.isDigit = true) ∧ n = value (Nat.ofDigitChars 10 digits 0)) :
    (∃ n, Numeral cs n ∧ ¬ (-2 ^ 63 ≤ n ∧ n ≤ 2 ^ 63 - 1)) ↔
      (digits ≠ [] ∧ ∀ c ∈ digits, c.isDigit = true) ∧
        ¬ ∃ o : Int64, o.toInt = value (Nat.ofDigitChars 10 digits 0) := by
  constructor
  · rintro ⟨n, hn, hout⟩
    obtain ⟨hdigits, rfl⟩ := hcs.mp hn
    exact ⟨hdigits, fun h => hout (exists_toInt_eq_iff.mp h)⟩
  · rintro ⟨hdigits, hout⟩
    exact ⟨_, hcs.mpr ⟨hdigits, rfl⟩, fun h => hout (exists_toInt_eq_iff.mpr h)⟩

/-- **Which texts are out of range.** -/
theorem readInt64_eq_outOfRange_iff {cs : List Char} :
    readInt64 cs = .error .outOfRange ↔ Outsized cs := by
  unfold Outsized
  by_cases hplus : ∃ digits, cs = '+' :: digits
  · obtain ⟨digits, rfl⟩ := hplus
    rw [exists_numeral_iff (fun m => m) numeral_plus_iff]
    exact bind_readUnsigned_eq_outOfRange_iff nonnegative_eq_ok_iff error_of_nonnegative
  · by_cases hminus : ∃ digits, cs = '-' :: digits
    · obtain ⟨digits, rfl⟩ := hminus
      rw [exists_numeral_iff (fun m => -m) numeral_minus_iff]
      exact bind_readUnsigned_eq_outOfRange_iff negative_eq_ok_iff error_of_negative
    · have hplus' : ∀ digits, cs ≠ '+' :: digits := fun digits h => hplus ⟨digits, h⟩
      have hminus' : ∀ digits, cs ≠ '-' :: digits := fun digits h => hminus ⟨digits, h⟩
      have hread : readInt64 cs = (readUnsigned cs).bind nonnegative := by
        unfold readInt64
        split
        · exact absurd rfl (hplus' _)
        · exact absurd rfl (hminus' _)
        · rfl
      have hbare : unsigned cs = cs := by
        unfold unsigned
        split
        · exact absurd rfl (hplus' _)
        · exact absurd rfl (hminus' _)
        · rfl
      rw [hread, hbare, exists_numeral_iff (fun m => m) (numeral_unsigned_iff hplus' hminus')]
      exact bind_readUnsigned_eq_outOfRange_iff nonnegative_eq_ok_iff error_of_nonnegative

/-! ### A register of 64 bits -/

/-- The least value that cannot be multiplied by ten in 64 bits. -/
def cutoff : UInt64 := 0x199999999999999A

/-- Reads digits on top of `acc` in a register of 64 bits. A value from the
cutoff on is not multiplied, and a sum that is less than its first part has
wrapped. -/
def accumulate (acc : UInt64) : List Char → Except NumberError UInt64
  | [] => .ok acc
  | c :: rest =>
    if c.isDigit then
      if cutoff ≤ acc then .error .outOfRange
      else
        let scaled := acc * 10
        let next := scaled + UInt64.ofNat (digitValue c)
        if next < scaled then .error .outOfRange else accumulate next rest
    else .error .malformed

theorem cutoff_le_iff {acc : UInt64} : cutoff ≤ acc ↔ 2 ^ 64 ≤ 10 * acc.toNat := by
  rw [UInt64.le_iff_toNat_le]
  show 0x199999999999999A ≤ acc.toNat ↔ _
  omega

/-- The sum has wrapped if and only if it does not fit, and is the true one
otherwise. -/
theorem toNat_scaled_add {acc : UInt64} {d : ℕ} (hacc : 10 * acc.toNat < 2 ^ 64) (hd : d ≤ 9) :
    (acc * 10 + UInt64.ofNat d < acc * 10 ↔ 2 ^ 64 ≤ 10 * acc.toNat + d) ∧
      (10 * acc.toNat + d < 2 ^ 64 →
        (acc * 10 + UInt64.ofNat d).toNat = 10 * acc.toNat + d) := by
  have hscaled : (acc * 10).toNat = 10 * acc.toNat := by
    rw [UInt64.toNat_mul]
    show acc.toNat * 10 % 2 ^ 64 = _
    omega
  have hdigit : (UInt64.ofNat d).toNat = d := UInt64.toNat_ofNat_of_lt' (by
    show d < 2 ^ 64
    omega)
  rw [UInt64.lt_iff_toNat_lt, UInt64.toNat_add, hscaled, hdigit]
  omega

/-- **The register reads what the digits are worth**, and stops where they no
longer fit. -/
theorem map_toNat_accumulate : ∀ (cs : List Char) (acc : UInt64),
    (accumulate acc cs).map UInt64.toNat = magnitude acc.toNat cs
  | [], acc => rfl
  | c :: cs, acc => by
    unfold accumulate magnitude
    by_cases hc : c.isDigit = true
    · rw [if_pos hc, if_pos hc]
      by_cases hcut : cutoff ≤ acc
      · have hover : ¬ 10 * acc.toNat + digitValue c < 0x10000000000000000 := by
          have := cutoff_le_iff.mp hcut
          omega
        simp only [hcut, if_true, hover, if_false]
        rfl
      · have hfits : 10 * acc.toNat < 2 ^ 64 := not_le.mp fun h => hcut (cutoff_le_iff.mpr h)
        obtain ⟨hwrap, hsum⟩ := toNat_scaled_add hfits (digitValue_le hc)
        simp only [hcut, if_false, hwrap]
        by_cases hnext : 10 * acc.toNat + digitValue c < 2 ^ 64
        · have hnext' : 10 * acc.toNat + digitValue c < 0x10000000000000000 := hnext
          rw [if_neg (not_le.mpr hnext), if_pos hnext', map_toNat_accumulate cs, hsum hnext]
        · have hnext' : ¬ 10 * acc.toNat + digitValue c < 0x10000000000000000 := hnext
          rw [if_pos (not_lt.mp hnext), if_neg hnext']
          rfl
    · rw [if_neg hc, if_neg hc]
      rfl

end Decimal

namespace Listing

/-- The word is refused, and this is the reason that is shown. -/
def RefusedFor (word : List Char) (reason : String) : Prop :=
  ∃ e : NumberError, readOffset word = .error e ∧ e.message = reason

theorem message_injective : Function.Injective NumberError.message := by
  intro e e' h
  cases e <;> cases e' <;> simp_all [NumberError.message]

theorem refusedFor_message_iff {word : List Char} {e : NumberError} :
    RefusedFor word e.message ↔ readOffset word = .error e := by
  constructor
  · rintro ⟨e', hread, hmessage⟩
    rw [← message_injective hmessage]
    exact hread
  · exact fun h => ⟨e, h, rfl⟩

/-- `null` is no numeral and has no digits. -/
theorem not_outsized_null : ¬ Decimal.Outsized "null".toList := by
  rintro (hdigits | ⟨n, hn, -⟩)
  · exact absurd hdigits (by decide)
  · rcases hn.digit_or_sign (c := 'n') (by decide) with hdigit | hsign | hsign
    · cases hdigit
    · cases hsign
    · cases hsign

theorem readOffset_eq_outOfRange_iff {word : List Char} :
    readOffset word = .error .outOfRange ↔ Decimal.Outsized word := by
  rw [← Decimal.readInt64_eq_outOfRange_iff]
  by_cases hnull : word = "null".toList
  · have hread : Decimal.readInt64 word ≠ .error .outOfRange := by
      rw [hnull]
      exact fun h => not_outsized_null (Decimal.readInt64_eq_outOfRange_iff.mp h)
    have hok : readOffset word = .ok none := by rw [hnull]; rfl
    rw [hok]
    exact iff_of_false (by simp) hread
  · unfold readOffset
    rw [if_neg hnull]
    cases Decimal.readInt64 word <;> simp [Except.map]

theorem exists_readOffset_iff {word : List Char} {n : ℤ} :
    (∃ o : Int64, readOffset word = .ok (some o) ∧ o.toInt = n) ↔
      Decimal.Numeral word n ∧ -2 ^ 63 ≤ n ∧ n ≤ 2 ^ 63 - 1 := by
  rw [← Decimal.exists_readInt64_iff]
  refine exists_congr fun o => and_congr_left fun _ => ?_
  rw [readOffset_eq_ok_iff, Decimal.readInt64_eq_ok_iff]
  constructor
  · intro h
    cases h with
    | numeral h => exact h
  · exact .numeral

theorem readOffset_eq_null_iff {word : List Char} :
    readOffset word = .ok none ↔ word = "null".toList := by
  rw [readOffset_eq_ok_iff]
  constructor
  · intro h
    cases h with
    | null => rfl
  · rintro rfl
    exact .null

/-- **Integers are accepted by value.** A word is read as null if and only if
it is `null`, and as an integer if and only if it is a numeral of the integer,
with any number of leading zeros, and the integer fits in 64 bits. All other
words are refused. The reason is that the value is out of range if and only if
the digits behind the sign, up to the first other character, are worth 2^64 or
more, or the whole word is a numeral whose value does not fit. Every other
refused word is called malformed. None of this depends on whether the digits
are read as a natural number or in a register of 64 bits. -/
theorem offsets_read_by_value (word : List Char) :
    (readOffset word = .ok none ↔ word = "null".toList) ∧
    (∀ n : ℤ, (∃ o : Int64, readOffset word = .ok (some o) ∧ o.toInt = n) ↔
      Decimal.Numeral word n ∧ -2 ^ 63 ≤ n ∧ n ≤ 2 ^ 63 - 1) ∧
    (RefusedFor word "value out of range" ↔ Decimal.Outsized word) ∧
    (RefusedFor word "invalid syntax" ↔
      word ≠ "null".toList ∧
        (¬ ∃ n : ℤ, Decimal.Numeral word n ∧ -2 ^ 63 ≤ n ∧ n ≤ 2 ^ 63 - 1) ∧
        ¬ Decimal.Outsized word) ∧
    ∀ digits, (Decimal.accumulate 0 digits).map UInt64.toNat = Decimal.magnitude 0 digits := by
  have hrange : RefusedFor word "value out of range" ↔ Decimal.Outsized word :=
    (refusedFor_message_iff (e := .outOfRange)).trans readOffset_eq_outOfRange_iff
  refine ⟨readOffset_eq_null_iff, fun n => exists_readOffset_iff, hrange, ?_,
    fun digits => Decimal.map_toNat_accumulate digits 0⟩
  have hmalformed : RefusedFor word "invalid syntax" ↔ readOffset word = .error .malformed :=
    refusedFor_message_iff (e := .malformed)
  rw [hmalformed, ← readOffset_eq_outOfRange_iff, ne_eq, ← readOffset_eq_null_iff]
  simp only [← exists_readOffset_iff]
  -- of the four ends of a reading, the last is what the others leave
  cases hread : readOffset word with
  | ok offset =>
    cases offset with
    | none => simp
    | some o => simp
  | error e => cases e <;> simp

end Listing
end OffsetGaps

/-
# Numerals, and the keys among texts

A numeral is an optional sign and one or more digits, leading zeros allowed
(`Decimal.Numeral`). Reading an integer accepts exactly the numerals whose
value fits in 64 bits, and gives that value (`Decimal.readInt64_eq_ok_iff`):
the digits are read left to right, and since their value only grows, the
check that is made after each of them comes to a check of the whole.

Many numerals stand for one integer and one of them is its decimal form, so
a key is read back to the offset it was made from, and every other text is
refused, with a message that tells the three causes apart.

Key definitions: `Decimal.Numeral`, `Key.RefusedAs`.
Key theorems: `Decimal.magnitude_eq_ok_iff`, `Decimal.readInt64_eq_ok_iff`,
`Decimal.exists_readInt64_iff`, `Key.read_eq_notCanonical_iff`,
`Key.read_inverts_ofOffset`.
-/
import Mathlib.Algebra.Ring.Int.Defs
import Mathlib.Data.Set.Operations
import OffsetGaps.Proofs.Decimal

namespace OffsetGaps
namespace Decimal

/-- **Numerals.** `Numeral cs n`: the text `cs` is an optional sign and one or
more digits, and `n` is its value. -/
inductive Numeral : List Char → ℤ → Prop where
  | unsigned {digits : List Char} (hne : digits ≠ []) (hdigits : ∀ c ∈ digits, c.isDigit = true) :
    Numeral digits (Nat.ofDigitChars 10 digits 0)
  | plus {digits : List Char} (hne : digits ≠ []) (hdigits : ∀ c ∈ digits, c.isDigit = true) :
    Numeral ('+' :: digits) (Nat.ofDigitChars 10 digits 0)
  | minus {digits : List Char} (hne : digits ≠ []) (hdigits : ∀ c ∈ digits, c.isDigit = true) :
    Numeral ('-' :: digits) (-(Nat.ofDigitChars 10 digits 0 : ℤ))

/-! ### Digits -/

theorem digitValue_le {c : Char} (h : c.isDigit = true) : digitValue c ≤ 9 := by
  obtain ⟨-, hle⟩ : 48 ≤ c.toNat ∧ c.toNat ≤ 57 := Char.isDigit_iff_toNat.mp h
  show c.toNat - 48 ≤ 9
  omega

/-- What is read is made of digits, and its value fits in 64 bits. -/
theorem digits_of_magnitude : ∀ {cs : List Char} {acc m : ℕ}, acc < 2 ^ 64 →
    magnitude acc cs = .ok m →
      (∀ c ∈ cs, c.isDigit = true) ∧ Nat.ofDigitChars 10 cs acc = m ∧ m < 2 ^ 64
  | [], acc, m, hacc, h => by
    obtain rfl : acc = m := Except.ok.inj h
    exact ⟨by simp, by simp, hacc⟩
  | c :: cs, acc, m, _, h => by
    unfold magnitude at h
    by_cases hc : c.isDigit = true
    · rw [if_pos hc] at h
      by_cases hnext : 10 * acc + digitValue c < 2 ^ 64
      · simp only [show 10 * acc + digitValue c < 0x10000000000000000 from hnext, if_true] at h
        obtain ⟨hcs, hvalue, hm⟩ := digits_of_magnitude hnext h
        rw [Nat.ofDigitChars_cons]
        exact ⟨List.forall_mem_cons.mpr ⟨hc, hcs⟩, hvalue, hm⟩
      · have hover : ¬ 10 * acc + digitValue c < 0x10000000000000000 := hnext
        simp [hover] at h
    · simp [hc] at h

theorem magnitude_eq_ok_iff {cs : List Char} {acc m : ℕ} (hacc : acc < 2 ^ 64) :
    magnitude acc cs = .ok m ↔
      (∀ c ∈ cs, c.isDigit = true) ∧ Nat.ofDigitChars 10 cs acc = m ∧ m < 2 ^ 64 := by
  refine ⟨digits_of_magnitude hacc, ?_⟩
  rintro ⟨hdigits, rfl, hm⟩
  exact magnitude_of_digits cs acc hdigits hm

theorem readUnsigned_eq_ok_iff {cs : List Char} {m : ℕ} :
    readUnsigned cs = .ok m ↔
      cs ≠ [] ∧ (∀ c ∈ cs, c.isDigit = true) ∧ Nat.ofDigitChars 10 cs 0 = m ∧ m < 2 ^ 64 := by
  cases cs with
  | nil => simp [readUnsigned]
  | cons c cs =>
    have hread : readUnsigned (c :: cs) = magnitude 0 (c :: cs) := rfl
    simp only [hread, magnitude_eq_ok_iff (show 0 < 2 ^ 64 by decide), ne_eq, reduceCtorEq,
      not_false_eq_true, true_and]

/-! ### Signs -/

/-- The integers of 64 bits are those from -2^63 to 2^63 - 1. -/
theorem exists_toInt_eq_iff {n : ℤ} :
    (∃ o : Int64, o.toInt = n) ↔ -2 ^ 63 ≤ n ∧ n ≤ 2 ^ 63 - 1 := by
  constructor
  · rintro ⟨o, rfl⟩
    have hle := o.le_toInt
    have hlt := o.toInt_lt
    omega
  · rintro ⟨hlow, hhigh⟩
    exact ⟨Int64.ofInt n, Int64.toInt_ofInt_of_le hlow (by omega)⟩

theorem nonnegative_eq_ok_iff {m : ℕ} {n : Int64} : nonnegative m = .ok n ↔ (m : ℤ) = n.toInt := by
  have hlt := n.toInt_lt
  unfold nonnegative
  by_cases hm : m < 0x8000000000000000
  · have hvalue : (Int64.ofNat m).toInt = m := Int64.toInt_ofNat_of_lt hm
    rw [if_pos hm, Except.ok.injEq, ← Int64.toInt_inj, hvalue]
  · rw [if_neg hm]
    simp only [reduceCtorEq, false_iff]
    omega

theorem negative_eq_ok_iff {m : ℕ} {n : Int64} : negative m = .ok n ↔ -(m : ℤ) = n.toInt := by
  have hle := n.le_toInt
  unfold negative
  by_cases hm : m ≤ 0x8000000000000000
  · have hvalue : (Int64.ofInt (-(m : ℤ))).toInt = -(m : ℤ) :=
      Int64.toInt_ofInt_of_le (by omega) (by omega)
    rw [if_pos hm, Except.ok.injEq, ← Int64.toInt_inj, hvalue]
  · rw [if_neg hm]
    simp only [reduceCtorEq, false_iff]
    omega

/-- Digits behind a sign are read as the signed value, if `sign` takes
exactly the magnitudes whose signed value fits. -/
theorem bind_readUnsigned_eq_ok_iff {sign : ℕ → Except NumberError Int64} {value : ℕ → ℤ}
    (hsign : ∀ {m n}, sign m = .ok n ↔ value m = n.toInt)
    (hfits : ∀ {m} {n : Int64}, value m = n.toInt → m < 2 ^ 64) {cs : List Char} {n : Int64} :
    (readUnsigned cs).bind sign = .ok n ↔
      cs ≠ [] ∧ (∀ c ∈ cs, c.isDigit = true) ∧ value (Nat.ofDigitChars 10 cs 0) = n.toInt := by
  constructor
  · intro h
    cases hread : readUnsigned cs with
    | error e => rw [hread] at h; cases h
    | ok m =>
      rw [hread] at h
      obtain ⟨hne, hdigits, rfl, -⟩ := readUnsigned_eq_ok_iff.mp hread
      exact ⟨hne, hdigits, hsign.mp h⟩
  · rintro ⟨hne, hdigits, hvalue⟩
    have hread := readUnsigned_eq_ok_iff.mpr ⟨hne, hdigits, rfl, hfits hvalue⟩
    rw [hread]
    exact hsign.mpr hvalue

theorem bind_nonnegative_eq_ok_iff {cs : List Char} {n : Int64} :
    (readUnsigned cs).bind nonnegative = .ok n ↔
      cs ≠ [] ∧ (∀ c ∈ cs, c.isDigit = true) ∧ (Nat.ofDigitChars 10 cs 0 : ℤ) = n.toInt := by
  refine bind_readUnsigned_eq_ok_iff nonnegative_eq_ok_iff fun {m n} hvalue => ?_
  have hlt := n.toInt_lt
  omega

theorem bind_negative_eq_ok_iff {cs : List Char} {n : Int64} :
    (readUnsigned cs).bind negative = .ok n ↔
      cs ≠ [] ∧ (∀ c ∈ cs, c.isDigit = true) ∧ -(Nat.ofDigitChars 10 cs 0 : ℤ) = n.toInt := by
  refine bind_readUnsigned_eq_ok_iff negative_eq_ok_iff fun {m n} hvalue => ?_
  have hle := n.le_toInt
  omega

/-! ### Numerals -/

/-- **Integers are read by value.** -/
theorem readInt64_eq_ok_iff {cs : List Char} {n : Int64} :
    readInt64 cs = .ok n ↔ Numeral cs n.toInt := by
  constructor
  · intro h
    unfold readInt64 at h
    split at h
    · obtain ⟨hne, hdigits, hvalue⟩ := bind_nonnegative_eq_ok_iff.mp h
      rw [← hvalue]
      exact .plus hne hdigits
    · obtain ⟨hne, hdigits, hvalue⟩ := bind_negative_eq_ok_iff.mp h
      rw [← hvalue]
      exact .minus hne hdigits
    · obtain ⟨hne, hdigits, hvalue⟩ := bind_nonnegative_eq_ok_iff.mp h
      rw [← hvalue]
      exact .unsigned hne hdigits
  · intro h
    generalize hz : n.toInt = z at h
    cases h with
    | unsigned hne hdigits =>
      rw [readInt64_digits hdigits]
      exact bind_nonnegative_eq_ok_iff.mpr ⟨hne, hdigits, hz.symm⟩
    | plus hne hdigits => exact bind_nonnegative_eq_ok_iff.mpr ⟨hne, hdigits, hz.symm⟩
    | minus hne hdigits => exact bind_negative_eq_ok_iff.mpr ⟨hne, hdigits, hz.symm⟩

theorem Numeral.ne_nil {cs : List Char} {n : ℤ} (h : Numeral cs n) : cs ≠ [] := by
  cases h with
  | unsigned hne _ => exact hne
  | plus _ _ => exact List.cons_ne_nil _ _
  | minus _ _ => exact List.cons_ne_nil _ _

/-- A numeral holds digits and a sign, and nothing else. -/
theorem Numeral.digit_or_sign {cs : List Char} {n : ℤ} (h : Numeral cs n) {c : Char} (hc : c ∈ cs) :
    c.isDigit = true ∨ c = '+' ∨ c = '-' := by
  cases h with
  | unsigned _ hdigits => exact Or.inl (hdigits c hc)
  | plus _ hdigits =>
    rcases List.mem_cons.mp hc with hsign | hrest
    · exact Or.inr (Or.inl hsign)
    · exact Or.inl (hdigits c hrest)
  | minus _ hdigits =>
    rcases List.mem_cons.mp hc with hsign | hrest
    · exact Or.inr (Or.inr hsign)
    · exact Or.inl (hdigits c hrest)

/-- An integer is read if and only if the text is a numeral of it and it fits
in 64 bits. -/
theorem exists_readInt64_iff {cs : List Char} {n : ℤ} :
    (∃ o, readInt64 cs = .ok o ∧ o.toInt = n) ↔ Numeral cs n ∧ -2 ^ 63 ≤ n ∧ n ≤ 2 ^ 63 - 1 := by
  rw [← exists_toInt_eq_iff]
  constructor
  · rintro ⟨o, hread, rfl⟩
    exact ⟨readInt64_eq_ok_iff.mp hread, o, rfl⟩
  · rintro ⟨hnumeral, o, rfl⟩
    exact ⟨o, readInt64_eq_ok_iff.mpr hnumeral, rfl⟩

end Decimal

/-! ### Keys -/

namespace Key

theorem toList_ofOffset (o : Int64) : (ofOffset o).toList = '@' :: Decimal.write o.toInt := by
  simp [ofOffset, chars]

theorem read_of_unmarked {k : String} (h : k.toList.head? ≠ some '@') :
    read k = .error (.missingMark k) := by
  unfold read
  split
  · rename_i digits hchars
    rw [hchars] at h
    exact absurd rfl h
  · rfl

theorem read_of_marked {k : String} {digits : List Char} (h : k.toList = '@' :: digits) :
    read k =
      match Decimal.readInt64 digits with
      | .ok o => if ofOffset o = k then .ok o else .error (.notCanonical k)
      | .error _ => .error (.notInteger k) := by
  unfold read
  cases hread : Decimal.readInt64 digits <;> simp [h, hread]

/-- Only the key of an offset is read as the offset. -/
theorem eq_of_read {k : String} {o : Int64} (h : read k = .ok o) : k = ofOffset o := by
  by_cases hmark : k.toList.head? = some '@'
  · obtain ⟨digits, hchars⟩ := List.head?_eq_some_iff.mp hmark
    rw [read_of_marked hchars] at h
    split at h
    · split at h
      · rename_i hkey
        rw [← Except.ok.inj h, hkey]
      · cases h
    · cases h
  · rw [read_of_unmarked hmark] at h
    cases h

theorem read_eq_ok_iff {k : String} {o : Int64} : read k = .ok o ↔ k = ofOffset o := by
  refine ⟨eq_of_read, ?_⟩
  rintro rfl
  exact read_ofOffset o

theorem read_eq_missingMark_iff {k : String} :
    read k = .error (.missingMark k) ↔ k.toList.head? ≠ some '@' := by
  refine ⟨fun h hmark => ?_, read_of_unmarked⟩
  obtain ⟨digits, hchars⟩ := List.head?_eq_some_iff.mp hmark
  rw [read_of_marked hchars] at h
  split at h
  · split at h <;> cases h
  · cases h

/-- Not canonical are the numerals of 64-bit integers other than their
decimal forms. -/
theorem read_eq_notCanonical_iff {k : String} :
    read k = .error (.notCanonical k) ↔
      ∃ rest n, k.toList = '@' :: rest ∧ Decimal.Numeral rest n ∧ -2 ^ 63 ≤ n ∧ n ≤ 2 ^ 63 - 1 ∧
        rest ≠ Decimal.write n := by
  constructor
  · intro h
    by_cases hmark : k.toList.head? = some '@'
    · obtain ⟨rest, hchars⟩ := List.head?_eq_some_iff.mp hmark
      rw [read_of_marked hchars] at h
      cases hread : Decimal.readInt64 rest with
      | error e => simp [hread] at h
      | ok o =>
        have hother : ofOffset o ≠ k := by
          intro heq
          simp [hread, heq] at h
        obtain ⟨hnumeral, hrange⟩ := Decimal.exists_readInt64_iff.mp ⟨o, hread, rfl⟩
        refine ⟨rest, o.toInt, hchars, hnumeral, hrange.1, hrange.2, ?_⟩
        rintro rfl
        exact hother (String.toList_inj.mp ((toList_ofOffset o).trans hchars.symm))
    · rw [read_of_unmarked hmark] at h
      cases h
  · rintro ⟨rest, n, hchars, hnumeral, hlow, hhigh, hother⟩
    obtain ⟨o, hread, rfl⟩ := Decimal.exists_readInt64_iff.mpr ⟨hnumeral, hlow, hhigh⟩
    have hne : ofOffset o ≠ k := by
      rintro rfl
      rw [toList_ofOffset] at hchars
      exact hother (List.cons.inj hchars).2.symm
    rw [read_of_marked hchars]
    simp [hread, hne]

theorem error_of_read {k : String} {e : KeyError} (h : read k = .error e) :
    e = .missingMark k ∨ e = .notInteger k ∨ e = .notCanonical k := by
  unfold read at h
  split at h
  · split at h
    · split at h <;> cases h
      exact Or.inr (Or.inr rfl)
    · cases h
      exact Or.inr (Or.inl rfl)
  · cases h
    exact Or.inl rfl

/-- What an error tells of a key. -/
def finding : KeyError → String
  | .missingMark _ => ": missing \"@\" prefix"
  | .notInteger _ => ""
  | .notCanonical _ => ": not canonical"

/-- The message of an error is the key, what is said of it, and the common
end. -/
theorem message_of_read {k : String} {e : KeyError} (h : read k = .error e) :
    e.message = Quoted.text k ++ finding e ++ ": invalid layout key" := by
  rcases error_of_read h with rfl | rfl | rfl
  · simp only [KeyError.message, finding, String.append_assoc]
    rfl
  · simp [KeyError.message, finding]
  · simp only [KeyError.message, finding, String.append_assoc]
    rfl

/-- The text is refused with a message that quotes it, tells this of it, and
calls it an invalid key. -/
def RefusedAs (k what : String) : Prop :=
  ∃ e, read k = .error e ∧ e.message = Quoted.text k ++ what ++ ": invalid layout key"

theorem refusedAs_iff {k what : String} :
    RefusedAs k what ↔ ∃ e, read k = .error e ∧ finding e = what := by
  refine exists_congr fun e => and_congr_right fun he => ?_
  rw [message_of_read he, String.append_left_inj, String.append_right_inj]

/-- Of one text, no two errors tell the same. -/
theorem refusedAs_finding_iff {k : String} {e : KeyError}
    (he : e = .missingMark k ∨ e = .notInteger k ∨ e = .notCanonical k) :
    RefusedAs k (finding e) ↔ read k = .error e := by
  rw [refusedAs_iff]
  refine ⟨?_, fun h => ⟨e, h, rfl⟩⟩
  rintro ⟨e', hread, hfinding⟩
  have hsame : e' = e := by
    rcases he with rfl | rfl | rfl <;> rcases error_of_read hread with rfl | rfl | rfl <;>
      simp_all [finding]
  rw [← hsame]
  exact hread

/-- **Keys and offsets are one to one.** A text is read as an offset if and
only if it is the key of the offset. Every other text is refused, with a
message that quotes it. The message says that the mark is missing if and only
if the text does not start with it; that the text is not canonical if and
only if a numeral follows the mark, whose value fits in 64 bits and has
another decimal form; and nothing more in all other cases. -/
theorem read_inverts_ofOffset (k : String) :
    (∀ o, read k = .ok o ↔ k = ofOffset o) ∧ Function.Injective ofOffset ∧
    ((∃ o, read k = .ok o) ↔ k ∈ Set.range ofOffset) ∧
    (k ∉ Set.range ofOffset ↔
      RefusedAs k ": missing \"@\" prefix" ∨ RefusedAs k ": not canonical" ∨ RefusedAs k "") ∧
    (RefusedAs k ": missing \"@\" prefix" ↔ k.toList.head? ≠ some '@') ∧
    (RefusedAs k ": not canonical" ↔
      ∃ rest n, k.toList = '@' :: rest ∧ Decimal.Numeral rest n ∧ -2 ^ 63 ≤ n ∧ n ≤ 2 ^ 63 - 1 ∧
        rest ≠ Decimal.write n) := by
  have hrange : (∃ o, read k = .ok o) ↔ k ∈ Set.range ofOffset := by
    simp only [read_eq_ok_iff, Set.mem_range]
    exact exists_congr fun o => eq_comm
  have hmark := refusedAs_finding_iff (k := k) (e := .missingMark k) (Or.inl rfl)
  have hcanonical := refusedAs_finding_iff (k := k) (e := .notCanonical k) (Or.inr (Or.inr rfl))
  refine ⟨fun o => read_eq_ok_iff, ofOffset_injective, hrange, ?_,
    hmark.trans read_eq_missingMark_iff, hcanonical.trans read_eq_notCanonical_iff⟩
  rw [← hrange]
  cases hread : read k with
  | ok o => simp [refusedAs_iff, hread]
  | error e =>
    simp only [refusedAs_iff, hread]
    rcases error_of_read hread with rfl | rfl | rfl <;> simp [finding]

end Key
end OffsetGaps

/-
# Offsets survive being written

An integer written in decimal is read back as itself: `Decimal.write` gives
digits only, at least one, behind the sign of a negative number, and
`Decimal.magnitude` rebuilds the value from them without reaching its
64-bit limit. So every key is read as the offset it was made from, and no
two offsets share a key.

Key theorems: `Decimal.magnitude_of_digits`, `Decimal.readInt64_write`,
`Key.read_ofOffset`, `Key.ofOffset_injective`.
-/
import Mathlib.Algebra.Ring.Nat
import Mathlib.Logic.Function.Basic
import OffsetGaps.Layout.Key

namespace OffsetGaps
namespace Decimal

/-- Reading more digits never makes the value smaller. -/
theorem le_ofDigitChars (cs : List Char) (acc : ℕ) : acc ≤ Nat.ofDigitChars 10 cs acc := by
  rw [Nat.ofDigitChars_eq_ofDigitChars_zero]
  have hpos : 0 < 10 ^ cs.length := Nat.pow_pos (by decide)
  have := Nat.le_mul_of_pos_left acc hpos
  omega

/-- Digits whose value fits in 64 bits are read as that value: the value of
a beginning is at most the value of the whole, so no step leaves the range. -/
theorem magnitude_of_digits : ∀ (cs : List Char) (acc : ℕ), (∀ c ∈ cs, c.isDigit = true) →
    Nat.ofDigitChars 10 cs acc < 2 ^ 64 → magnitude acc cs = .ok (Nat.ofDigitChars 10 cs acc)
  | [], acc, _, _ => by simp [magnitude]
  | c :: cs, acc, hd, hlt => by
    rw [Nat.ofDigitChars_cons] at hlt ⊢
    have hc : c.isDigit = true := hd c List.mem_cons_self
    have hnext : 10 * acc + digitValue c < 0x10000000000000000 :=
      Nat.lt_of_le_of_lt (le_ofDigitChars cs _) hlt
    unfold magnitude
    rw [if_pos hc]
    simp only [hnext, if_true]
    exact magnitude_of_digits cs _ (fun x hx => hd x (List.mem_cons_of_mem _ hx)) hlt

theorem readUnsigned_toDigits {n : ℕ} (h : n < 2 ^ 64) :
    readUnsigned (Nat.toDigits 10 n) = .ok n := by
  have hval : Nat.ofDigitChars 10 (Nat.toDigits 10 n) 0 = n := Nat.ofDigitChars_ten_toDigits
  have hread := magnitude_of_digits (Nat.toDigits 10 n) 0
    (fun c hc => Nat.isDigit_of_mem_toDigits (by decide) (by decide) hc) (by rw [hval]; exact h)
  rw [hval] at hread
  cases hcs : Nat.toDigits 10 n with
  | nil => exact absurd hcs Nat.toDigits_ne_nil
  | cons c cs => rw [hcs] at hread; exact hread

theorem readInt64_digits {cs : List Char} (h : ∀ c ∈ cs, c.isDigit = true) :
    readInt64 cs = (readUnsigned cs).bind nonnegative := by
  unfold readInt64
  split
  · exact absurd (h '+' List.mem_cons_self) (by decide)
  · exact absurd (h '-' List.mem_cons_self) (by decide)
  · rfl

/-- **Reading undoes writing**, on all signed 64-bit integers. -/
theorem readInt64_write (n : Int64) : readInt64 (write n.toInt) = .ok n := by
  have hlt := n.toInt_lt
  have hle := n.le_toInt
  cases hn : n.toInt with
  | ofNat m =>
    have hm : m < 0x8000000000000000 := by rw [hn] at hlt; exact Int.ofNat_lt.mp hlt
    have hd : ∀ c ∈ Nat.toDigits 10 m, c.isDigit = true :=
      fun c hc => Nat.isDigit_of_mem_toDigits (by decide) (by decide) hc
    show readInt64 (Nat.toDigits 10 m) = .ok n
    rw [readInt64_digits hd, readUnsigned_toDigits (by omega)]
    show nonnegative m = .ok n
    unfold nonnegative
    rw [if_pos hm, ← Int64.ofInt_toInt n, hn]
    rfl
  | negSucc m =>
    -- the least integer is the one whose magnitude is the bound itself
    have hm : m + 1 ≤ 0x8000000000000000 := by rw [hn] at hle; omega
    show (readUnsigned (Nat.toDigits 10 (m + 1))).bind negative = .ok n
    rw [readUnsigned_toDigits (by omega)]
    show negative (m + 1) = .ok n
    unfold negative
    rw [if_pos hm, ← Int64.ofInt_toInt n, hn]
    rfl

end Decimal

namespace Key

theorem read_ofOffset (o : Int64) : read (ofOffset o) = .ok o := by
  unfold read
  have hchars : (ofOffset o).toList = '@' :: Decimal.write o.toInt := by
    simp [ofOffset, chars]
  rw [hchars]
  simp [Decimal.readInt64_write]

theorem ofOffset_injective : Function.Injective ofOffset := by
  intro a b hab
  have h : read (ofOffset a) = read (ofOffset b) := by rw [hab]
  rw [read_ofOffset, read_ofOffset] at h
  exact Except.ok.inj h

end Key
end OffsetGaps

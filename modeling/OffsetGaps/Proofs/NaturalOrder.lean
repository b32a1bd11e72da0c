/-
# The natural order of keys

Keys are compared by the digit runs from their first difference on. For the
keys of offsets this comes to a comparison by value: behind a common front
that is not zero, the lesser of two digit strings is the shorter one or, of
two equally long ones, the one that is worth less (`Smaller`), and this is
what the rule about zeros makes of the runs. At the first digit the runs are
the magnitudes themselves. Negative offsets come first, since `-` starts no
run; so the order is that of the offsets by sign and magnitude (`Precedes`).

There is one exception. Runs are valued in wrapping 64-bit arithmetic, and
the magnitude 2^63 of the least offset is the one that wraps. The least offset
then stands in front of every negative offset from which it differs in its
first digit, which is 9 (`Displaced`), and it still stands behind those that
start with 9 as well. So three keys may stand in a circle (`Circle`).

Key definitions: `Smaller`, `firstDigit`, `Precedes`, `Displaced`, `Circle`.
Key theorems: `naturalLess_behind`, `naturalLess_toDigits`, `keyLess_iff`,
`keyLess_trans`, `keyLess_circle`.
-/
import Mathlib.Tactic.Ring
import OffsetGaps.Layout.Order
import OffsetGaps.Proofs.Numerals
import OffsetGaps.Proofs.Tokens

namespace OffsetGaps

/-! ### Digits and runs -/

theorem isDecimalDigit_of_isDigit {c : Char} (h : c.isDigit = true) : isDecimalDigit c = true := by
  obtain ⟨-, hle⟩ : 48 ≤ c.toNat ∧ c.toNat ≤ 57 := Char.isDigit_iff_toNat.mp h
  unfold isDecimalDigit
  rw [if_pos (by omega)]
  exact h

theorem isLetter_of_isDigit {c : Char} (h : c.isDigit = true) : isLetter c = false := by
  obtain ⟨hge, hle⟩ : 48 ≤ c.toNat ∧ c.toNat ≤ 57 := Char.isDigit_iff_toNat.mp h
  unfold isLetter
  simp only
  rw [if_pos (by omega)]
  change (decide (c.val ≥ 65 ∧ c.val ≤ 90) ||
    (decide (c.val ≥ 97) && decide (c.val ≤ 122))) = false
  simp [UInt32.le_iff_toNat_le]
  omega

/-- A run of digits is worth its decimal value, as far as 64 bits go. -/
theorem runValue_digits : ∀ (cs : List Char) (n : ℕ), (∀ c ∈ cs, c.isDigit = true) →
    runValue (Int64.ofNat n) cs = Int64.ofNat (Nat.ofDigitChars 10 cs n)
  | [], n, _ => rfl
  | c :: cs, n, h => by
    obtain ⟨hc, hcs⟩ := List.forall_mem_cons.mp h
    have hnext : Int64.ofNat n * 10 + Int64.ofNat (c.toNat - '0'.toNat) =
        Int64.ofNat (10 * n + (c.toNat - '0'.toNat)) := by
      rw [Int64.ofNat_add, Int64.ofNat_mul, Int64.mul_comm]
      rfl
    rw [runValue, if_pos (isDecimalDigit_of_isDigit hc), hnext, runValue_digits cs _ hcs,
      Nat.ofDigitChars_cons]

theorem ofDigitChars_cons_zero (c : Char) (cs : List Char) :
    Nat.ofDigitChars 10 (c :: cs) 0 =
      10 ^ cs.length * Decimal.digitValue c + Nat.ofDigitChars 10 cs 0 := by
  rw [Nat.ofDigitChars_cons, Nat.ofDigitChars_eq_ofDigitChars_zero]
  simp [Decimal.digitValue]

theorem ofDigitChars_lt : ∀ {cs : List Char}, (∀ c ∈ cs, c.isDigit = true) →
    Nat.ofDigitChars 10 cs 0 < 10 ^ cs.length
  | [], _ => by simp
  | c :: cs, h => by
    obtain ⟨hc, hcs⟩ := List.forall_mem_cons.mp h
    have hdigit := Decimal.digitValue_le hc
    have hrest := ofDigitChars_lt hcs
    rw [ofDigitChars_cons_zero, List.length_cons, pow_succ]
    calc 10 ^ cs.length * Decimal.digitValue c + Nat.ofDigitChars 10 cs 0
        < 10 ^ cs.length * Decimal.digitValue c + 10 ^ cs.length := Nat.add_lt_add_left hrest _
      _ = 10 ^ cs.length * (Decimal.digitValue c + 1) := by ring
      _ ≤ 10 ^ cs.length * 10 := Nat.mul_le_mul_left _ (by omega)

/-! ### Numbers by their digits -/

/-- Fewer digits, or as many that are worth less. -/
def Smaller (xs ys : List Char) : Prop :=
  xs.length < ys.length ∨
    xs.length = ys.length ∧ Nat.ofDigitChars 10 xs 0 < Nat.ofDigitChars 10 ys 0

/-- Behind a front that is not zero, a number is the lesser one if its digits
are. -/
theorem ofDigitChars_lt_iff {xs ys : List Char} (hxs : ∀ c ∈ xs, c.isDigit = true)
    (hys : ∀ c ∈ ys, c.isDigit = true) {front : ℕ} (hfront : 0 < front) :
    Nat.ofDigitChars 10 xs front < Nat.ofDigitChars 10 ys front ↔ Smaller xs ys := by
  have hshorter : ∀ {us vs : List Char}, (∀ c ∈ us, c.isDigit = true) → us.length < vs.length →
      Nat.ofDigitChars 10 us front < Nat.ofDigitChars 10 vs front := by
    intro us vs hus hlen
    rw [Nat.ofDigitChars_eq_ofDigitChars_zero, Nat.ofDigitChars_eq_ofDigitChars_zero (l := vs)]
    have hpow : 10 ^ us.length * 10 ≤ 10 ^ vs.length := by
      rw [← pow_succ]
      exact Nat.pow_le_pow_right (by decide) hlen
    calc 10 ^ us.length * front + Nat.ofDigitChars 10 us 0
        < 10 ^ us.length * front + 10 ^ us.length := Nat.add_lt_add_left (ofDigitChars_lt hus) _
      _ = 10 ^ us.length * (front + 1) := by ring
      _ ≤ 10 ^ us.length * (10 * front) := Nat.mul_le_mul_left _ (by omega)
      _ = 10 ^ us.length * 10 * front := by ring
      _ ≤ 10 ^ vs.length * front := Nat.mul_le_mul_right _ hpow
      _ ≤ _ := Nat.le_add_right _ _
  unfold Smaller
  rcases lt_trichotomy xs.length ys.length with hlen | hlen | hlen
  · exact iff_of_true (hshorter hxs hlen) (Or.inl hlen)
  · rw [Nat.ofDigitChars_eq_ofDigitChars_zero, Nat.ofDigitChars_eq_ofDigitChars_zero (l := ys), hlen]
    omega
  · have hgreater := hshorter hys hlen
    exact iff_of_false (by omega) (by omega)

theorem smaller_cons_iff (c : Char) (xs ys : List Char) :
    Smaller (c :: xs) (c :: ys) ↔ Smaller xs ys := by
  unfold Smaller
  rw [ofDigitChars_cons_zero, ofDigitChars_cons_zero, List.length_cons, List.length_cons]
  by_cases hlen : xs.length = ys.length
  · rw [hlen]
    omega
  · omega

theorem digitValue_pos {c : Char} (h : c.isDigit = true) (hzero : c ≠ '0') :
    0 < Decimal.digitValue c := by
  obtain ⟨hge, -⟩ : 48 ≤ c.toNat ∧ c.toNat ≤ 57 := Char.isDigit_iff_toNat.mp h
  have hne : c.toNat ≠ 48 := fun h48 => hzero (Char.toNat_inj.mp h48)
  show 0 < c.toNat - 48
  omega

theorem eq_of_digitValue_eq {c d : Char} (hc : c.isDigit = true) (hd : d.isDigit = true)
    (h : Decimal.digitValue c = Decimal.digitValue d) : c = d := by
  obtain ⟨hc', -⟩ : 48 ≤ c.toNat ∧ c.toNat ≤ 57 := Char.isDigit_iff_toNat.mp hc
  obtain ⟨hd', -⟩ : 48 ≤ d.toNat ∧ d.toNat ≤ 57 := Char.isDigit_iff_toNat.mp hd
  have hvalue : c.toNat - 48 = d.toNat - 48 := h
  exact Char.toNat_inj.mp (by omega)

/-- Of two digit strings with different heads, one is smaller. -/
theorem smaller_or_smaller {a b : Char} {as bs : List Char} (hab : a ≠ b)
    (has : ∀ c ∈ a :: as, c.isDigit = true) (hbs : ∀ c ∈ b :: bs, c.isDigit = true) :
    Smaller (a :: as) (b :: bs) ∨ Smaller (b :: bs) (a :: as) := by
  obtain ⟨ha, has'⟩ := List.forall_mem_cons.mp has
  obtain ⟨hb, hbs'⟩ := List.forall_mem_cons.mp hbs
  have hhead : ∀ {n x y v w : ℕ}, v < 10 ^ n → x < y → 10 ^ n * x + v < 10 ^ n * y + w := by
    intro n x y v w hv hxy
    calc 10 ^ n * x + v < 10 ^ n * x + 10 ^ n := Nat.add_lt_add_left hv _
      _ = 10 ^ n * (x + 1) := by ring
      _ ≤ 10 ^ n * y := Nat.mul_le_mul_left _ hxy
      _ ≤ 10 ^ n * y + w := Nat.le_add_right _ _
  unfold Smaller
  rcases lt_trichotomy as.length bs.length with hlen | hlen | hlen
  · exact Or.inl (Or.inl (Nat.succ_lt_succ hlen))
  · -- equally long: the head decides
    have hva := ofDigitChars_lt has'
    have hvb := ofDigitChars_lt hbs'
    rw [ofDigitChars_cons_zero, ofDigitChars_cons_zero, List.length_cons, List.length_cons, hlen]
    rw [hlen] at hva
    rcases lt_trichotomy (Decimal.digitValue a) (Decimal.digitValue b) with hd | hd | hd
    · exact Or.inl (Or.inr ⟨rfl, hhead hva hd⟩)
    · exact absurd (eq_of_digitValue_eq ha hb hd) hab
    · exact Or.inr (Or.inr ⟨rfl, hhead hvb hd⟩)
  · exact Or.inr (Or.inl (Nat.succ_lt_succ hlen))

theorem le_ofDigitChars_cons {c : Char} {cs : List Char} (hc : c.isDigit = true) (hzero : c ≠ '0') :
    10 ^ cs.length ≤ Nat.ofDigitChars 10 (c :: cs) 0 := by
  rw [ofDigitChars_cons_zero]
  calc 10 ^ cs.length ≤ 10 ^ cs.length * Decimal.digitValue c :=
        Nat.le_mul_of_pos_right _ (digitValue_pos hc hzero)
    _ ≤ _ := Nat.le_add_right _ _

/-- Numbers that do not start with a zero compare as their digits do. -/
theorem ofDigitChars_zero_lt_iff {a b : Char} {as bs : List Char} (ha : a ≠ '0') (hb : b ≠ '0')
    (has : ∀ c ∈ a :: as, c.isDigit = true) (hbs : ∀ c ∈ b :: bs, c.isDigit = true) :
    Nat.ofDigitChars 10 (a :: as) 0 < Nat.ofDigitChars 10 (b :: bs) 0 ↔
      Smaller (a :: as) (b :: bs) := by
  have hshorter : ∀ {us : List Char} {v : Char} {vs : List Char}, (∀ c ∈ us, c.isDigit = true) →
      v.isDigit = true → v ≠ '0' → us.length < (v :: vs).length →
        Nat.ofDigitChars 10 us 0 < Nat.ofDigitChars 10 (v :: vs) 0 := by
    intro us v vs hus hv hzero hlen
    calc Nat.ofDigitChars 10 us 0 < 10 ^ us.length := ofDigitChars_lt hus
      _ ≤ 10 ^ vs.length := Nat.pow_le_pow_right (by decide) (Nat.le_of_lt_succ hlen)
      _ ≤ _ := le_ofDigitChars_cons hv hzero
  unfold Smaller
  rcases lt_trichotomy (a :: as).length (b :: bs).length with hlen | hlen | hlen
  · exact iff_of_true (hshorter has (hbs b List.mem_cons_self) hb hlen) (Or.inl hlen)
  · omega
  · have hgreater := hshorter hbs (has a List.mem_cons_self) ha hlen
    exact iff_of_false (by omega) (by omega)

/-! ### The first difference -/

theorem int64_ofNat_lt_iff {m n : ℕ} (hm : m < 2 ^ 63) (hn : n < 2 ^ 63) :
    Int64.ofNat m < Int64.ofNat n ↔ m < n := by
  rw [Int64.lt_iff_toInt_lt, Int64.toInt_ofNat_of_lt hm, Int64.toInt_ofNat_of_lt hn]
  omega

/-- At the first difference of two digit strings the runs decide, if they are
not worth the same. -/
theorem naturalLess_of_ne {a b : Char} {as bs : List Char} (hab : a ≠ b)
    (has : ∀ c ∈ a :: as, c.isDigit = true) (hbs : ∀ c ∈ b :: bs, c.isDigit = true)
    (inDigits lead : Bool) (front : ℕ)
    (hfront : front = if lead && (a == '0' || b == '0') then 1 else 0)
    (hne : Int64.ofNat (Nat.ofDigitChars 10 (a :: as) front) ≠
      Int64.ofNat (Nat.ofDigitChars 10 (b :: bs) front)) :
    naturalLess inDigits lead (a :: as) (b :: bs) = true ↔
      Int64.ofNat (Nat.ofDigitChars 10 (a :: as) front) <
        Int64.ofNat (Nat.ofDigitChars 10 (b :: bs) front) := by
  have hstart : (if lead && (a == '0' || b == '0') then (1 : Int64) else 0) = Int64.ofNat front := by
    rw [hfront]
    split <;> rfl
  unfold naturalLess
  rw [if_neg hab]
  simp only [isLetter_of_isDigit (has a List.mem_cons_self),
    isLetter_of_isDigit (hbs b List.mem_cons_self), hstart, runValue_digits _ _ has,
    runValue_digits _ _ hbs, hne, Bool.false_and, Bool.false_eq_true, if_false, ne_eq,
    not_false_eq_true, if_true, decide_eq_true_eq]

/-- Runs of at most 18 digits do not wrap, a digit 1 in front included. -/
theorem ofDigitChars_lt_int64 {cs : List Char} (hcs : ∀ c ∈ cs, c.isDigit = true)
    (hlen : cs.length ≤ 18) {front : ℕ} (hfront : front ≤ 1) :
    Nat.ofDigitChars 10 cs front < 2 ^ 63 := by
  rw [Nat.ofDigitChars_eq_ofDigitChars_zero]
  calc 10 ^ cs.length * front + Nat.ofDigitChars 10 cs 0
      < 10 ^ cs.length * front + 10 ^ cs.length := Nat.add_lt_add_left (ofDigitChars_lt hcs) _
    _ ≤ 10 ^ cs.length * 1 + 10 ^ cs.length :=
        Nat.add_le_add_right (Nat.mul_le_mul_left _ hfront) _
    _ = 2 * 10 ^ cs.length := by ring
    _ ≤ 2 * 10 ^ 18 := Nat.mul_le_mul_left _ (Nat.pow_le_pow_right (by decide) hlen)
    _ ≤ 2 ^ 63 := by decide

/-- With the 1 in front of both if one of them starts with a zero, runs
compare as their digits do. -/
theorem ofDigitChars_front_lt_iff {a b : Char} {as bs : List Char}
    (has : ∀ c ∈ a :: as, c.isDigit = true) (hbs : ∀ c ∈ b :: bs, c.isDigit = true) {front : ℕ}
    (hfront : front = if a == '0' || b == '0' then 1 else 0) :
    Nat.ofDigitChars 10 (a :: as) front < Nat.ofDigitChars 10 (b :: bs) front ↔
      Smaller (a :: as) (b :: bs) := by
  by_cases hzero : (a == '0' || b == '0') = true
  · rw [hzero, if_pos rfl] at hfront
    exact ofDigitChars_lt_iff has hbs (by omega)
  · rw [if_neg hzero] at hfront
    simp only [Bool.or_eq_true, beq_iff_eq, not_or] at hzero
    rw [hfront]
    exact ofDigitChars_zero_lt_iff hzero.1 hzero.2 has hbs

/-- Behind a common front that is not zero, keys stand as their digits do. The
runs have at most 18 digits here, so none of them wraps. -/
theorem naturalLess_behind : ∀ {xs ys : List Char}, (∀ c ∈ xs, c.isDigit = true) →
    (∀ c ∈ ys, c.isDigit = true) → xs.length ≤ 18 → ys.length ≤ 18 →
      (naturalLess true true xs ys = true ↔ Smaller xs ys)
  | [], [], _, _, _, _ => by simp [naturalLess, Smaller]
  | [], b :: bs, _, _, _, _ => by simp [naturalLess, Smaller]
  | a :: as, [], _, _, _, _ => by simp [naturalLess, Smaller]
  | a :: as, b :: bs, has, hbs, hlena, hlenb => by
    by_cases hab : a = b
    · subst hab
      obtain ⟨ha, has'⟩ := List.forall_mem_cons.mp has
      have hstep : naturalLess true true (a :: as) (a :: bs) = naturalLess true true as bs := by
        rw [naturalLess, if_pos rfl, isDecimalDigit_of_isDigit ha]
        rfl
      rw [List.length_cons] at hlena hlenb
      rw [hstep, smaller_cons_iff]
      exact naturalLess_behind has' (List.forall_mem_cons.mp hbs).2 (by omega) (by omega)
    · obtain ⟨front, hfront⟩ : ∃ front : ℕ, front = if a == '0' || b == '0' then 1 else 0 := ⟨_, rfl⟩
      have hsmall : front ≤ 1 := by
        rw [hfront]
        split <;> omega
      have hx := ofDigitChars_lt_int64 has hlena hsmall
      have hy := ofDigitChars_lt_int64 hbs hlenb hsmall
      have hlt := ofDigitChars_front_lt_iff has hbs hfront
      have hgt := ofDigitChars_front_lt_iff hbs has (hfront.trans (by rw [Bool.or_comm]))
      have hne : Int64.ofNat (Nat.ofDigitChars 10 (a :: as) front) ≠
          Int64.ofNat (Nat.ofDigitChars 10 (b :: bs) front) := by
        intro heq
        rcases smaller_or_smaller hab has hbs with h | h
        · exact Int64.ne_of_lt ((int64_ofNat_lt_iff hx hy).mpr (hlt.mpr h)) heq
        · exact Int64.ne_of_lt ((int64_ofNat_lt_iff hy hx).mpr (hgt.mpr h)) heq.symm
      rw [naturalLess_of_ne hab has hbs true true front (by rw [hfront, Bool.true_and]) hne,
        int64_ofNat_lt_iff hx hy, hlt]

/-! ### Magnitudes -/

theorem isDigit_of_mem_toDigits {n : ℕ} : ∀ c ∈ Nat.toDigits 10 n, c.isDigit = true :=
  fun _ hc => Nat.isDigit_of_mem_toDigits (by decide) (by decide) hc

/-- The digit that a number starts with. -/
def firstDigit (n : ℕ) : Char := (Nat.toDigits 10 n).headD '0'

theorem toDigits_eq_firstDigit_cons (n : ℕ) : ∃ cs, Nat.toDigits 10 n = firstDigit n :: cs := by
  unfold firstDigit
  cases hcs : Nat.toDigits 10 n with
  | nil => exact absurd hcs Nat.toDigits_ne_nil
  | cons c cs => exact ⟨cs, rfl⟩

theorem firstDigit_eq_zero_iff {n : ℕ} : firstDigit n = '0' ↔ n = 0 := by
  constructor
  · intro h
    by_contra hn
    obtain ⟨cs, hcs⟩ := toDigits_eq_firstDigit_cons n
    have hhead := Json.head_toDigits hn
    rw [hcs, h] at hhead
    exact hhead rfl
  · rintro rfl
    rfl

theorem ofDigitChars_firstDigit {n : ℕ} {cs : List Char} (h : Nat.toDigits 10 n = firstDigit n :: cs) :
    Nat.ofDigitChars 10 (firstDigit n :: cs) 0 = n := by
  rw [← h]
  exact Nat.ofDigitChars_ten_toDigits

theorem length_behind_firstDigit {n : ℕ} (hn : n ≤ 2 ^ 63) {cs : List Char}
    (h : Nat.toDigits 10 n = firstDigit n :: cs) : cs.length ≤ 18 := by
  have hlen : (Nat.toDigits 10 n).length ≤ 19 :=
    (Nat.length_toDigits_le_iff (by decide) (by decide)).mpr (by omega)
  rw [h, List.length_cons] at hlen
  omega

/-- Of the magnitudes of 64-bit integers, 2^63 is the one that wraps. -/
theorem toInt_ofNat_magnitude {n : ℕ} (hn : n ≤ 2 ^ 63) :
    (Int64.ofNat n).toInt = if n = 2 ^ 63 then -2 ^ 63 else (n : ℤ) := by
  by_cases hmax : n = 2 ^ 63
  · rw [if_pos hmax, hmax]
    rfl
  · rw [if_neg hmax]
    exact Int64.toInt_ofNat_of_lt (by omega)

/-- Magnitudes that start with the same digit stand by value. -/
theorem naturalLess_of_firstDigit_eq {m n : ℕ} (hm : m ≤ 2 ^ 63) (hn : n ≤ 2 ^ 63)
    (hhead : firstDigit m = firstDigit n) :
    naturalLess false false (Nat.toDigits 10 m) (Nat.toDigits 10 n) = true ↔ m < n := by
  by_cases hzero : firstDigit m = '0'
  · obtain rfl := firstDigit_eq_zero_iff.mp hzero
    obtain rfl := firstDigit_eq_zero_iff.mp (hhead.symm.trans hzero)
    exact iff_of_false (by decide) (by omega)
  · obtain ⟨as, has⟩ := toDigits_eq_firstDigit_cons m
    obtain ⟨bs, hbs⟩ := toDigits_eq_firstDigit_cons n
    have hda : ∀ c ∈ firstDigit m :: as, c.isDigit = true := has ▸ isDigit_of_mem_toDigits
    have hdb : ∀ c ∈ firstDigit n :: bs, c.isDigit = true := hbs ▸ isDigit_of_mem_toDigits
    have hlead : (firstDigit m != '0') = true := bne_iff_ne.mpr hzero
    have hstep : naturalLess false false (firstDigit m :: as) (firstDigit n :: bs) =
        naturalLess true true as bs := by
      rw [naturalLess, if_pos hhead, isDecimalDigit_of_isDigit (hda _ List.mem_cons_self), hlead]
      rfl
    have hbehind := naturalLess_behind (List.forall_mem_cons.mp hda).2
      (List.forall_mem_cons.mp hdb).2 (length_behind_firstDigit hm has)
      (length_behind_firstDigit hn hbs)
    have hvalue := ofDigitChars_zero_lt_iff hzero (hhead ▸ hzero) hda hdb
    rw [ofDigitChars_firstDigit has, ofDigitChars_firstDigit hbs, hhead, smaller_cons_iff] at hvalue
    rw [has, hbs, hstep, hbehind, hvalue]

/-- Magnitudes that start with different digits stand as 64 bits value
them. -/
theorem naturalLess_of_firstDigit_ne {m n : ℕ} (hm : m ≤ 2 ^ 63) (hn : n ≤ 2 ^ 63)
    (hhead : firstDigit m ≠ firstDigit n) :
    naturalLess false false (Nat.toDigits 10 m) (Nat.toDigits 10 n) = true ↔
      (if m = 2 ^ 63 then -2 ^ 63 else (m : ℤ)) < if n = 2 ^ 63 then -2 ^ 63 else (n : ℤ) := by
  obtain ⟨as, has⟩ := toDigits_eq_firstDigit_cons m
  obtain ⟨bs, hbs⟩ := toDigits_eq_firstDigit_cons n
  have hne : Int64.ofNat m ≠ Int64.ofNat n := by
    intro heq
    have hmn : m ≠ n := fun h => hhead (congrArg firstDigit h)
    have hint := congrArg Int64.toInt heq
    rw [toInt_ofNat_magnitude hm, toInt_ofNat_magnitude hn] at hint
    split_ifs at hint <;> omega
  have hless := naturalLess_of_ne hhead (has ▸ isDigit_of_mem_toDigits)
    (hbs ▸ isDigit_of_mem_toDigits) false false 0 rfl
  rw [ofDigitChars_firstDigit has, ofDigitChars_firstDigit hbs] at hless
  rw [has, hbs, hless hne, Int64.lt_iff_toInt_lt, toInt_ofNat_magnitude hm,
    toInt_ofNat_magnitude hn]

/-- **Magnitudes stand by value**, except that 2^63 stands in front of those
that start with another digit. -/
theorem naturalLess_toDigits {m n : ℕ} (hm : m ≤ 2 ^ 63) (hn : n ≤ 2 ^ 63) :
    naturalLess false false (Nat.toDigits 10 m) (Nat.toDigits 10 n) = true ↔
      m = 2 ^ 63 ∧ firstDigit n ≠ '9' ∨ m < n ∧ ¬ (n = 2 ^ 63 ∧ firstDigit m ≠ '9') := by
  have hnine : ∀ {k : ℕ}, k = 2 ^ 63 → firstDigit k = '9' := by
    rintro k rfl
    decide
  by_cases hhead : firstDigit m = firstDigit n
  · rw [naturalLess_of_firstDigit_eq hm hn hhead]
    constructor
    · intro hlt
      exact Or.inr ⟨hlt, fun h => h.2 (hhead.trans (hnine h.1))⟩
    · rintro (⟨hmax, hother⟩ | ⟨hlt, -⟩)
      · exact absurd (hhead.symm.trans (hnine hmax)) hother
      · exact hlt
  · rw [naturalLess_of_firstDigit_ne hm hn hhead]
    by_cases hmax : m = 2 ^ 63
    · have hother : firstDigit n ≠ '9' := fun h => hhead ((hnine hmax).trans h.symm)
      have hmax' : n ≠ 2 ^ 63 := fun h => hother (hnine h)
      rw [if_pos hmax, if_neg hmax']
      exact iff_of_true (by omega) (Or.inl ⟨hmax, hother⟩)
    · rw [if_neg hmax]
      by_cases hmax' : n = 2 ^ 63
      · have hother : firstDigit m ≠ '9' := fun h => hhead (h.trans (hnine hmax').symm)
        rw [if_pos hmax']
        refine iff_of_false (by omega) ?_
        rintro (⟨h, -⟩ | ⟨-, h⟩)
        · exact hmax h
        · exact h ⟨hmax', hother⟩
      · rw [if_neg hmax']
        omega

/-! ### Keys of offsets -/

/-- **The numeric order of a listing.** Negative offsets come first, by
increasing magnitude, and then the others, by increasing value. -/
def Precedes (a b : Int64) : Prop :=
  a.toInt < 0 ∧ 0 ≤ b.toInt ∨
    a.toInt < 0 ∧ b.toInt < 0 ∧ a.toInt.natAbs < b.toInt.natAbs ∨
    0 ≤ a.toInt ∧ 0 ≤ b.toInt ∧ a.toInt < b.toInt

/-- The least offset and a negative offset that does not start with a 9 like
it. Their keys stand the other way round. -/
def Displaced (a b : Int64) : Prop :=
  a = Int64.minValue ∧ b.toInt < 0 ∧ firstDigit b.toInt.natAbs ≠ '9'

theorem precedes_irrefl (a : Int64) : ¬ Precedes a a := by
  unfold Precedes
  omega

theorem precedes_trans {a b c : Int64} (hab : Precedes a b) (hbc : Precedes b c) : Precedes a c := by
  unfold Precedes at *
  omega

theorem precedes_total {a b : Int64} (h : a ≠ b) : Precedes a b ∨ Precedes b a := by
  have hne : a.toInt ≠ b.toInt := fun heq => h (Int64.toInt_inj.mp heq)
  unfold Precedes
  omega

theorem isStrictTotalOrder_precedes : IsStrictTotalOrder Int64 Precedes where
  irrefl := precedes_irrefl
  trans _ _ _ := precedes_trans
  trichotomous a b hab hba := by
    by_contra hne
    exact (precedes_total hne).elim hab hba

theorem eq_minValue_iff {a : Int64} : a = Int64.minValue ↔ a.toInt < 0 ∧ a.toInt.natAbs = 2 ^ 63 := by
  have hmin : Int64.minValue.toInt = -2 ^ 63 := rfl
  rw [← Int64.toInt_inj, hmin]
  omega

theorem natAbs_toInt_le (a : Int64) : a.toInt.natAbs ≤ 2 ^ 63 := by
  have hlow := a.le_toInt
  have hhigh := a.toInt_lt
  omega

theorem write_of_nonneg {z : ℤ} (h : 0 ≤ z) : Decimal.write z = Nat.toDigits 10 z.natAbs := by
  cases z with
  | ofNat n => rfl
  | negSucc n => exact absurd h (by omega)

theorem write_of_neg {z : ℤ} (h : z < 0) : Decimal.write z = '-' :: Nat.toDigits 10 z.natAbs := by
  cases z with
  | ofNat n => exact absurd h (by simp)
  | negSucc n => rfl

/-- Behind the mark, keys are compared by the numbers in them. -/
theorem keyLess_ofOffset (a b : Int64) :
    keyLess (Key.ofOffset a) (Key.ofOffset b) =
      naturalLess false false (Decimal.write a.toInt) (Decimal.write b.toInt) := by
  unfold keyLess
  rw [Key.toList_ofOffset, Key.toList_ofOffset, naturalLess, if_pos rfl]
  rfl

/-- `-` starts no run, and so comes before every digit. -/
theorem naturalLess_sign {n : ℕ} (hn : n < 2 ^ 63) (rest : List Char) :
    naturalLess false false ('-' :: rest) (Nat.toDigits 10 n) = true ∧
      naturalLess false false (Nat.toDigits 10 n) ('-' :: rest) = false := by
  obtain ⟨cs, hcs⟩ := toDigits_eq_firstDigit_cons n
  have hdigits : ∀ c ∈ firstDigit n :: cs, c.isDigit = true := hcs ▸ isDigit_of_mem_toDigits
  have hfirst := hdigits _ List.mem_cons_self
  have hne : '-' ≠ firstDigit n := by
    intro h
    rw [← h] at hfirst
    cases hfirst
  have hsign : isDecimalDigit '-' = false := by decide
  have hletter : isLetter '-' = false := by decide
  have hletter' := isLetter_of_isDigit hfirst
  have hvalue : runValue 0 ('-' :: rest) = 0 := by simp [runValue, hsign]
  have hvalue' : runValue 0 (firstDigit n :: cs) = Int64.ofNat n := by
    have hrun := runValue_digits _ 0 hdigits
    rw [ofDigitChars_firstDigit hcs] at hrun
    exact hrun
  have hlength : runLength ('-' :: rest) = 0 := by simp [runLength, hsign]
  have hlength' : 0 < runLength (firstDigit n :: cs) := by
    simp [runLength, isDecimalDigit_of_isDigit hfirst]
  rw [hcs]
  unfold naturalLess
  rw [if_neg hne, if_neg hne.symm]
  simp only [hletter, hletter', hvalue, hvalue', hlength, Bool.false_and, Bool.false_eq_true,
    if_false]
  by_cases hzero : n = 0
  · -- the runs are worth the same, but only one of them has a digit
    subst hzero
    have hnone : Int64.ofNat 0 = 0 := rfl
    simp [hnone, hlength'.ne, hlength'.ne', hlength']
  · have hpos : Int64.ofNat 0 < Int64.ofNat n :=
      (int64_ofNat_lt_iff (by decide) hn).mpr (Nat.pos_of_ne_zero hzero)
    rw [show Int64.ofNat 0 = 0 from rfl] at hpos
    have hasymm : ¬ Int64.ofNat n < 0 := fun h => Int64.lt_irrefl (Int64.lt_trans hpos h)
    simp [Int64.ne_of_lt hpos, (Int64.ne_of_lt hpos).symm, hpos, hasymm]

/-- **The natural order of the keys of offsets.** It is the numeric order, but
for the least offset and the negative offsets that do not start with a 9,
which stand the other way round. -/
theorem keyLess_iff {a b : Int64} :
    keyLess (Key.ofOffset a) (Key.ofOffset b) = true ↔
      Displaced a b ∨ Precedes a b ∧ ¬ Displaced b a := by
  have ha := natAbs_toInt_le a
  have hb := natAbs_toInt_le b
  have hhigha := a.toInt_lt
  have hhighb := b.toInt_lt
  rw [keyLess_ofOffset]
  unfold Displaced Precedes
  simp only [eq_minValue_iff]
  by_cases hna : a.toInt < 0
  · rw [write_of_neg hna]
    by_cases hnb : b.toInt < 0
    · have hstep : naturalLess false false ('-' :: Nat.toDigits 10 a.toInt.natAbs)
          ('-' :: Nat.toDigits 10 b.toInt.natAbs) =
          naturalLess false false (Nat.toDigits 10 a.toInt.natAbs)
            (Nat.toDigits 10 b.toInt.natAbs) := by
        rw [naturalLess, if_pos rfl]
        rfl
      rw [write_of_neg hnb, hstep, naturalLess_toDigits ha hb]
      simp only [hna, hnb, true_and, not_le.mpr hna, not_le.mpr hnb, and_false, false_and, or_false,
        false_or]
    · have hless := (naturalLess_sign (n := b.toInt.natAbs) (by omega)
        (Nat.toDigits 10 a.toInt.natAbs)).1
      rw [write_of_nonneg (not_lt.mp hnb), hless]
      refine iff_of_true rfl (Or.inr ⟨Or.inl ⟨hna, not_lt.mp hnb⟩, ?_⟩)
      rintro ⟨⟨h, -⟩, -⟩
      exact hnb h
  · rw [write_of_nonneg (not_lt.mp hna)]
    by_cases hnb : b.toInt < 0
    · have hless := (naturalLess_sign (n := a.toInt.natAbs) (by omega)
        (Nat.toDigits 10 b.toInt.natAbs)).2
      rw [write_of_neg hnb, hless]
      refine iff_of_false (by simp) ?_
      omega
    · rw [write_of_nonneg (not_lt.mp hnb), naturalLess_toDigits ha hb]
      omega

/-! ### Circles -/

theorem not_displaced_min (a : Int64) : ¬ Displaced a Int64.minValue := by
  rintro ⟨-, -, h⟩
  exact h (by decide)

theorem Displaced.precedes {a b : Int64} (h : Displaced a b) : Precedes b a := by
  have hne : b ≠ Int64.minValue := by
    rintro rfl
    exact not_displaced_min a h
  have hmag := natAbs_toInt_le b
  have hmin : Int64.minValue.toInt = -2 ^ 63 := rfl
  rw [Ne, eq_minValue_iff] at hne
  obtain ⟨rfl, hneg, -⟩ := h
  unfold Precedes
  omega

theorem keyLess_total {a b : Int64} (h : a ≠ b) :
    keyLess (Key.ofOffset a) (Key.ofOffset b) = true ∨
      keyLess (Key.ofOffset b) (Key.ofOffset a) = true := by
  rw [keyLess_iff, keyLess_iff]
  by_cases hab : Displaced a b
  · exact Or.inl (Or.inl hab)
  · by_cases hba : Displaced b a
    · exact Or.inr (Or.inl hba)
    · rcases precedes_total h with hp | hp
      · exact Or.inl (Or.inr ⟨hp, hba⟩)
      · exact Or.inr (Or.inr ⟨hp, hab⟩)

theorem keyLess_asymm {a b : Int64} (h : keyLess (Key.ofOffset a) (Key.ofOffset b) = true) :
    keyLess (Key.ofOffset b) (Key.ofOffset a) = false := by
  rw [← Bool.not_eq_true, keyLess_iff]
  rcases keyLess_iff.mp h with hab | ⟨hp, hba⟩
  · rintro (⟨rfl, -⟩ | ⟨-, hn⟩)
    · exact not_displaced_min a hab
    · exact hn hab
  · rintro (hd | ⟨hp', -⟩)
    · exact hba hd
    · exact precedes_irrefl a (precedes_trans hp hp')

theorem keyLess_irrefl (a : Int64) : keyLess (Key.ofOffset a) (Key.ofOffset a) = false := by
  by_contra h
  rw [Bool.not_eq_false] at h
  exact Bool.noConfusion (h.symm.trans (keyLess_asymm h))

/-- **Circles.** Two negative offsets, by increasing magnitude, of which the
second starts with a 9 like the least offset and the first does not. With the
least offset they stand in a circle. -/
structure Circle (p q : Int64) : Prop where
  displaced : Displaced Int64.minValue p
  precedes : Precedes p q
  negative : q.toInt < 0
  nine : firstDigit q.toInt.natAbs = '9'
  above : q ≠ Int64.minValue

theorem keyLess_circle {p q : Int64} (h : Circle p q) :
    keyLess (Key.ofOffset p) (Key.ofOffset q) = true ∧
      keyLess (Key.ofOffset q) (Key.ofOffset Int64.minValue) = true ∧
      keyLess (Key.ofOffset Int64.minValue) (Key.ofOffset p) = true := by
  have hmin : Int64.minValue.toInt = -2 ^ 63 := rfl
  have hlast : Precedes q Int64.minValue := by
    have hmag := natAbs_toInt_le q
    have hne : ¬ (q.toInt < 0 ∧ q.toInt.natAbs = 2 ^ 63) := fun hq => h.above (eq_minValue_iff.mpr hq)
    have hneg := h.negative
    unfold Precedes
    omega
  refine ⟨keyLess_iff.mpr (Or.inr ⟨h.precedes, fun hd => h.above hd.1⟩),
    keyLess_iff.mpr (Or.inr ⟨hlast, fun hd => hd.2.2 h.nine⟩), keyLess_iff.mpr (Or.inl h.displaced)⟩

/-- What stands before the least offset and is negative starts with a 9. -/
theorem circle_of_precedes_min {p q : Int64} (hp : Displaced Int64.minValue p) (hpq : Precedes p q)
    (hq : Precedes q Int64.minValue) (hd : ¬ Displaced Int64.minValue q) : Circle p q := by
  have hmin : Int64.minValue.toInt < 0 := by decide
  have hneg : q.toInt < 0 := by
    unfold Precedes at hq
    omega
  refine ⟨hp, hpq, hneg, ?_, ?_⟩
  · by_contra hother
    exact hd ⟨rfl, hneg, hother⟩
  · rintro rfl
    exact precedes_irrefl _ hq

/-- The keys of three offsets that are in no circle are in order. -/
theorem keyLess_trans {a b c : Int64} (hab : keyLess (Key.ofOffset a) (Key.ofOffset b) = true)
    (hbc : keyLess (Key.ofOffset b) (Key.ofOffset c) = true)
    (hcircle : ∀ p q, Circle p q → Int64.minValue ∈ [a, b, c] → p ∈ [a, b, c] → q ∉ [a, b, c]) :
    keyLess (Key.ofOffset a) (Key.ofOffset c) = true := by
  have hmin : Int64.minValue.toInt < 0 := by decide
  rw [keyLess_iff] at *
  rcases hab with hab | ⟨hab, hba⟩
  · obtain rfl := hab.1
    rcases hbc with ⟨rfl, -⟩ | ⟨hbc, hcb⟩
    · exact absurd hab (not_displaced_min _)
    · have hc : c ≠ Int64.minValue := by
        rintro rfl
        exact hcb hab
      by_cases hpos : 0 ≤ c.toInt
      · exact Or.inr ⟨Or.inl ⟨hmin, hpos⟩, fun hd => hc hd.1⟩
      · by_cases hnine : firstDigit c.toInt.natAbs = '9'
        · have hclosed : Circle b c := ⟨hab, hbc, not_le.mp hpos, hnine, hc⟩
          exact absurd (by simp) (hcircle b c hclosed (by simp) (by simp))
        · exact Or.inl ⟨rfl, not_le.mp hpos, hnine⟩
  · rcases hbc with hbc | ⟨hbc, hcb⟩
    · obtain rfl := hbc.1
      have hac : a ≠ c := by
        rintro rfl
        exact hba hbc
      rcases precedes_total hac with hp | hp
      · refine Or.inr ⟨hp, ?_⟩
        rintro ⟨rfl, -⟩
        exact not_displaced_min _ hbc
      · have hclosed : Circle c a := circle_of_precedes_min hbc hp hab hba
        exact absurd (by simp) (hcircle c a hclosed (by simp) (by simp))
    · refine Or.inr ⟨precedes_trans hab hbc, fun hca => ?_⟩
      obtain rfl := hca.1
      have hclosed : Circle a b := circle_of_precedes_min hca hab hbc hcb
      exact absurd (by simp) (hcircle a b hclosed (by simp) (by simp))

end OffsetGaps

/-
# Texts in the order of their bytes

Texts are compared character by character. This is also the order of their
bytes in UTF-8: of two characters the lower one has the shorter form or, if
the forms are equally long, the lower number in them, and a form that is
shorter starts with a lower byte. So a listing in the order of its texts is in
byte order.

Key definitions: `bytes`.
Key theorems: `encode_lt_encode`, `bytes_lt_iff`, `bytes_le_iff`.
-/
import Mathlib.Data.String.Basic
import Mathlib.Tactic.SplitIfs

namespace OffsetGaps

/-- The bytes of a text in UTF-8. -/
def bytes (s : String) : List UInt8 := s.toUTF8.data.toList

theorem bytes_eq_flatMap (s : String) : bytes s = s.toList.flatMap String.utf8EncodeChar := by
  unfold bytes
  rw [String.toUTF8_eq_toByteArray, ← String.utf8Encode_toList]
  simp [List.utf8Encode, List.data_toByteArray]

/-! ### Two characters -/

/-- What comes behind a byte matters only if the bytes are equal. -/
theorem byte_cons_lt {a b : ℕ} {x y : List UInt8} (ha : a < 256) (hb : b < 256) (hle : a ≤ b)
    (h : a = b → x < y) : UInt8.ofNat a :: x < UInt8.ofNat b :: y := by
  rw [List.cons_lt_cons_iff]
  by_cases hab : a = b
  · exact Or.inr ⟨by rw [hab], h hab⟩
  · have hlt : (UInt8.ofNat a).toNat < (UInt8.ofNat b).toNat := by
      rw [UInt8.toNat_ofNat', UInt8.toNat_ofNat']
      omega
    exact Or.inl (UInt8.lt_iff_toNat_lt.mpr hlt)

theorem byte_cons_lt_of_lt {a b : ℕ} {x y : List UInt8} (hb : b < 256) (hlt : a < b) :
    UInt8.ofNat a :: x < UInt8.ofNat b :: y :=
  byte_cons_lt (by omega) hb (by omega) fun h => absurd h (by omega)

theorem codePoint_lt (c : Char) : c.val.toNat < 0x110000 := by
  rcases c.valid with h | ⟨-, h⟩
  · exact Nat.lt_trans h (by decide)
  · exact h

/-- The form of a lower character comes first, whatever stands behind the two
forms. -/
theorem encode_lt_encode {c d : Char} (h : c < d) (x y : List UInt8) :
    String.utf8EncodeChar c ++ x < String.utf8EncodeChar d ++ y := by
  have hlt : c.val.toNat < d.val.toNat := h
  have hmax := codePoint_lt d
  unfold String.utf8EncodeChar
  generalize c.val.toNat = m at hlt
  generalize d.val.toNat = n at hlt hmax
  simp only
  -- the forms are of one to four bytes, and the lower character's is not the longer one
  split_ifs
  all_goals try omega
  -- forms of different lengths differ in the first byte, as do those of one byte
  any_goals (apply byte_cons_lt_of_lt <;> omega)
  · refine byte_cons_lt (by omega) (by omega) (by omega) fun h1 => ?_
    exact byte_cons_lt_of_lt (by omega) (by omega)
  · refine byte_cons_lt (by omega) (by omega) (by omega) fun h1 => ?_
    refine byte_cons_lt (by omega) (by omega) (by omega) fun h2 => ?_
    exact byte_cons_lt_of_lt (by omega) (by omega)
  · refine byte_cons_lt (by omega) (by omega) (by omega) fun h1 => ?_
    refine byte_cons_lt (by omega) (by omega) (by omega) fun h2 => ?_
    refine byte_cons_lt (by omega) (by omega) (by omega) fun h3 => ?_
    exact byte_cons_lt_of_lt (by omega) (by omega)

/-! ### Two texts -/

theorem flatMap_encode_lt : ∀ {l m : List Char}, l < m →
    l.flatMap String.utf8EncodeChar < m.flatMap String.utf8EncodeChar
  | [], [], h => absurd h (List.lt_irrefl [])
  | [], d :: m, _ => by
    have hne : (d :: m).flatMap String.utf8EncodeChar ≠ [] := by
      simp [String.utf8EncodeChar_ne_nil]
    obtain ⟨b, rest, hcons⟩ := List.exists_cons_of_ne_nil hne
    rw [hcons]
    exact List.nil_lt_cons b rest
  | _ :: _, [], h => absurd h (List.not_lt_nil _)
  | c :: l, d :: m, h => by
    rw [List.flatMap_cons, List.flatMap_cons]
    rcases List.cons_lt_cons_iff.mp h with hlt | ⟨rfl, hrest⟩
    · exact encode_lt_encode hlt _ _
    · exact List.append_left_lt (flatMap_encode_lt hrest)

/-- **Texts are in the order of their bytes.** -/
theorem bytes_lt_iff {s t : String} : bytes s < bytes t ↔ s < t := by
  have hmono : ∀ {s t : String}, s < t → bytes s < bytes t := by
    intro s t h
    rw [bytes_eq_flatMap, bytes_eq_flatMap]
    exact flatMap_encode_lt (String.lt_iff.mp h)
  refine ⟨fun h => ?_, hmono⟩
  rcases lt_trichotomy s t with hlt | rfl | hgt
  · exact hlt
  · exact absurd h (List.lt_irrefl _)
  · exact absurd h (List.lt_asymm (hmono hgt))

theorem bytes_le_iff {s t : String} : bytes s ≤ bytes t ↔ s ≤ t := by
  rw [← List.not_lt, bytes_lt_iff, not_lt]

end OffsetGaps

/-
# Listings read back

Offsets are listed in decimal, a missing one as `null`: as words, or one on
each line of a text, whose last line may lack its line feed. Reading a listing
gives the offsets back: these are the plainest of all listings, without any
decoration, and their lines are short.

Key definitions: `Listing.word`, `Listing.Lists`.
Key theorems: `rawLines_flatMap`, `rawLines_intercalate`,
`Listing.spells_word`, `Listing.read_of_lists`.
-/
import Mathlib.Data.Nat.Digits.Defs
import OffsetGaps.Proofs.Decorations

namespace OffsetGaps

/-! ### Lines of a text that is made of lines -/

/-- Lines that are all ended. -/
theorem rawLines_flatMap {lines : List (List Char)} (hfeed : ∀ line ∈ lines, '\n' ∉ line) :
    rawLines (lines.flatMap (· ++ ['\n'])) = lines := by
  induction lines with
  | nil => rfl
  | cons line lines ih =>
    obtain ⟨hline, hrest⟩ := List.forall_mem_cons.mp hfeed
    rw [List.flatMap_cons, List.append_assoc, List.singleton_append, rawLines_append hline, ih hrest]

/-- Lines of which the last is not ended. -/
theorem rawLines_intercalate {lines : List (List Char)} (hfeed : ∀ line ∈ lines, '\n' ∉ line)
    (hne : ∀ line ∈ lines, line ≠ []) : rawLines (List.intercalate ['\n'] lines) = lines := by
  induction lines with
  | nil => rfl
  | cons line lines ih =>
    obtain ⟨hline, hrest⟩ := List.forall_mem_cons.mp hfeed
    obtain ⟨hline', hrest'⟩ := List.forall_mem_cons.mp hne
    cases lines with
    | nil =>
      rw [List.intercalate_singleton]
      exact rawLines_last hline hline'
    | cons next lines =>
      rw [List.intercalate_cons_cons, List.append_assoc, List.singleton_append,
        rawLines_append hline, ih hrest hrest']

/-! ### Words -/

theorem Decimal.length_write (n : Int64) : (write n.toInt).length ≤ 20 := by
  have hlow := n.le_toInt
  have hhigh := n.toInt_lt
  generalize n.toInt = z at hlow hhigh
  cases z with
  | ofNat m =>
    have hm : m < 10 ^ 19 := by
      have hcast : Int.ofNat m = (m : ℤ) := rfl
      omega
    have hlength := Nat.toDigits_length 10 m 19 (by decide) hm
    simp only [write]
    omega
  | negSucc m =>
    have hm : m + 1 < 10 ^ 19 := by omega
    have hlength := Nat.toDigits_length 10 (m + 1) 19 (by decide) hm
    simp only [write, List.length_cons]
    omega

namespace Listing

/-- A listed offset as it is written. -/
def word : Option Int64 → List Char
  | none => "null".toList
  | some n => Decimal.write n.toInt

theorem spells_word (offset : Option Int64) : Spells (word offset) offset := by
  cases offset with
  | none => exact .null
  | some n => exact .numeral (Decimal.readInt64_eq_ok_iff.mp (Decimal.readInt64_write n))

theorem length_word (offset : Option Int64) : (word offset).length ≤ 20 := by
  cases offset with
  | none => decide
  | some n => exact Decimal.length_write n

theorem Spells.utf8Size_eq_one {word : List Char} {offset : Option Int64} (h : Spells word offset) :
    ∀ c ∈ word, c.utf8Size = 1 := by
  intro c hc
  rcases h.digit_or_mark hc with hdigit | rfl | rfl | rfl | rfl | rfl
  · have hbetween : 48 ≤ c.val ∧ c.val ≤ 57 := by simpa [Char.isDigit] using hdigit
    rw [Char.utf8Size_eq_one_iff]
    exact UInt32.le_trans hbetween.2 (by decide)
  all_goals rfl

theorem short_word (offset : Option Int64) : Short (word offset) := by
  have hbytes := byteLength_eq_length (spells_word offset).utf8Size_eq_one
  have hlength := length_word offset
  rw [Short, ← byteLength_eq, hbytes]
  omega

theorem listed_words (offsets : List (Option Int64)) :
    Listed (offsets.map fun offset => String.ofList (word offset)) offsets := by
  rw [Listed, List.forall₂_map_left_iff, List.forall₂_same]
  intro offset _
  rw [String.toList_ofList]
  exact spells_word offset

/-! ### Listings -/

/-- The words and the text list the offsets: there are words, and the text is
not looked at, or there are none, and each line of the text holds an offset.
The last line may be ended or not. -/
inductive Lists (offsets : List (Option Int64)) : List String → List Char → Prop where
  | words (hne : offsets ≠ []) (text : List Char) :
    Lists offsets (offsets.map fun offset => String.ofList (word offset)) text
  | ended : Lists offsets [] ((offsets.map word).flatMap (· ++ ['\n']))
  | unended : Lists offsets [] (List.intercalate ['\n'] (offsets.map word))

/-- A text whose lines are words reads as the offsets they stand for. -/
theorem read_of_rawLines {text : List Char} {offsets : List (Option Int64)}
    (hlines : rawLines text = offsets.map word) : read [] text = .ok offsets := by
  have hdecorates := (listed_words offsets).decorates
  rw [List.map_map] at hdecorates
  simp only [Function.comp_def, String.toList_ofList] at hdecorates
  refine read_of_decorates hlines hdecorates ?_
  simp only [List.forall_mem_map]
  exact fun offset _ => short_word offset

/-- **Listings read back.** -/
theorem read_of_lists {offsets : List (Option Int64)} {words : List String} {text : List Char}
    (h : Lists offsets words text) : read words text = .ok offsets := by
  have hfeed : ∀ line ∈ offsets.map word, '\n' ∉ line := by
    simp only [List.forall_mem_map]
    intro offset _ hmem
    have hblank := (spells_word offset).not_blank hmem
    cases hblank
  have hne : ∀ line ∈ offsets.map word, line ≠ [] := by
    simp only [List.forall_mem_map]
    intro offset _
    exact (spells_word offset).ne_nil
  cases h with
  | words hsome text =>
    rw [read_words (by simpa using hsome)]
    simpa [readWords] using (listed_words offsets).readWords_append [] []
  | ended => exact read_of_rawLines (rawLines_flatMap hfeed)
  | unended => exact read_of_rawLines (rawLines_intercalate hfeed hne)

end Listing
end OffsetGaps

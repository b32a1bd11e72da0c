/-
# Listings with decorations

A listing that people write by hand holds more than its offsets: signs and
leading zeros, blanks around the words, blank lines, and line endings of
either kind, since a carriage return is a blank like the others. Reading looks
through all of it (`Listing.Decorates`), and gives the offsets in their order.

The first line that is neither blank nor such a word ends the reading, and so
does the first one that is too long, whichever comes first; lines are counted
as they stand in the text (`MadeOf`), the blank ones included. Words are read
by the same rules without the decorations. So words give what a text gives
that has one of them on each line, faults included: the text's fault is that
of the words with the number of the line in front.

Key definitions: `MadeOf`, `Listing.Spells`, `Listing.Shows`,
`Listing.Decorates`, `Listing.Bare`.
Key theorems: `madeOf_iff_rawLines`, `trim_between_blanks`,
`Listing.shows_iff`, `Listing.Decorates.readLines_append`,
`Listing.read_of_decorates`, `Listing.read_of_fault`,
`Listing.decorated_listing_read`, `Listing.words_read_as_lines`.
-/
import Mathlib.Data.List.Forall2
import OffsetGaps.Cli.Listing
import OffsetGaps.Proofs.Lines
import OffsetGaps.Proofs.Numerals

namespace OffsetGaps

/-! ### Lines of a text -/

/-- **The text is made of these lines.** Each line is ended by a line feed,
which the last one may lack if it is not empty. -/
inductive MadeOf : List (List Char) → List Char → Prop where
  | nothing : MadeOf [] []
  | unended {line : List Char} (hfeed : '\n' ∉ line) (hne : line ≠ []) : MadeOf [line] line
  | ended {line text : List Char} {lines : List (List Char)} (hfeed : '\n' ∉ line)
    (hrest : MadeOf lines text) : MadeOf (line :: lines) (line ++ '\n' :: text)

theorem MadeOf.cons {c : Char} (hc : c ≠ '\n') {lines : List (List Char)} {text : List Char}
    (h : MadeOf lines text) : MadeOf (consLine c lines) (c :: text) := by
  have hcons {line : List Char} (hfeed : '\n' ∉ line) : '\n' ∉ c :: line := by
    rw [List.mem_cons, not_or]
    exact ⟨hc.symm, hfeed⟩
  cases h with
  | nothing => exact .unended (hcons List.not_mem_nil) (List.cons_ne_nil c [])
  | unended hfeed _ => exact .unended (hcons hfeed) (List.cons_ne_nil c _)
  | ended hfeed hrest => exact .ended (hcons hfeed) hrest

theorem rawLines_append {line : List Char} (hfeed : '\n' ∉ line) (text : List Char) :
    rawLines (line ++ '\n' :: text) = line :: rawLines text := by
  induction line with
  | nil => rfl
  | cons c line ih =>
    rw [List.mem_cons, not_or] at hfeed
    have hc : c ≠ '\n' := fun h => hfeed.1 h.symm
    rw [List.cons_append, rawLines_cons, if_neg hc, ih hfeed.2]
    rfl

theorem rawLines_last {line : List Char} (hfeed : '\n' ∉ line) (hne : line ≠ []) :
    rawLines line = [line] := by
  induction line with
  | nil => exact absurd rfl hne
  | cons c line ih =>
    rw [List.mem_cons, not_or] at hfeed
    have hc : c ≠ '\n' := fun h => hfeed.1 h.symm
    rw [rawLines_cons, if_neg hc]
    by_cases hline : line = []
    · rw [hline]; rfl
    · rw [ih hfeed.2 hline]; rfl

/-- Every text is made of its lines, and of no others. -/
theorem madeOf_iff_rawLines {lines : List (List Char)} {text : List Char} :
    MadeOf lines text ↔ rawLines text = lines := by
  constructor
  · intro h
    induction h with
    | nothing => rfl
    | unended hfeed hne => exact rawLines_last hfeed hne
    | ended hfeed _ ih => rw [rawLines_append hfeed, ih]
  · rintro rfl
    induction text with
    | nil => exact .nothing
    | cons c text ih =>
      rw [rawLines_cons]
      by_cases hc : c = '\n'
      · rw [if_pos hc, hc]
        exact .ended List.not_mem_nil ih
      · rw [if_neg hc]
        exact ih.cons hc

theorem byteLength_eq_length {cs : List Char} (h : ∀ c ∈ cs, c.utf8Size = 1) :
    byteLength cs = cs.length := by
  rw [byteLength_eq]
  induction cs with
  | nil => rfl
  | cons c cs ih =>
    obtain ⟨hc, hrest⟩ := List.forall_mem_cons.mp h
    rw [utf8ByteSize_cons, hc, ih hrest, List.length_cons]
    omega

/-! ### Blanks around a word -/

/-- Blanks at the two ends do not matter. -/
theorem trim_between_blanks {left right : List Char} (hleft : left.all isBlank = true)
    (hright : right.all isBlank = true) (cs : List Char) :
    trim (left ++ cs ++ right) = trim cs := by
  rw [List.all_eq_true] at hleft hright
  have hreverse : ∀ c ∈ right.reverse, isBlank c = true := fun c hc =>
    hright c (List.mem_reverse.mp hc)
  unfold trim
  rw [List.append_assoc, List.dropWhile_append_of_pos hleft, List.dropWhile_append]
  cases hcs : cs.dropWhile isBlank with
  | nil => simp [List.dropWhile_eq_nil_iff.mpr hright]
  | cons c rest =>
    rw [if_neg (by simp), List.reverse_append, List.dropWhile_append_of_pos hreverse]

/-- A text without blanks at its two ends is not trimmed. -/
theorem trim_eq_self_of_ends {cs : List Char} (hhead : ∀ c ∈ cs.head?, isBlank c = false)
    (hlast : ∀ c ∈ cs.getLast?, isBlank c = false) : trim cs = cs := by
  have hdrop {ds : List Char} (hds : ∀ c ∈ ds.head?, isBlank c = false) :
      ds.dropWhile isBlank = ds := by
    cases ds with
    | nil => rfl
    | cons c ds => simp [hds c rfl]
  have hreverse : ∀ c ∈ cs.reverse.head?, isBlank c = false := by
    rw [List.head?_reverse]
    exact hlast
  unfold trim
  rw [hdrop hhead, hdrop hreverse, List.reverse_reverse]

theorem trim_eq_self {cs : List Char} (h : ∀ c ∈ cs, isBlank c = false) : trim cs = cs :=
  trim_eq_self_of_ends (fun c hc => h c (List.mem_of_head? hc))
    fun c hc => h c (List.mem_of_getLast? hc)

/-- What is trimmed off a text are blanks at its two ends. -/
theorem exists_between_blanks (cs : List Char) :
    ∃ left right, cs = left ++ trim cs ++ right ∧ left.all isBlank = true ∧
      right.all isBlank = true := by
  have hblank (ds : List Char) : (ds.takeWhile isBlank).all isBlank = true := by simp
  refine ⟨cs.takeWhile isBlank, ((cs.dropWhile isBlank).reverse.takeWhile isBlank).reverse, ?_,
    hblank cs, ?_⟩
  · unfold trim
    rw [List.append_assoc, ← List.reverse_append, List.takeWhile_append_dropWhile,
      List.reverse_reverse, List.takeWhile_append_dropWhile]
  · rw [List.all_reverse]
    exact hblank _

/-- The carriage return that may end a line is a blank. -/
theorem trim_dropReturn (line : List Char) : trim (dropReturn line) = trim line := by
  unfold dropReturn
  split
  · rename_i rest hreverse
    have hline : line = [] ++ rest.reverse ++ ['\r'] := by
      rw [← List.reverse_reverse line, hreverse]
      simp
    rw [hline, trim_between_blanks rfl rfl]
  · rfl

namespace Listing

/-! ### Words and lines -/

/-- **A word and the offset it stands for**: `null`, or a sign, which may be
left out, and digits whose value it is, leading zeros among them. -/
inductive Spells : List Char → Option Int64 → Prop where
  | null : Spells "null".toList none
  | numeral {word : List Char} {n : Int64} (h : Decimal.Numeral word n.toInt) : Spells word (some n)

/-- A line that holds a word between blanks, and the offset that the word
stands for. -/
inductive Shows : List Char → Option Int64 → Prop where
  | word {left word right : List Char} {offset : Option Int64} (hleft : left.all isBlank = true)
    (hright : right.all isBlank = true) (hword : Spells word offset) :
    Shows (left ++ word ++ right) offset

/-- **Lines and the offsets they list.** Each line is blank, or shows the next
offset. -/
inductive Decorates : List (List Char) → List (Option Int64) → Prop where
  | nothing : Decorates [] []
  | blank {line : List Char} {lines : List (List Char)} {offsets : List (Option Int64)}
    (hblank : line.all isBlank = true) (hrest : Decorates lines offsets) :
    Decorates (line :: lines) offsets
  | offset {line : List Char} {lines : List (List Char)} {offset : Option Int64}
    {offsets : List (Option Int64)} (hshows : Shows line offset) (hrest : Decorates lines offsets) :
    Decorates (line :: lines) (offset :: offsets)

/-- The line is shorter than the limit, its carriage return counted. -/
def Short (line : List Char) : Prop := (String.ofList line).utf8ByteSize < 65536

/-- A word is read as the offset that it stands for. -/
theorem readOffset_eq_ok_iff {word : List Char} {offset : Option Int64} :
    readOffset word = .ok offset ↔ Spells word offset := by
  constructor
  · intro h
    unfold readOffset at h
    split_ifs at h with hnull
    · rw [hnull, ← Except.ok.inj h]
      exact .null
    · cases hread : Decimal.readInt64 word with
      | error e => rw [hread] at h; cases h
      | ok n =>
        rw [hread] at h
        rw [← Except.ok.inj h]
        exact .numeral (Decimal.readInt64_eq_ok_iff.mp hread)
  · intro h
    cases h with
    | null => rfl
    | @numeral _ n h =>
      have hne : word ≠ "null".toList := by
        rintro rfl
        rcases h.digit_or_sign (c := 'n') (by decide) with hdigit | hplus | hminus
        · cases hdigit
        · cases hplus
        · cases hminus
      rw [readOffset, if_neg hne, Decimal.readInt64_eq_ok_iff.mpr h]
      rfl

theorem Spells.digit_or_mark {word : List Char} {offset : Option Int64} (h : Spells word offset)
    {c : Char} (hc : c ∈ word) :
    c.isDigit = true ∨ c = '+' ∨ c = '-' ∨ c = 'n' ∨ c = 'u' ∨ c = 'l' := by
  cases h with
  | null =>
    have hletter : c = 'n' ∨ c = 'u' ∨ c = 'l' := by simpa using hc
    exact Or.inr (Or.inr (Or.inr hletter))
  | numeral h =>
    rcases h.digit_or_sign hc with hdigit | hplus | hminus
    · exact Or.inl hdigit
    · exact Or.inr (Or.inl hplus)
    · exact Or.inr (Or.inr (Or.inl hminus))

theorem Spells.not_blank {word : List Char} {offset : Option Int64} (h : Spells word offset)
    {c : Char} (hc : c ∈ word) : isBlank c = false := by
  rcases h.digit_or_mark hc with hdigit | rfl | rfl | rfl | rfl | rfl
  · by_contra hblank
    rw [isDigit_of_blank (by simpa using hblank)] at hdigit
    cases hdigit
  all_goals rfl

theorem Spells.ne_nil {word : List Char} {offset : Option Int64} (h : Spells word offset) :
    word ≠ [] := by
  cases h with
  | null => decide
  | numeral h => exact h.ne_nil

/-- A line shows an offset if and only if this is what is read from it after
trimming. -/
theorem shows_iff {line : List Char} {offset : Option Int64} :
    Shows line offset ↔ readOffset (trim line) = .ok offset := by
  rw [readOffset_eq_ok_iff]
  constructor
  · intro h
    cases h with
    | word hleft hright hword =>
      rw [trim_between_blanks hleft hright, trim_eq_self fun _ hc => hword.not_blank hc]
      exact hword
  · intro hword
    obtain ⟨left, right, hline, hleft, hright⟩ := exists_between_blanks line
    rw [hline]
    exact .word hleft hright hword

/-! ### Reading line by line -/

theorem readLines_blank {line : List Char} (hblank : line.all isBlank = true) (overlong : Bool)
    (done : List (Option Int64)) (number : ℕ) (rest : List (List Char)) :
    readLines overlong done number (dropReturn line :: rest) =
      readLines overlong done (number + 1) rest := by
  simp only [readLines, trim_dropReturn, trim_eq_nil_iff.mpr hblank]

/-- A line that is not blank is read as a word. -/
theorem readLines_word {line : List Char} (hline : ¬ line.all isBlank = true) (overlong : Bool)
    (done : List (Option Int64)) (number : ℕ) (rest : List (List Char)) :
    readLines overlong done number (dropReturn line :: rest) =
      match readOffset (trim line) with
      | .ok offset => readLines overlong (offset :: done) (number + 1) rest
      | .error e => .error (.badLine number (String.ofList (trim line)) e) := by
  rw [readLines, trim_dropReturn]
  cases hword : trim line with
  | nil => exact absurd (trim_eq_nil_iff.mp hword) hline
  | cons c cs => rfl

theorem readLines_shows {line : List Char} {offset : Option Int64} (hshows : Shows line offset)
    (overlong : Bool) (done : List (Option Int64)) (number : ℕ) (rest : List (List Char)) :
    readLines overlong done number (dropReturn line :: rest) =
      readLines overlong (offset :: done) (number + 1) rest := by
  have hread := shows_iff.mp hshows
  have hline : ¬ line.all isBlank = true := by
    intro hblank
    rw [trim_eq_nil_iff.mpr hblank] at hread
    exact (readOffset_eq_ok_iff.mp hread).ne_nil rfl
  rw [readLines_word hline, hread]

/-- **Decorated lines are read as the offsets that they list**, whatever stands
before and behind them. -/
theorem Decorates.readLines_append {lines : List (List Char)} {offsets : List (Option Int64)}
    (h : Decorates lines offsets) (overlong : Bool) (done : List (Option Int64)) (number : ℕ)
    (rest : List (List Char)) :
    readLines overlong done number (lines.map dropReturn ++ rest) =
      readLines overlong (offsets.reverse ++ done) (number + lines.length) rest := by
  induction h generalizing done number with
  | nothing => rfl
  | blank hblank _ ih =>
    rw [List.map_cons, List.cons_append, readLines_blank hblank, ih, List.length_cons,
      Nat.add_right_comm, Nat.add_assoc]
  | offset hshows _ ih =>
    rw [List.map_cons, List.cons_append, readLines_shows hshows, ih, List.length_cons,
      List.reverse_cons, List.append_assoc, List.singleton_append, Nat.add_right_comm,
      Nat.add_assoc]

/-! ### Reading a text -/

def fits (line : List Char) : Bool := byteLength line < lineLimit

theorem fits_iff {line : List Char} : fits line = true ↔ Short line := by
  rw [fits, decide_eq_true_eq, byteLength_eq, lineLimit, Short]

section Text

variable {before after : List (List Char)} {line text : List Char} {offsets : List (Option Int64)}

/-- What is read of a text behind some decorated lines. -/
theorem read_behind {rest : List (List Char)} (hlines : rawLines text = before ++ rest)
    (hbefore : Decorates before offsets) (hshort : ∀ l ∈ before, Short l) :
    read [] text =
      readLines (!rest.all fits) offsets.reverse (1 + before.length)
        ((rest.takeWhile fits).map dropReturn) := by
  have hfits : ∀ l ∈ before, fits l = true := fun l hl => fits_iff.mpr (hshort l hl)
  have hread : read [] text = readLines (!(rawLines text).all fits) [] 1
      (((rawLines text).takeWhile fits).map dropReturn) := rfl
  rw [hread, hlines, List.takeWhile_append_of_pos hfits, List.map_append,
    hbefore.readLines_append, List.append_nil, List.all_append, List.all_eq_true.mpr hfits,
    Bool.true_and]

/-- **A decorated listing is read as its offsets.** -/
theorem read_of_decorates (hlines : rawLines text = before) (hbefore : Decorates before offsets)
    (hshort : ∀ l ∈ before, Short l) : read [] text = .ok offsets := by
  rw [← List.append_nil before] at hlines
  rw [read_behind hlines hbefore hshort]
  simp [readLines]

theorem read_of_overlong (hlines : rawLines text = before ++ line :: after)
    (hbefore : Decorates before offsets) (hshort : ∀ l ∈ before, Short l) (hlong : ¬ Short line) :
    read [] text = .error .overlong := by
  have hfits : fits line = false := by
    rw [Bool.eq_false_iff, ne_eq, fits_iff]
    exact hlong
  rw [read_behind hlines hbefore hshort, List.all_cons, List.takeWhile_cons, hfits]
  rfl

/-- A line that holds no offset ends the reading, and is named by its number. -/
theorem read_of_fault (hlines : rawLines text = before ++ line :: after)
    (hbefore : Decorates before offsets) (hshort : ∀ l ∈ before, Short l) (hline : Short line)
    (hfull : ¬ line.all isBlank = true) {e : NumberError} (hfault : readOffset (trim line) = .error e) :
    read [] text = .error (.badLine (before.length + 1) (String.ofList (trim line)) e) := by
  rw [read_behind hlines hbefore hshort, List.takeWhile_cons, if_pos (fits_iff.mpr hline),
    List.map_cons, readLines_word hfull, hfault, Nat.add_comm 1]

end Text

theorem exists_wordMessage (word : String) (cause : NumberError) :
    ∃ rest, ListingError.wordMessage word cause = "invalid offset" ++ rest := by
  have hend : "invalid offset " = "invalid offset" ++ " " := rfl
  unfold ListingError.wordMessage
  rw [hend]
  simp only [String.append_assoc]
  exact ⟨_, rfl⟩

/-- The message for a line starts with its number. -/
theorem exists_message_badLine (number : ℕ) (word : String) (cause : NumberError) :
    ∃ rest, (ListingError.badLine number word cause).message =
      "line " ++ Decimal.text number ++ ": invalid offset" ++ rest := by
  obtain ⟨rest, hrest⟩ := exists_wordMessage word cause
  have hstart : ": invalid offset" = ": " ++ "invalid offset" := rfl
  refine ⟨rest, ?_⟩
  rw [ListingError.message, hrest, hstart]
  simp only [String.append_assoc]

/-- **Decorated listings are read back, and faults are told by their line.** A
text is made of some lines.

* If the lines list offsets, one on a line, in any spelling, with blanks
  around them and blank lines between, and no line is too long, the text is
  read as these offsets.
* If all lines before one do, and this one is not too long, not blank, and
  shows no offset, the text is refused with its number and what it holds.
* If all lines before one do, and this one is too long, the text is refused
  for that. -/
theorem decorated_listing_read {lines : List (List Char)} {text : List Char}
    (h : MadeOf lines text) :
    (∀ offsets, Decorates lines offsets → (∀ line ∈ lines, Short line) →
      read [] text = .ok offsets) ∧
    ∀ before line after, lines = before ++ line :: after →
      (∃ offsets, Decorates before offsets) → (∀ l ∈ before, Short l) →
        (Short line → ¬ line.all isBlank = true → (∀ offset, ¬ Shows line offset) →
          ∃ e rest, read [] text = .error e ∧
            e.message = "line " ++ Decimal.text (before.length + 1 : ℕ) ++ ": invalid offset" ++ rest) ∧
        (¬ Short line → read [] text = .error .overlong) := by
  have hlines := madeOf_iff_rawLines.mp h
  refine ⟨fun offsets hlisted hshort => read_of_decorates hlines hlisted hshort, ?_⟩
  rintro before line after rfl ⟨offsets, hbefore⟩ hshort
  refine ⟨fun hline hfull hnone => ?_, read_of_overlong hlines hbefore hshort⟩
  cases hread : readOffset (trim line) with
  | ok offset => exact absurd (shows_iff.mpr hread) (hnone offset)
  | error e =>
    obtain ⟨rest, hmessage⟩ := exists_message_badLine (before.length + 1) (String.ofList (trim line)) e
    exact ⟨_, rest, read_of_fault hlines hbefore hshort hline hfull hread, hmessage⟩

/-- Signs, leading zeros, blanks beyond the ASCII ones, both kinds of line
endings and the least offset; a fault behind a blank line and an offset; and a
line that just reaches the limit. -/
theorem decorated_listing_read_mixed :
    read [] "\t+007\r\n\n\u2003null\u00a0\n -9223372036854775808".toList =
      .ok [some 7, none, some Int64.minValue] ∧
    (∃ e rest, read [] "\n 1\r\n1 2\nnull\n".toList = .error e ∧
      e.message = "line " ++ Decimal.text (2 + 1 : ℕ) ++ ": invalid offset" ++ rest) ∧
    read [] ('7' :: '\n' :: List.replicate 65536 '0') = .error .overlong := by
  have hshort (lines : List (List Char)) (h : lines.all fits = true) : ∀ l ∈ lines, Short l :=
    fun l hl => fits_iff.mp (List.all_eq_true.mp h l hl)
  refine ⟨?_, ?_, ?_⟩
  · refine (decorated_listing_read (madeOf_iff_rawLines.mpr rfl)).1 _ ?_ (hshort _ (by decide +kernel))
    exact .offset (shows_iff.mpr rfl) (.blank rfl (.offset (shows_iff.mpr rfl)
      (.offset (shows_iff.mpr rfl) .nothing)))
  · refine ((decorated_listing_read (madeOf_iff_rawLines.mpr rfl)).2 ["".toList, " 1\r".toList]
      "1 2".toList ["null".toList] rfl ⟨[some 1], .blank rfl (.offset (shows_iff.mpr rfl) .nothing)⟩
      (hshort _ (by decide +kernel))).1 (fits_iff.mp (by decide +kernel)) (by decide) fun offset h => ?_
    cases shows_iff.mp h
  · have hzero : ∀ c ∈ List.replicate 65536 '0', c = '0' := fun c hc => List.eq_of_mem_replicate hc
    have hne : List.replicate 65536 '0' ≠ [] := by
      apply List.ne_nil_of_length_pos
      rw [List.length_replicate]
      decide
    have hmade : MadeOf [['7'], List.replicate 65536 '0'] ('7' :: '\n' :: List.replicate 65536 '0') :=
      .ended (by decide) (.unended (fun h => absurd (hzero _ h) (by decide)) hne)
    refine ((decorated_listing_read hmade).2 [['7']] (List.replicate 65536 '0') [] rfl
      ⟨[some 7], .offset (shows_iff.mpr rfl) .nothing⟩ (hshort _ (by decide +kernel))).2 ?_
    rw [Short, ← byteLength_eq, byteLength_eq_length fun c hc => by rw [hzero c hc]; rfl,
      List.length_replicate]
    exact Nat.lt_irrefl _

/-! ### Words -/

/-- A word that reads the same on a line of its own: it is not empty, it
neither starts nor ends with a blank, and it is shorter than the limit. -/
structure Bare (word : String) : Prop where
  ne_nil : word.toList ≠ []
  head : ∀ c ∈ word.toList.head?, isBlank c = false
  last : ∀ c ∈ word.toList.getLast?, isBlank c = false
  short : word.utf8ByteSize < 65536

instance (word : String) : Decidable (Bare word) :=
  decidable_of_iff
    (word.toList ≠ [] ∧ (word.toList.head?.all fun c => !isBlank c) = true ∧
      (word.toList.getLast?.all fun c => !isBlank c) = true ∧ word.utf8ByteSize < 65536) <| by
    simp only [Option.all_eq_true, Bool.not_eq_true']
    exact ⟨fun h => ⟨h.1, h.2.1, h.2.2.1, h.2.2.2⟩, fun h => ⟨h.ne_nil, h.head, h.last, h.short⟩⟩

def Listed (words : List String) (offsets : List (Option Int64)) : Prop :=
  List.Forall₂ (fun word offset => Spells word.toList offset) words offsets

theorem Bare.trim_eq {word : String} (h : Bare word) : trim word.toList = word.toList :=
  trim_eq_self_of_ends h.head h.last

theorem Bare.short_line {word : String} (h : Bare word) : Short word.toList := by
  rw [Short, String.ofList_toList]
  exact h.short

theorem Bare.not_blank {word : String} (h : Bare word) : ¬ word.toList.all isBlank = true := by
  rw [← trim_eq_nil_iff, h.trim_eq]
  exact h.ne_nil

/-- Words that stand for offsets are lines that show them. -/
theorem Listed.decorates {words : List String} {offsets : List (Option Int64)}
    (h : Listed words offsets) : Decorates (words.map String.toList) offsets := by
  induction h with
  | nil => exact .nothing
  | cons hword _ ih =>
    have hshows := Shows.word (List.all_nil) (List.all_nil) hword
    rw [List.nil_append, List.append_nil] at hshows
    exact .offset hshows ih

theorem Listed.exists_spells {words : List String} {offsets : List (Option Int64)}
    (h : Listed words offsets) : ∀ word ∈ words, ∃ offset, Spells word.toList offset := by
  induction h with
  | nil => exact fun _ hword => absurd hword List.not_mem_nil
  | cons hword _ ih => exact List.forall_mem_cons.mpr ⟨⟨_, hword⟩, ih⟩

theorem Listed.readWords_append {words : List String} {offsets : List (Option Int64)}
    (h : Listed words offsets) (done : List (Option Int64)) (rest : List String) :
    readWords done (words ++ rest) = readWords (offsets.reverse ++ done) rest := by
  induction h generalizing done with
  | nil => rfl
  | cons hword _ ih =>
    rw [List.cons_append, readWords, readOffset_eq_ok_iff.mpr hword, List.reverse_cons,
      List.append_assoc]
    exact ih _

/-- Words all stand for offsets, or there is a first one that does not. -/
theorem listed_or_fault : ∀ words : List String,
    (∃ offsets, Listed words offsets) ∨
      ∃ before word after offsets e, words = before ++ word :: after ∧ Listed before offsets ∧
        readOffset word.toList = .error e
  | [] => Or.inl ⟨[], .nil⟩
  | word :: rest => by
    cases hread : readOffset word.toList with
    | error e => exact Or.inr ⟨[], word, rest, [], e, rfl, .nil, hread⟩
    | ok offset =>
      have hword := readOffset_eq_ok_iff.mp hread
      rcases listed_or_fault rest with ⟨offsets, h⟩ | ⟨before, bad, after, offsets, e, rfl, h, hbad⟩
      · exact Or.inl ⟨offset :: offsets, .cons hword h⟩
      · exact Or.inr ⟨word :: before, bad, after, offset :: offsets, e, rfl, .cons hword h, hbad⟩

theorem read_words {words : List String} (hne : words ≠ []) (text : List Char) :
    read words text = readWords [] words := by
  cases words with
  | nil => exact absurd rfl hne
  | cons word rest => rfl

/-- **Words are read as the lines of a text.** A text has on each line one of
some words, and the words read the same there. The words are read as a list of
offsets if and only if the text is. If the words are refused, then for the
first of them that stands for no offset, and the text is refused for it as
well, with the number of its line in front. -/
theorem words_read_as_lines {words : List String} (hne : words ≠ [])
    (hbare : ∀ word ∈ words, Bare word) {text : List Char}
    (htext : MadeOf (words.map String.toList) text) (other : List Char) :
    (∀ offsets, read words other = .ok offsets ↔ read [] text = .ok offsets) ∧
    ∀ e, read words other = .error e → ∃ i word cause, words[i]? = some word ∧
      (∀ offset, ¬ Spells word.toList offset) ∧
      (∀ earlier ∈ words.take i, ∃ offset, Spells earlier.toList offset) ∧
      e = .badOffset word cause ∧ read [] text = .error (.badLine (i + 1) word cause) ∧
      (ListingError.badLine (i + 1) word cause).message =
        "line " ++ Decimal.text (i + 1 : ℕ) ++ ": " ++ e.message := by
  have hlines := madeOf_iff_rawLines.mp htext
  rw [read_words hne]
  rcases listed_or_fault words with ⟨offsets, h⟩ | ⟨before, word, after, offsets, cause, rfl, h, hbad⟩
  · have hwords : readWords [] words = .ok offsets := by
      simpa [readWords] using h.readWords_append [] []
    have hshort : ∀ line ∈ words.map String.toList, Short line := by
      rw [List.forall_mem_map]
      exact fun word hword => (hbare word hword).short_line
    rw [hwords, read_of_decorates hlines h.decorates hshort]
    exact ⟨fun _ => Iff.rfl, fun e he => by cases he⟩
  · have hwords : readWords [] (before ++ word :: after) = .error (.badOffset word cause) := by
      rw [h.readWords_append, readWords, hbad]
    have hword : Bare word := hbare word (by simp)
    have hshort : ∀ line ∈ before.map String.toList, Short line := by
      rw [List.forall_mem_map]
      exact fun w hw => (hbare w (List.mem_append_left _ hw)).short_line
    have hline : rawLines text =
        before.map String.toList ++ word.toList :: after.map String.toList := by
      rw [hlines, List.map_append, List.map_cons]
    have hfault : read [] text = .error (.badLine (before.length + 1) word cause) := by
      have hread := read_of_fault hline h.decorates hshort hword.short_line hword.not_blank
        (by rw [hword.trim_eq]; exact hbad)
      rw [hword.trim_eq, String.ofList_toList, List.length_map] at hread
      exact hread
    rw [hwords, hfault]
    refine ⟨fun _ => iff_of_false (by simp) (by simp), ?_⟩
    rintro e he
    refine ⟨before.length, word, cause, by simp, fun offset hspells => ?_, ?_,
      (Except.error.inj he).symm, rfl, ?_⟩
    · rw [readOffset_eq_ok_iff.mpr hspells] at hbad
      cases hbad
    · rw [List.take_left]
      exact h.exists_spells
    · rw [← Except.error.inj he]
      rfl

/-- Offsets at both ends of their range are read, and one beyond is refused in
either form, before a word that is malformed. -/
theorem words_read_as_lines_range :
    (read ["-9223372036854775808", "+09223372036854775807"] "7".toList =
        .ok [some Int64.minValue, some Int64.maxValue] ∧
      read [] "-9223372036854775808\n+09223372036854775807".toList =
        .ok [some Int64.minValue, some Int64.maxValue]) ∧
    read ["null", "9223372036854775808", "1 2"] "7".toList =
      .error (.badOffset "9223372036854775808" .outOfRange) ∧
    ∃ i word cause, ["null", "9223372036854775808", "1 2"][i]? = some word ∧
      read [] "null\n9223372036854775808\n1 2\n".toList = .error (.badLine (i + 1) word cause) := by
  have hread : read ["-9223372036854775808", "+09223372036854775807"] "7".toList =
      .ok [some Int64.minValue, some Int64.maxValue] := rfl
  have hrefused : read ["null", "9223372036854775808", "1 2"] "7".toList =
      .error (.badOffset "9223372036854775808" .outOfRange) := rfl
  refine ⟨⟨hread, ?_⟩, hrefused, ?_⟩
  · exact ((words_read_as_lines (by decide) (by decide +kernel) (madeOf_iff_rawLines.mpr rfl) _).1
      _).mp hread
  · have htext : MadeOf (["null", "9223372036854775808", "1 2"].map String.toList)
        "null\n9223372036854775808\n1 2\n".toList := madeOf_iff_rawLines.mpr rfl
    obtain ⟨i, word, cause, hword, _, _, _, hline, _⟩ :=
      (words_read_as_lines (by decide) (by decide +kernel) htext _).2 _ hrefused
    exact ⟨i, word, cause, hword, hline⟩

end Listing
end OffsetGaps

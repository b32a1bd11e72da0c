/-
# Lines in and lines out

The protocol puts a command or an answer on each line, so line feeds must
stand between lines and nowhere else. On the way in, the lines of a text hold
no line feed and give the text back when each is ended by one. On the way
out, whatever a value repeats of a command (identifiers, names, texts with
control characters) is escaped, so that its text never breaks a line.

A line that is blank holds no command.

Key definitions: `upTo`, `ended`.
Key theorems: `flatMap_rawLines`, `feed_not_mem_rawLines`,
`Command.read_of_blank`, `Json.feed_not_mem_stringText`,
`Json.feed_not_mem_objectText`.
-/
import Mathlib.Data.List.Basic
import Mathlib.Data.List.TakeWhile
import OffsetGaps.Protocol.Answer
import OffsetGaps.Protocol.Command
import OffsetGaps.Text.Blank
import OffsetGaps.Text.Lines

namespace OffsetGaps

/-- The items of a list up to the first with a property, this one
included. -/
def upTo {α : Type} (p : α → Bool) (items : List α) : List α := items.take (items.findIdx p + 1)

theorem upTo_cons {α : Type} (p : α → Bool) (a : α) (rest : List α) :
    upTo p (a :: rest) = if p a then [a] else a :: upTo p rest := by
  cases ha : p a <;> simp [upTo, List.findIdx_cons, ha]

/-! ### Lines of a text -/

/-- The text with its last line ended. -/
def ended (text : List Char) : List Char :=
  if text.getLast?.all (· == '\n') then text else text ++ ['\n']

theorem rawLines_cons (c : Char) (text : List Char) :
    rawLines (c :: text) =
      if c = '\n' then [] :: rawLines text else consLine c (rawLines text) := rfl

theorem ended_cons (c : Char) {text : List Char} (h : c = '\n' ∨ text ≠ []) :
    ended (c :: text) = c :: ended text := by
  have hlast : (c :: text).getLast?.all (· == '\n') = text.getLast?.all (· == '\n') := by
    rw [List.getLast?_cons]
    cases htext : text.getLast? with
    | some last => rfl
    | none =>
      rcases h with rfl | hne
      · rfl
      · exact absurd (List.getLast?_eq_none_iff.mp htext) hne
  rw [ended, ended, hlast]
  split <;> rfl

theorem rawLines_eq_nil {text : List Char} (h : rawLines text = []) : text = [] := by
  cases text with
  | nil => rfl
  | cons c rest =>
    rw [rawLines_cons] at h
    split at h
    · cases h
    · cases hrest : rawLines rest <;> (rw [hrest] at h; cases h)

/-- The lines of a text make it up, each with its line feed. -/
theorem flatMap_rawLines (text : List Char) :
    (rawLines text).flatMap (· ++ ['\n']) = ended text := by
  induction text with
  | nil => rfl
  | cons c rest ih =>
    rw [rawLines_cons]
    by_cases hc : c = '\n'
    · rw [if_pos hc, ended_cons c (Or.inl hc), List.flatMap_cons, ih, hc]
      rfl
    · rw [if_neg hc]
      cases hlines : rawLines rest with
      | nil =>
        rw [rawLines_eq_nil hlines, ended, if_neg (by simpa using hc)]
        rfl
      | cons line lines =>
        have hne : rest ≠ [] := by rintro rfl; cases hlines
        rw [ended_cons c (Or.inr hne), ← ih, hlines]
        rfl

/-- No line of a text holds a line feed. -/
theorem feed_not_mem_rawLines (text : List Char) : ∀ line ∈ rawLines text, '\n' ∉ line := by
  induction text with
  | nil => exact fun _ h => by cases h
  | cons c rest ih =>
    rw [rawLines_cons]
    by_cases hc : c = '\n'
    · rw [if_pos hc, List.forall_mem_cons]
      exact ⟨List.not_mem_nil, ih⟩
    · rw [if_neg hc]
      cases hlines : rawLines rest with
      | nil =>
        rw [consLine, List.forall_mem_singleton, List.mem_singleton]
        exact fun h => hc h.symm
      | cons line lines =>
        rw [hlines, List.forall_mem_cons] at ih
        rw [consLine, List.forall_mem_cons, List.mem_cons, not_or]
        exact ⟨⟨fun h => hc h.symm, ih.1⟩, ih.2⟩

theorem utf8ByteSize_cons (c : Char) (cs : List Char) :
    (String.ofList (c :: cs)).utf8ByteSize = c.utf8Size + (String.ofList cs).utf8ByteSize := by
  have hsplit : String.ofList (c :: cs) = String.singleton c ++ String.ofList cs := by
    rw [String.singleton_eq_ofList, ← String.ofList_append]; rfl
  rw [hsplit, String.utf8ByteSize_append, String.utf8ByteSize_singleton]

theorem byteLength_eq (line : List Char) : byteLength line = (String.ofList line).utf8ByteSize := by
  have hsum : ∀ (cs : List Char) (n : ℕ),
      cs.foldl (fun n c => n + c.utf8Size) n = n + (String.ofList cs).utf8ByteSize := by
    intro cs
    induction cs with
    | nil => intro n; rfl
    | cons c rest ih => intro n; rw [List.foldl_cons, ih, utf8ByteSize_cons, Nat.add_assoc]
  rw [byteLength, hsum, Nat.zero_add]

/-! ### Blank lines -/

theorem trim_eq_nil_iff {line : List Char} : trim line = [] ↔ line.all isBlank = true := by
  rw [trim, List.reverse_eq_nil_iff, List.dropWhile_eq_nil_iff, List.all_eq_true]
  constructor
  · intro h
    have hnil : line.dropWhile isBlank = [] := by
      cases hrest : line.dropWhile isBlank with
      | nil => rfl
      | cons c rest =>
        -- the first character that is left over is not blank
        have hc : isBlank c = true := h c (by rw [hrest]; simp)
        have hhead := List.head?_dropWhile_not isBlank line
        rw [hrest] at hhead
        simp [hc] at hhead
    exact List.dropWhile_eq_nil_iff.mp hnil
  · intro h
    rw [List.dropWhile_eq_nil_iff.mpr h]
    exact fun _ hc => by cases hc

theorem isDigit_of_blank {c : Char} (hc : isBlank c = true) : c.isDigit = false := by
  refine Bool.eq_false_iff.mpr fun hdigit => ?_
  have hbetween : 48 ≤ c.val ∧ c.val ≤ 57 := by simpa [Char.isDigit] using hdigit
  have hrange : 48 ≤ c.toNat ∧ c.toNat ≤ 57 := hbetween
  simp only [isBlank, Bool.or_eq_true, Bool.and_eq_true, decide_eq_true_eq, beq_iff_eq] at hc
  omega

/-- No token starts with a blank. -/
theorem Json.token_of_blank {c : Char} (hc : isBlank c = true) (rest : List Char) :
    token (c :: rest) = none := by
  have hne : ∀ d : Char, isBlank d = false → c ≠ d := by
    rintro d hd rfl
    rw [hc] at hd
    cases hd
  unfold token
  split
  case h_11 =>
    have hsign : ∀ digits, c :: rest = '-' :: digits → False :=
      fun _ heq => hne '-' rfl (List.cons.inj heq).1
    rw [scanNumber.eq_2 _ hsign, scanWhole, if_neg (hne '0' rfl), isDigit_of_blank hc]
    rfl
  all_goals
    rename_i heq
    exact absurd (List.cons.inj heq).1 (hne _ rfl)

/-- A blank line holds no command. -/
theorem Command.read_of_blank {line : List Char} (h : line.all isBlank = true) :
    Command.read line = none := by
  have htoken : Json.nextToken line = none := by
    rw [Json.nextToken]
    cases hrest : line.dropWhile Json.isSpace with
    | nil => rfl
    | cons c rest =>
      have hmem : c ∈ line := (List.dropWhile_sublist _).subset (by rw [hrest]; exact List.mem_cons_self)
      exact Json.token_of_blank (List.all_eq_true.mp h c hmem) rest
  rw [Command.read, Json.readFirst, Json.run, htoken]
  rfl

/-! ### Answers on one line -/

/-- The digits of a number hold no line feed. -/
theorem feed_not_mem_toDigits {b : ℕ} (hb : 1 < b) (hb' : b ≤ 16) (n : ℕ) :
    '\n' ∉ Nat.toDigits b n := by
  have hdigit : ∀ d < 16, '\n' ≠ Nat.digitChar d := by decide
  induction n using Nat.strongRecOn with
  | ind n ih =>
    rw [Nat.toDigits_eq_if hb]
    split
    · rename_i hn
      rw [List.mem_singleton]
      exact hdigit n (by omega)
    · rename_i hn
      have hmod : n % b < b := Nat.mod_lt n (by omega)
      rw [List.mem_append, List.mem_singleton, not_or]
      exact ⟨ih (n / b) (Nat.div_lt_self (by omega) hb), hdigit _ (by omega)⟩

theorem Quoted.feed_not_mem_hex (width n : ℕ) : '\n' ∉ hex width n := by
  rw [hex, List.mem_append, not_or]
  refine ⟨fun h => ?_, feed_not_mem_toDigits (by decide) (by decide) n⟩
  exact absurd (List.eq_of_mem_replicate h) (by decide)

theorem Decimal.feed_not_mem_write (n : ℤ) : '\n' ∉ write n := by
  cases n with
  | ofNat n => exact feed_not_mem_toDigits (by decide) (by decide) n
  | negSucc n =>
    rw [write, List.mem_cons, not_or]
    exact ⟨by decide, feed_not_mem_toDigits (by decide) (by decide) (n + 1)⟩

namespace Json

theorem feed_not_mem_escape (c : Char) : '\n' ∉ escape c := by
  rw [escape]
  split_ifs with hmark hfeed hreturn htab hback hform hcode
  · rcases hmark with rfl | rfl <;> decide
  · decide
  · decide
  · decide
  · decide
  · decide
  · rw [List.mem_cons, List.mem_cons, not_or, not_or]
    exact ⟨by decide, by decide, Quoted.feed_not_mem_hex 4 c.toNat⟩
  · rw [List.mem_singleton]
    exact fun h => hfeed h.symm

/-- Whatever the string, it is written on one line. -/
theorem feed_not_mem_stringText (s : String) : '\n' ∉ stringText s := by
  have hinner : '\n' ∉ s.toList.flatMap escape := by
    rw [List.mem_flatMap]
    rintro ⟨c, -, hc⟩
    exact feed_not_mem_escape c hc
  simp [stringText, hinner]

theorem feed_not_mem_commaSeparated {parts : List (List Char)} (h : ∀ part ∈ parts, '\n' ∉ part) :
    '\n' ∉ commaSeparated parts := by
  induction parts with
  | nil => exact List.not_mem_nil
  | cons part rest ih =>
    rw [List.forall_mem_cons] at h
    cases rest with
    | nil => rw [commaSeparated, List.intercalate_singleton]; exact h.1
    | cons next rest =>
      have hrest := ih h.2
      rw [commaSeparated] at hrest
      rw [commaSeparated, List.intercalate_cons_cons, List.mem_append, List.mem_append]
      simp [h.1, hrest]

theorem feed_not_mem_enclosed {left right : Char} {parts : List (List Char)} (hleft : '\n' ≠ left)
    (hright : '\n' ≠ right) (h : ∀ part ∈ parts, '\n' ∉ part) :
    '\n' ∉ left :: commaSeparated parts ++ [right] := by
  simp [hleft, hright, feed_not_mem_commaSeparated h]

theorem feed_not_mem_objectText {members : List (String × List Char)}
    (h : ∀ m ∈ members, '\n' ∉ m.2) : '\n' ∉ objectText members := by
  refine feed_not_mem_enclosed (by decide) (by decide) fun part hpart => ?_
  obtain ⟨m, hm, rfl⟩ := List.mem_map.mp hpart
  simp [feed_not_mem_stringText, h m hm]

theorem feed_not_mem_arrayText {items : List (List Char)} (h : ∀ item ∈ items, '\n' ∉ item) :
    '\n' ∉ arrayText items := feed_not_mem_enclosed (by decide) (by decide) h

end Json

end OffsetGaps

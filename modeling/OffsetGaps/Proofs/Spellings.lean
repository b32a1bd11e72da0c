/-
# Spellings of a JSON value

The same value can be written in many ways: there may be white space before
any token, and each character of a string has spellings of its own. A number
has one spelling, its literal. Every spelling of an object gives the tokens of
the object, whatever follows it, and so reads back as the object: within a
value, a number is always followed by a token that ends it (`Token.apart`).

The literals of numbers are given by their grammar (`Json.Literal`), without
the scanner.

Key definitions: `Json.Literal`, `Token.SpelledAs`, `Json.Spells`,
`Token.apart`.
Key theorems: `Json.scanString_spelled`, `Json.isNumberLiteral_of_literal`,
`Json.Spells.lexes`, `Json.apart_tokens`, `Json.spells_text`,
`Json.readFirst_of_spells`.
-/
import Mathlib.Data.List.Forall2
import OffsetGaps.Proofs.Documents

namespace OffsetGaps
namespace Json

/-! ### Strings -/

/-- **Every spelling of a string is scanned as the string.** -/
theorem scanString_spelled {cs : List Char} {parts : List (List Char)}
    (h : List.Forall₂ CharText cs parts) (done rest : List Char) :
    scanString none done (parts.flatten ++ '"' :: rest) = some (done.reverse ++ cs, rest) := by
  induction h generalizing done with
  | nil => simp [scanString, settle]
  | cons hfirst _ ih =>
    rw [List.flatten_cons, List.append_assoc, scanString_charText hfirst, ih]
    simp

/-! ### Literals of numbers -/

def Digits (cs : List Char) : Prop := cs ≠ [] ∧ cs.all Char.isDigit = true

theorem Digits.exists_cons {cs : List Char} (h : Digits cs) :
    ∃ c rest, cs = c :: rest ∧ c.isDigit = true ∧ rest.all Char.isDigit = true := by
  obtain ⟨hne, hdigits⟩ := h
  cases cs with
  | nil => exact absurd rfl hne
  | cons c rest =>
    rw [List.all_cons, Bool.and_eq_true] at hdigits
    exact ⟨c, rest, rfl, hdigits⟩

namespace Literal

/-- The digits before the point: a zero alone, or digits that start with
none. -/
inductive Whole : List Char → Prop where
  | zero : Whole ['0']
  | digits {cs : List Char} (h : Digits cs) (hhead : cs.head? ≠ some '0') : Whole cs

/-- A point and digits, or nothing. -/
inductive Fraction : List Char → Prop where
  | absent : Fraction []
  | digits {cs : List Char} (h : Digits cs) : Fraction ('.' :: cs)

/-- The mark of an exponent, a sign, which may be left out, and digits, or
nothing. -/
inductive Exponent : List Char → Prop where
  | absent : Exponent []
  | digits {mark : Char} {sign cs : List Char} (hmark : mark = 'e' ∨ mark = 'E')
    (hsign : sign = [] ∨ sign = ['+'] ∨ sign = ['-']) (h : Digits cs) :
    Exponent (mark :: sign ++ cs)

end Literal

/-- The literal of a number by the grammar of JSON. -/
inductive Literal : List Char → Prop where
  | parts {sign whole fraction exponent : List Char} (hsign : sign = [] ∨ sign = ['-'])
    (hwhole : Literal.Whole whole) (hfraction : Literal.Fraction fraction)
    (hexponent : Literal.Exponent exponent) : Literal (sign ++ (whole ++ (fraction ++ exponent)))

namespace Literal

/-- No digit stands in front of the text. -/
def NoDigit (cs : List Char) : Prop := ∀ c ∈ cs.head?, c.isDigit = false

theorem span_digits {cs rest : List Char} (hcs : cs.all Char.isDigit = true)
    (hrest : NoDigit rest) :
    (cs ++ rest).takeWhile Char.isDigit = cs ∧ (cs ++ rest).dropWhile Char.isDigit = rest := by
  have hstop : rest.takeWhile Char.isDigit = [] ∧ rest.dropWhile Char.isDigit = rest := by
    cases rest with
    | nil => exact ⟨rfl, rfl⟩
    | cons c rest => simp [hrest c rfl]
  rw [List.all_eq_true] at hcs
  rw [List.takeWhile_append_of_pos hcs, List.dropWhile_append_of_pos hcs, hstop.1, hstop.2]
  exact ⟨List.append_nil cs, rfl⟩

theorem Exponent.noDigit {cs : List Char} (h : Exponent cs) : NoDigit cs := by
  cases h with
  | absent => intro c hc; cases hc
  | digits hmark =>
    intro c hc
    cases hc
    rcases hmark with rfl | rfl <;> rfl

theorem Fraction.noDigit {cs rest : List Char} (h : Fraction cs) (hrest : NoDigit rest) :
    NoDigit (cs ++ rest) := by
  cases h with
  | absent => exact hrest
  | digits =>
    intro c hc
    cases hc
    rfl

theorem Exponent.scan {cs : List Char} (h : Exponent cs) (literal : List Char) :
    scanExponent literal cs = some (literal ++ cs, []) := by
  cases h with
  | absent => simp [scanExponent]
  | @digits mark sign cs hmark hsign h =>
    obtain ⟨htake, hdrop⟩ := span_digits h.2 (show NoDigit [] from fun _ hc => by cases hc)
    rw [List.append_nil] at htake hdrop
    rcases hsign with rfl | rfl | rfl
    · obtain ⟨d, ds, rfl, hdigit, -⟩ := h.exists_cons
      have hplus : d ≠ '+' := by rintro rfl; cases hdigit
      have hminus : d ≠ '-' := by rintro rfl; cases hdigit
      simp [scanExponent, hmark, hplus, hminus, htake, hdrop]
    · simp [scanExponent, hmark, htake, hdrop, h.1]
    · simp [scanExponent, hmark, htake, hdrop, h.1]

theorem Fraction.scan {cs exponent : List Char} (h : Fraction cs) (hexponent : Exponent exponent)
    (literal : List Char) :
    scanFraction literal (cs ++ exponent) = some (literal ++ (cs ++ exponent), []) := by
  cases h with
  | absent =>
    have hpoint : ∀ digits, exponent = '.' :: digits → False := by
      rintro digits rfl
      cases hexponent with
      | digits hmark => rcases hmark with hmark | hmark <;> cases hmark
    rw [List.nil_append, scanFraction.eq_2 literal exponent hpoint]
    exact hexponent.scan literal
  | @digits cs h =>
    obtain ⟨htake, hdrop⟩ := span_digits h.2 hexponent.noDigit
    have hrun : cs.isEmpty = false := by simpa using h.1
    simp only [List.cons_append, scanFraction, htake, hdrop, hrun, hexponent.scan]
    simp

theorem Whole.scan {cs fraction exponent : List Char} (h : Whole cs) (hfraction : Fraction fraction)
    (hexponent : Exponent exponent) (sign : List Char) :
    scanWhole sign (cs ++ (fraction ++ exponent)) =
      some (sign ++ (cs ++ (fraction ++ exponent)), []) := by
  cases h with
  | zero =>
    rw [List.singleton_append, scanWhole, if_pos rfl, hfraction.scan hexponent]
    simp
  | digits h hhead =>
    obtain ⟨c, ds, rfl, hc, hrest⟩ := h.exists_cons
    have hzero : c ≠ '0' := by simpa using hhead
    obtain ⟨htake, hdrop⟩ := span_digits hrest (hfraction.noDigit hexponent.noDigit)
    simp only [List.cons_append, scanWhole, if_neg hzero, hc, if_true, htake, hdrop,
      hfraction.scan hexponent]
    simp

theorem Whole.head {cs rest : List Char} (h : Whole cs) (tail : List Char) :
    cs ++ rest ≠ '-' :: tail := by
  cases h with
  | zero => intro heq; cases heq
  | digits h =>
    obtain ⟨c, ds, rfl, hc, -⟩ := h.exists_cons
    intro heq
    rw [(List.cons.inj heq).1] at hc
    cases hc

end Literal

/-- What the grammar gives is scanned as a number, to its end. -/
theorem isNumberLiteral_of_literal {cs : List Char} (h : Literal cs) :
    isNumberLiteral cs = true := by
  cases h with
  | parts hsign hwhole hfraction hexponent =>
    have hscan := hwhole.scan hfraction hexponent
    rcases hsign with rfl | rfl
    · have hnumber := (scanNumber.eq_2 _ hwhole.head).trans (hscan [])
      simp only [List.nil_append] at hnumber ⊢
      simp only [isNumberLiteral, hnumber]
    · have hnumber := hscan ['-']
      simp only [List.singleton_append] at hnumber ⊢
      simp only [isNumberLiteral, scanNumber, hnumber]

end Json

/-! ### Tokens -/

namespace Token

/-- The texts of a token. Only strings have more than one. -/
def SpelledAs : Token → List Char → Prop
  | .string s, cs =>
    ∃ parts, List.Forall₂ Json.CharText s.toList parts ∧ cs = '"' :: parts.flatten ++ ['"']
  | t, cs => cs = t.text

theorem spelledAs_text (t : Token) : t.SpelledAs t.text := by
  cases t with
  | string s =>
    refine ⟨s.toList.map Json.escape, ?_, ?_⟩
    · rw [List.forall₂_map_right_iff, List.forall₂_same]
      exact fun c _ => Json.charText_escape c
    · rw [← List.flatMap_def]
      rfl
  | _ => rfl

def isNumber : Token → Bool
  | .number _ => true
  | _ => false

/-- Whether a number ends before these tokens: the first one is no number. -/
def endNumber (ts : List Token) : Bool := ts.head?.any fun t => !t.isNumber

/-- Whether each number is followed by a token that is none. -/
def apart : List Token → Bool
  | [] => true
  | t :: ts => (!t.isNumber || endNumber ts) && apart ts

end Token

namespace Json

/-- **Every spelling of a token is read as the token.** -/
theorem nextToken_of_spelledAs {t : Token} {cs rest : List Char} (h : t.SpelledAs cs)
    (ht : t.Valid) (hrest : t.Ends rest) : nextToken (cs ++ rest) = some (t, rest) := by
  cases t with
  | string s =>
    obtain ⟨parts, hparts, rfl⟩ := h
    have hscan := scanString_spelled hparts [] rest
    apply nextToken_of_token
    simp [token, hscan]
  | _ =>
    cases h
    exact nextToken_text ht hrest

/-! ### Texts -/

/-- The text consists of the tokens, each in some spelling and with any white
space before it. -/
inductive Spells : List Token → List Char → Prop where
  | nil : Spells [] []
  | cons {t : Token} {ts : List Token} {blanks cs text : List Char}
    (hblanks : blanks.all isSpace = true) (ht : t.SpelledAs cs) (hmore : Spells ts text) :
    Spells (t :: ts) (blanks ++ (cs ++ text))

namespace Spells

variable {t : Token} {ts : List Token} {text : List Char}

/-- A token as it is written stands in front. -/
theorem written (t : Token) (h : Spells ts text) : Spells (t :: ts) (t.text ++ text) :=
  @cons t ts [] t.text text rfl t.spelledAs_text h

/-- A number ends before any other token. -/
theorem endsNumber_append (h : Spells (t :: ts) text) (ht : t.isNumber = false)
    (rest : List Char) : endsNumber (text ++ rest) = true := by
  cases h with
  | @cons _ _ blanks cs text hblanks hspelled _ =>
    cases blanks with
    | nil =>
      cases t with
      | number literal => cases ht
      | string s =>
        obtain ⟨parts, -, rfl⟩ := hspelled
        rfl
      | bool b => cases hspelled; cases b <;> rfl
      | _ => cases hspelled; rfl
    | cons c blanks =>
      have hspace : isSpace c = true := (List.all_eq_true.mp hblanks) c List.mem_cons_self
      simp only [isSpace, Bool.or_eq_true, beq_iff_eq] at hspace
      rcases hspace with ((rfl | rfl) | rfl) | rfl <;> rfl

/-- **A spelling gives the tokens**, whatever follows it. -/
theorem lexes (h : Spells ts text) (hvalid : ∀ t ∈ ts, t.Valid) (hapart : Token.apart ts = true)
    (rest : List Char) : Lexes (text ++ rest) ts rest := by
  induction h with
  | nil => exact .nil rest
  | @cons t ts blanks cs text hblanks ht hmore ih =>
    obtain ⟨hfirst, hvalid'⟩ := List.forall_mem_cons.mp hvalid
    simp only [Token.apart, Bool.and_eq_true] at hapart
    have hends : t.Ends (text ++ rest) := by
      cases t with
      | number literal =>
        have hnext : Token.endNumber ts = true := by simpa [Token.isNumber] using hapart.1
        cases ts with
        | nil => cases hnext
        | cons next ts =>
          have hother : next.isNumber = false := by simpa [Token.endNumber] using hnext
          exact hmore.endsNumber_append hother rest
      | _ => trivial
    have hlexes : Lexes (cs ++ (text ++ rest)) (t :: ts) rest :=
      .cons (nextToken_of_spelledAs ht hfirst hends) (ih hvalid' hapart.2)
    rw [List.append_assoc, List.append_assoc]
    exact hlexes.spaced blanks hblanks

end Spells

mutual

/-- Within a value, a number is always followed by another token; behind the
value, such a token must follow. -/
theorem apart_tokens : ∀ (v : Json) {ts : List Token}, Token.endNumber ts = true →
    Token.apart ts = true → Token.apart (v.tokens ++ ts) = true
  | .null, _, _, h => h
  | .bool _, _, _, h => h
  | .number _, _, hends, h => by simp [tokens, Token.apart, hends, h]
  | .string _, _, _, h => h
  | .array items, _, _, h => apart_itemTokens items (Or.inl rfl) h
  | .object members, _, _, h => apart_memberTokens members (Or.inl rfl) h

theorem apart_itemTokens : ∀ (items : List Json) {lead ts : List Token},
    lead = [] ∨ lead = [.comma] → Token.apart ts = true →
      Token.apart (itemTokens lead items ++ ts) = true
  | [], _, _, _, h => h
  | item :: items, lead, ts, hlead, h => by
    have hends : Token.endNumber (itemTokens [.comma] items ++ ts) = true := by
      cases items <;> rfl
    have hitem := apart_tokens item hends (apart_itemTokens items (Or.inr rfl) h)
    rw [itemTokens, List.append_assoc, List.append_assoc]
    rcases hlead with rfl | rfl <;> exact hitem

theorem apart_memberTokens : ∀ (members : List (String × Json)) {lead ts : List Token},
    lead = [] ∨ lead = [.comma] → Token.apart ts = true →
      Token.apart (memberTokens lead members ++ ts) = true
  | [], _, _, _, h => h
  | (name, value) :: members, lead, ts, hlead, h => by
    have hends : Token.endNumber (memberTokens [.comma] members ++ ts) = true := by
      cases members <;> rfl
    have hvalue := apart_tokens value hends (apart_memberTokens members (Or.inr rfl) h)
    rw [memberTokens, List.append_assoc, List.append_assoc]
    rcases hlead with rfl | rfl <;> exact hvalue

end

/-- **Every spelling of an object reads back as the object**, whatever
follows it. -/
theorem readFirst_of_spells {members : List (String × Json)} {text : List Char}
    (hvalid : ∀ t ∈ (Json.object members).tokens, t.Valid)
    (hdepth : (Json.object members).depth ≤ maxDepth)
    (h : Spells (Json.object members).tokens text) (rest : List Char) :
    readFirst (text ++ rest) = some (.object members, rest) := by
  have hapart := apart_memberTokens members (Or.inl rfl) (show Token.apart [] = true from rfl)
  rw [List.append_nil] at hapart
  exact readFirst_of_lexes hdepth (h.lexes hvalid hapart rest)

/-! ### Compact text -/

mutual

theorem text_eq_flatMap : ∀ v : Json, text v = v.tokens.flatMap Token.text
  | .null => rfl
  | .bool _ => by simp [text, tokens, Token.text]
  | .number _ => by simp [text, tokens, Token.text]
  | .string _ => by simp [text, tokens, Token.text]
  | .array [] => rfl
  | .array (item :: items) => by
    have hitem := text_eq_flatMap item
    have hitems := itemTexts_eq_flatMap items
    simp [text, arrayText, commaSeparated, itemTexts, intercalate_cons, tokens, itemTokens,
      Token.text, hitem, ← hitems]
  | .object [] => rfl
  | .object ((name, value) :: members) => by
    have hvalue := text_eq_flatMap value
    have hmembers := memberTexts_eq_flatMap members
    simp [text_object, commaSeparated, memberText, intercalate_cons, tokens, memberTokens,
      Token.text, hvalue, ← hmembers]

theorem itemTexts_eq_flatMap : ∀ items : List Json,
    (itemTexts items).flatMap ([','] ++ ·) ++ [']'] =
      (itemTokens [.comma] items).flatMap Token.text
  | [] => rfl
  | item :: items => by
    have hitem := text_eq_flatMap item
    have hitems := itemTexts_eq_flatMap items
    simp [itemTexts, itemTokens, Token.text, hitem, ← hitems]

theorem memberTexts_eq_flatMap : ∀ members : List (String × Json),
    (members.map memberText).flatMap ([','] ++ ·) ++ ['\x7d'] =
      (memberTokens [.comma] members).flatMap Token.text
  | [] => rfl
  | (name, value) :: members => by
    have hvalue := text_eq_flatMap value
    have hmembers := memberTexts_eq_flatMap members
    simp [memberText, memberTokens, Token.text, hvalue, ← hmembers]

end

theorem spells_text (v : Json) : Spells v.tokens (text v) := by
  rw [text_eq_flatMap]
  generalize v.tokens = ts
  induction ts with
  | nil => exact .nil
  | cons t ts ih => exact ih.written t

end Json
end OffsetGaps

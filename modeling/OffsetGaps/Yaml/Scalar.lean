/-
# Scalars in YAML

A text is written in the plainest style that reads back as it: plainly, if
it looks like no other value and holds nothing that has a meaning in YAML;
else in single quotes, if all its characters can be read there; else in
double quotes, where everything can be escaped. A text with line feeds is
written as an indented block, if a block can hold it. In double quotes a
text that starts with a byte order mark is escaped throughout.

The choice of the style is assumed of the package that writes YAML, and so is
the text in each style; lines are assumed not to be folded. Only keys of
mappings are written here, and the theorems on layouts need one case of it:
a key of a layout starts with `@`, holds no other mark and is put in single
quotes.

Key definitions: `Yaml.readsAsText`, `Yaml.Style`, `Yaml.style`,
`Yaml.scalarText`.
-/
import OffsetGaps.Text.Quoted
import OffsetGaps.Yaml.Number
import OffsetGaps.Yaml.Timestamp

namespace OffsetGaps
namespace Yaml

/-! ### What a plain text reads as -/

/-- The words for nulls, truth values, not-a-number and infinity. -/
def valueWords : List String :=
  ["", "~", "null", "Null", "NULL", "true", "True", "TRUE", "false", "False", "FALSE",
   ".nan", ".NaN", ".NAN", ".inf", ".Inf", ".INF", "+.inf", "+.Inf", "+.INF",
   "-.inf", "-.Inf", "-.INF"]

/-- The words that older readers take for truth values. -/
def oldWords : List String :=
  ["y", "Y", "yes", "Yes", "YES", "on", "On", "ON", "n", "N", "no", "No", "NO",
   "off", "Off", "OFF"]

def readsAsNumber : List Char → Bool
  | [] => false
  | c :: rest =>
    if c = '.' then
      Numeral.separatesDigits (c :: rest) && Numeral.isFraction ((c :: rest).filter (· != '_'))
    else if c = '+' ∨ c = '-' ∨ c.isDigit then
      let bare := (c :: rest).filter (· != '_')
      Numeral.isInteger bare || Numeral.isFraction bare || Numeral.isSexagesimal (c :: rest)
    else false

/-- Whether a plain text reads as that text and not as another value. -/
def readsAsText (cs : List Char) : Bool :=
  !(valueWords.contains (String.ofList cs) || oldWords.contains (String.ofList cs) ||
    readsAsNumber cs || Timestamp.reads cs)

/-! ### What a text holds -/

def isBreak (c : Char) : Bool :=
  c = '\n' || c = '\r' || c.toNat = 0x85 || c.toNat = 0x2028 || c.toNat = 0x2029

/-- Whether a character may stand unescaped. -/
def isWritable (c : Char) : Bool :=
  let n := c.toNat
  n == 0x0A || (0x20 ≤ n && n ≤ 0x7E) || (0xA0 ≤ n && n ≤ 0xFFFD && n != 0xFEFF)

def isGap (c : Char) : Bool := c = ' ' || c = '\t'

/-- Each character with the one behind it; behind the last stands a space. -/
def withNext (cs : List Char) : List (Char × Char) := cs.zip (cs.tail ++ [' '])

/-- Each character with the one before it; before the first stands
`start`. -/
def withPrevious (start : Char) (cs : List Char) : List (Char × Char) := (start :: cs).zip cs

/-- The characters that have a meaning at the front of a text. -/
def leadIndicators : List Char :=
  ['#', ',', '[', ']', '\x7b', '\x7d', '&', '*', '!', '|', '>', '\'', '"', '%', '@', '\x60']

def hasLeadIndicator : List Char → Bool
  | '-' :: '-' :: '-' :: _ => true
  | '.' :: '.' :: '.' :: _ => true
  | c :: rest =>
    leadIndicators.contains c || ((c = '?' || c = '-') && isGap (rest.headD ' '))
  | [] => false

/-- Whether a text holds a colon before a gap, or a number sign behind
one. -/
def hasInnerIndicator (cs : List Char) : Bool :=
  ((withNext cs).any fun (c, next) => c = ':' && isGap next) ||
    (withPrevious ' ' cs).any fun (previous, c) =>
      c = '#' && (isGap previous || isBreak previous || previous.toNat = 0)

/-- Whether a text starts or ends with a space or a line break. -/
def hasOuterSpace (cs : List Char) : Bool :=
  [cs.head?, cs.getLast?].any fun
    | some c => c = ' ' || isBreak c
    | none => false

/-- Whether a space stands before a line break. -/
def hasSpaceBreak (cs : List Char) : Bool :=
  (withPrevious 'x' cs).any fun (previous, c) => previous = ' ' && isBreak c

/-- Whether a space stands behind a line break. -/
def hasBreakSpace (cs : List Char) : Bool :=
  (withPrevious 'x' cs).any fun (previous, c) => isBreak previous && c = ' '

/-- Whether a text holds a character that has to be escaped, tabs aside. -/
def hasSpecial (cs : List Char) : Bool := cs.any fun c => c != '\t' && !isWritable c

def fitsSingle (cs : List Char) : Bool :=
  !(hasBreakSpace cs || hasSpaceBreak cs || hasSpecial cs || cs.contains '\t')

def fitsPlain (cs : List Char) : Bool :=
  fitsSingle cs &&
    !(cs.any isBreak || hasOuterSpace cs || hasLeadIndicator cs || hasInnerIndicator cs)

def fitsBlock (cs : List Char) : Bool :=
  !(cs.getLast? == some ' ' || hasSpaceBreak cs || hasSpecial cs)

/-! ### Styles -/

inductive Style where
  | plain
  | single
  | double
  | block
deriving DecidableEq, Repr

def style (cs : List Char) : Style :=
  if cs.contains '\n' then if fitsBlock cs then .block else .double
  else if !readsAsText cs then .double
  else if fitsPlain cs then .plain
  else if fitsSingle cs then .single
  else .double

/-- Lines inside a scalar are indented by four. -/
def indentation : List Char := [' ', ' ', ' ', ' ']

/-- Characters as `write` puts them, with an indentation in front of the
first one behind a line break; `start` is taken to stand before them. -/
def indented (write : Char → List Char) (start : Char) (cs : List Char) : List Char :=
  (withPrevious start cs).flatMap fun (previous, c) =>
    if isBreak previous && !isBreak c then indentation ++ write c else write c

/-- A character in single quotes; the quote itself is doubled. -/
def singleEscape (c : Char) : List Char := if c = '\'' then ['\'', '\''] else [c]

def singleText (cs : List Char) : List Char := '\'' :: indented singleEscape 'x' cs ++ ['\'']

/-- The letter that names a character after a backslash. -/
def escapeLetter? (c : Char) : Option Char :=
  match c.toNat with
  | 0x00 => some '0'
  | 0x07 => some 'a'
  | 0x08 => some 'b'
  | 0x09 => some 't'
  | 0x0A => some 'n'
  | 0x0B => some 'v'
  | 0x0C => some 'f'
  | 0x0D => some 'r'
  | 0x1B => some 'e'
  | 0x22 => some '"'
  | 0x5C => some '\\'
  | 0x85 => some 'N'
  | 0xA0 => some '_'
  | 0x2028 => some 'L'
  | 0x2029 => some 'P'
  | _ => none

/-- A number in upper-case hexadecimal of a fixed width. -/
def upperHex (width n : Nat) : List Char := (Quoted.hex width n).map Char.toUpper

/-- Whether a character may stand unescaped in double quotes. -/
def standsInDouble (c : Char) : Bool := isWritable c && !isBreak c && c != '"' && c != '\\'

def startsWithMark (cs : List Char) : Bool := (cs.headD 'x').toNat == 0xFEFF

/-- A character in double quotes; `all` asks for an escape in any case. -/
def doubleEscape (all : Bool) (c : Char) : List Char :=
  if !all && standsInDouble c then [c]
  else match escapeLetter? c with
    | some letter => ['\\', letter]
    | none =>
      if c.toNat ≤ 0xFF then '\\' :: 'x' :: upperHex 2 c.toNat
      else if c.toNat ≤ 0xFFFF then '\\' :: 'u' :: upperHex 4 c.toNat
      else '\\' :: 'U' :: upperHex 8 c.toNat

/-- A text in double quotes. Behind a byte order mark at its front nothing
stands unescaped. -/
def doubleText (cs : List Char) : List Char :=
  '"' :: cs.flatMap (doubleEscape (startsWithMark cs)) ++ ['"']

/-- What stands in the first line of a block: its indentation, if the text
does not show it, and what becomes of the line breaks at its end. -/
def blockHints (cs : List Char) : List Char :=
  let lead := cs.headD 'x'
  (if lead = ' ' || isBreak lead then ['4'] else []) ++
    match cs.reverse with
    | [] => ['-']
    | c :: rest =>
      if !isBreak c then ['-'] else if isBreak (rest.headD '\n') then ['+'] else []

/-- A text as an indented block. A line break at its front ends the first
line of the block. -/
def blockText (cs : List Char) : List Char :=
  '|' :: blockHints cs ++ (if isBreak (cs.headD 'x') then [] else ['\n']) ++
    indented (fun c => [c]) '\n' cs

def scalarText (cs : List Char) : List Char :=
  match style cs with
  | .plain => cs
  | .single => singleText cs
  | .double => doubleText cs
  | .block => blockText cs

end Yaml
end OffsetGaps

/-
# Subcommands

The program is called with a subcommand, flags and arguments. The subcommand
is the first word that is neither a flag nor the value of one; at this
point only the switch of the program itself is known not to take a value, so
every other flag without `=` takes the next word with it. A word that is no
subcommand is reported with the subcommands it may have been meant for.

Key definitions: `Topic`, `Topic.find`, `suggestions`.
-/
import OffsetGaps.Cli.Flags
import OffsetGaps.Text.LetterCase

namespace OffsetGaps

/-- The program as a whole or one of its subcommands. -/
inductive Topic where
  | program
  | layout
  | adapter
  | help
deriving DecidableEq, Repr

namespace Topic

def ofName? (name : String) : Option Topic :=
  if name = "layout" then some .layout
  else if name = "adapter" then some .adapter
  else if name = "help" then some .help
  else none

def flags : Topic → List Flag
  | .layout => [.format, .help, .logLevel, .rejectNegative]
  | _ => [.help, .logLevel, .rejectNegative]

/-- Whether a word is a flag that takes the next word with it. -/
def takesNext (word : String) : Bool :=
  match word.toList with
  | '-' :: '-' :: name => !name.contains '=' && String.ofList name != Flag.rejectNegative.name
  | ['-', c] => c != '=' && c.toNat < 0x80
  | _ => false

/-- Whether a word may name a subcommand. -/
def isName (word : String) : Bool :=
  match word.toList with
  | [] => false
  | c :: _ => c != '-'

/-- The first word that may name a subcommand, with the words before it, the
latest first, and those behind it. A flag that takes the next word ends the
search if no word would be left behind that. -/
def split? (before : List String) : List String → Option (List String × String × List String)
  | [] => none
  | word :: rest =>
    if word = "--" then none
    else if takesNext word then
      match rest with
      | value :: next :: rest => split? (value :: word :: before) (next :: rest)
      | _ => none
    else if isName word then some (before, word, rest)
    else split? (word :: before) rest

/-- The subcommand that words name, with the words that remain, or the word
that names none. -/
def find (words : List String) : Except String (Topic × List String) :=
  match split? [] words with
  | none => .ok (.program, words)
  | some (before, name, behind) =>
    match ofName? name with
    | some topic => .ok (topic, before.reverse ++ behind)
    | none => .error name

end Topic

/-! ### Suggestions -/

/-- The rest of a row of the table of edit distances, from the value left of
it, the word along the row, and the row above. -/
def distanceCells (c : LowerByte) (left : Nat) :
    List LowerByte → List Nat → List Nat
  | d :: word, diagonal :: above :: rest =>
    let cell := if c = d then diagonal else 1 + min (min diagonal above) left
    cell :: distanceCells c cell word (above :: rest)
  | _, _ => []

def distanceRow (word : List LowerByte) (row : List Nat) (c : LowerByte) : List Nat :=
  let first := row.headD 0 + 1
  first :: distanceCells c first word row

/-- The least number of insertions, deletions and replacements that turn one
word into another. -/
def editDistance (a b : List LowerByte) : Nat :=
  (a.foldl (distanceRow b) (List.range (b.length + 1))).getLastD 0

/-- The subcommands that a word may have been meant for: those within two
edits of it, and those that start with it, case aside. -/
def suggestions (word : String) : List String :=
  ["adapter", "completion", "layout"].filter fun name =>
    let a := lowerBytes word
    let b := lowerBytes name
    editDistance a b ≤ 2 || a.isPrefixOf b

end OffsetGaps

/-
# Listings of offsets

Offsets are listed as words or, if there are no words, as the lines of a
text. `null` stands for a missing offset, everything else must be an
integer. Words count as they are; lines are trimmed, and blank lines are
skipped though they count for the numbering. The first fault ends the
reading.

Words and input are lists of characters. Bytes that are no UTF-8 are not
modelled: a word that holds some is refused anyway, and only the error would
show it differently.

Key definitions: `ListingError`, `Listing.readOffset`, `Listing.readLines`,
`Listing.read`.
-/
import OffsetGaps.Text.Blank
import OffsetGaps.Text.Decimal
import OffsetGaps.Text.Lines
import OffsetGaps.Text.Quoted

namespace OffsetGaps

inductive ListingError where
  /-- A word is neither `null` nor an integer. -/
  | badOffset (word : String) (cause : NumberError)
  /-- The line with this number, from 1 on, holds such a word. -/
  | badLine (number : Nat) (word : String) (cause : NumberError)
  | overlong
deriving DecidableEq, Repr

namespace ListingError

def wordMessage (word : String) (cause : NumberError) : String :=
  "invalid offset " ++ Quoted.text word ++ ": strconv.ParseInt: parsing " ++ Quoted.text word ++
    ": " ++ cause.message

def message : ListingError → String
  | .badOffset word cause => wordMessage word cause
  | .badLine number word cause =>
    "line " ++ Decimal.text number ++ ": " ++ wordMessage word cause
  | .overlong => "bufio.Scanner: token too long"

end ListingError

namespace Listing

/-- The offset that a word stands for, or none. -/
def readOffset (word : List Char) : Except NumberError (Option Int64) :=
  if word = "null".toList then .ok none else (Decimal.readInt64 word).map some

/-- Reads words; `done` are the offsets before them, the latest first. -/
def readWords (done : List (Option Int64)) :
    List String → Except ListingError (List (Option Int64))
  | [] => .ok done.reverse
  | word :: rest =>
    match readOffset word.toList with
    | .ok offset => readWords (offset :: done) rest
    | .error e => .error (.badOffset word e)

/-- Reads lines, the first of them with this number. -/
def readLines (overlong : Bool) (done : List (Option Int64)) :
    Nat → List (List Char) → Except ListingError (List (Option Int64))
  | _, [] => if overlong then .error .overlong else .ok done.reverse
  | number, line :: rest =>
    match trim line with
    | [] => readLines overlong done (number + 1) rest
    | word =>
      match readOffset word with
      | .ok offset => readLines overlong (offset :: done) (number + 1) rest
      | .error e => .error (.badLine number (String.ofList word) e)

/-- The length in bytes at which a line is too long. -/
def lineLimit : Nat := 65536

/-- Reads the words, or the text if there are none. -/
def read (words : List String) (text : List Char) :
    Except ListingError (List (Option Int64)) :=
  match words with
  | [] =>
    let lines := Lines.split lineLimit text
    readLines lines.overlong [] 1 lines.accepted
  | words => readWords [] words

end Listing
end OffsetGaps

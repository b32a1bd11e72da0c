/-
# Lines of bounded length

A text is a sequence of lines, each ended by a line feed; a last line may
lack it, and an empty rest is no line. One carriage return before the line
feed (or before the end of the text) belongs to the ending. A line whose
content, the carriage return counted, takes at least `limit` bytes of UTF-8
is overlong: reading stops there, and the lines before it stand.

Key definitions: `rawLines`, `Lines.split`.
-/

namespace OffsetGaps

/-- Puts a character in front of the first line. -/
def consLine (c : Char) : List (List Char) → List (List Char)
  | [] => [[c]]
  | line :: lines => (c :: line) :: lines

/-- The lines of a text without their line feeds. -/
def rawLines (text : List Char) : List (List Char) :=
  text.foldr (fun c lines => if c = '\n' then [] :: lines else consLine c lines) []

/-- A line without the one carriage return that may end it. -/
def dropReturn (line : List Char) : List Char :=
  match line.reverse with
  | '\r' :: rest => rest.reverse
  | _ => line

def byteLength (cs : List Char) : Nat := cs.foldl (fun n c => n + c.utf8Size) 0

/-- The lines of a text up to the first overlong one. -/
structure Lines where
  accepted : List (List Char)
  /-- Whether an overlong line follows them. -/
  overlong : Bool
deriving DecidableEq, Repr

namespace Lines

/-- Splits a text into lines shorter than `limit` bytes. -/
def split (limit : Nat) (text : List Char) : Lines :=
  let fits (line : List Char) : Bool := byteLength line < limit
  let lines := rawLines text
  { accepted := (lines.takeWhile fits).map dropReturn
    overlong := !lines.all fits }

end Lines
end OffsetGaps

/-
# Reading JSON

The first JSON value of a text. Tokens are taken one at a time by a machine
that keeps a stack of the arrays and objects it is inside of; as soon as the
outermost value is complete the machine stops, and what follows in the text
is not looked at. Arrays and objects may be nested 10000 deep.

Key definitions: `Json.Frame`, `Json.Phase`, `Json.feed`, `Json.readFirst`.
-/
import OffsetGaps.Json.Token

namespace OffsetGaps
namespace Json

/-- An array or object under construction, its parts with the latest
first. -/
inductive Frame where
  | array (items : List Json)
  | object (members : List (String × Json))
  /-- An object whose member `name` waits for its value. -/
  | member (members : List (String × Json)) (name : String)

/-- What may come next. -/
inductive Phase where
  | value
  /-- A value or the end of an array that has no item yet. -/
  | firstItem
  /-- A member name or the end of an object that has no member yet. -/
  | firstName
  | name
  /-- The colon behind this member name. -/
  | colon (name : String)
  /-- A comma or the end of the innermost array or object. -/
  | next
deriving DecidableEq, Repr

/-- The machine between two tokens. -/
structure State where
  phase : Phase := .value
  /-- The arrays and objects that are open, the innermost first. -/
  stack : List Frame := []

inductive Progress where
  | more (s : State)
  | complete (v : Json)
  | refused

/-- The greatest depth of nesting. -/
def maxDepth : Nat := 10000

def enter (frame : Frame) (phase : Phase) (stack : List Frame) : Progress :=
  if stack.length < maxDepth then .more ⟨phase, frame :: stack⟩ else .refused

/-- Hands a complete value to the innermost open array or object. -/
def supply (v : Json) : List Frame → Progress
  | [] => .complete v
  | .array items :: rest => .more ⟨.next, .array (v :: items) :: rest⟩
  | .member members name :: rest => .more ⟨.next, .object ((name, v) :: members) :: rest⟩
  | .object _ :: _ => .refused

/-- Takes a token where a value may stand. -/
def feedValue (stack : List Frame) : Token → Progress
  | .openObject => enter (.object []) .firstName stack
  | .openArray => enter (.array []) .firstItem stack
  | .string s => supply (.string s) stack
  | .number literal => supply (.number literal) stack
  | .null => supply .null stack
  | .bool b => supply (.bool b) stack
  | _ => .refused

def closeArray : List Frame → Progress
  | .array items :: rest => supply (.array items.reverse) rest
  | _ => .refused

def closeObject : List Frame → Progress
  | .object members :: rest => supply (.object members.reverse) rest
  | _ => .refused

def feed (s : State) (t : Token) : Progress :=
  match s.phase, t, s.stack with
  | .firstItem, .closeArray, stack => closeArray stack
  | .firstItem, t, stack => feedValue stack t
  | .value, t, stack => feedValue stack t
  | .firstName, .closeObject, stack => closeObject stack
  | .firstName, .string name, stack => .more ⟨.colon name, stack⟩
  | .name, .string name, stack => .more ⟨.colon name, stack⟩
  | .colon name, .colon, .object members :: rest => .more ⟨.value, .member members name :: rest⟩
  | .next, .comma, .array items :: rest => .more ⟨.value, .array items :: rest⟩
  | .next, .comma, .object members :: rest => .more ⟨.name, .object members :: rest⟩
  | .next, .closeArray, stack => closeArray stack
  | .next, .closeObject, stack => closeObject stack
  | _, _, _ => .refused

/-- Runs the machine over a text for at most `fuel` tokens, and gives the
value and the text behind it. -/
def run : Nat → State → List Char → Option (Json × List Char)
  | 0, _, _ => none
  | fuel + 1, s, cs =>
    match nextToken cs with
    | none => none
    | some (t, rest) =>
      match feed s t with
      | .more s => run fuel s rest
      | .complete v => some (v, rest)
      | .refused => none

/-- The first value of a text and what follows it. Every token takes at
least one character, so the length of the text is fuel enough. -/
def readFirst (cs : List Char) : Option (Json × List Char) := run (cs.length + 1) {} cs

end Json
end OffsetGaps

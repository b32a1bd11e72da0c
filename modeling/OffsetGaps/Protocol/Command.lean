/-
# Commands

A command is a JSON object on a line. Its fields are found by name, the case
of letters aside; other fields are skipped. A field may be repeated, and the
last one counts, except that a null leaves a text field as it was. A line
may also be a bare `null`, which is a command without fields. What follows
the first JSON value of the line is ignored.

Key definitions: `Command`, `Field`, `Command.ofJson`, `Command.read`.
-/
import OffsetGaps.Host.Value
import OffsetGaps.Json.Reader
import OffsetGaps.Text.LetterCase

namespace OffsetGaps

structure Command where
  type : String := ""
  function : String := ""
  id : String := ""
  value : Value := .null
  values : Option (List Value) := none
deriving Repr

inductive Field where
  | type
  | function
  | id
  | value
  | values
deriving DecidableEq, Repr

namespace Field

def all : List Field := [.type, .function, .id, .value, .values]

def name : Field → String
  | .type => "type"
  | .function => "function"
  | .id => "id"
  | .value => "value"
  | .values => "values"

/-- The field that a member of an object sets. -/
def ofName? (name : String) : Option Field := all.find? fun f => sameLetters f.name name

end Field

namespace Command

/-- A text field after a member: a null keeps the old text. -/
def textField (old : String) : Json → Option String
  | .null => some old
  | .string s => some s
  | _ => none

def listField : Json → Option (Option (List Value))
  | .null => some none
  | .array items => some (some (items.map Value.ofJson))
  | _ => none

def set (c : Command) (f : Field) (v : Json) : Option Command :=
  match f with
  | .type => (textField c.type v).map fun type => { c with type }
  | .function => (textField c.function v).map fun function => { c with function }
  | .id => (textField c.id v).map fun id => { c with id }
  | .value => some { c with value := Value.ofJson v }
  | .values => (listField v).map fun values => { c with values }

/-- Takes in a member of the object. -/
def member (c : Command) (m : String × Json) : Option Command :=
  match Field.ofName? m.1 with
  | some f => c.set f m.2
  | none => some c

def ofJson : Json → Option Command
  | .null => some {}
  | .object members => members.foldlM member {}
  | _ => none

def read (line : List Char) : Option Command :=
  (Json.readFirst line).bind fun (v, _) => ofJson v

end Command
end OffsetGaps

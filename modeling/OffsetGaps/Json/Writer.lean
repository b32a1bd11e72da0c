/-
# Writing JSON

Compact JSON text. In strings the quote, the backslash and the controls are
escaped, and so are `<`, `>`, `&` and the two Unicode line separators, so
that the text can stand inside HTML and script; every other character is
written as it is. Since line feeds are always escaped, a written value never
breaks a line.

Key definitions: `Json.escape`, `Json.stringText`, `Json.objectText`,
`Json.text`.
-/
import OffsetGaps.Json.Basic
import OffsetGaps.Text.Quoted

namespace OffsetGaps
namespace Json

/-- How a character is written inside a string. -/
def escape (c : Char) : List Char :=
  if c = '"' ∨ c = '\\' then ['\\', c]
  else if c = '\n' then ['\\', 'n']
  else if c = '\r' then ['\\', 'r']
  else if c = '\t' then ['\\', 't']
  else if c.toNat = 0x08 then ['\\', 'b']
  else if c.toNat = 0x0C then ['\\', 'f']
  else if c.toNat < 0x20 ∨ c = '<' ∨ c = '>' ∨ c = '&' ∨ c.toNat = 0x2028 ∨ c.toNat = 0x2029 then
    '\\' :: 'u' :: Quoted.hex 4 c.toNat
  else [c]

def stringText (s : String) : List Char :=
  '"' :: s.toList.flatMap escape ++ ['"']

def commaSeparated (parts : List (List Char)) : List Char := List.intercalate [','] parts

def objectText (members : List (String × List Char)) : List Char :=
  '\x7b' :: commaSeparated (members.map fun (name, value) => stringText name ++ ':' :: value) ++
    ['\x7d']

def arrayText (items : List (List Char)) : List Char := '[' :: commaSeparated items ++ [']']

def boolText (b : Bool) : List Char := if b then "true".toList else "false".toList

mutual

/-- A value as compact text. -/
def text : Json → List Char
  | .null => "null".toList
  | .bool b => boolText b
  | .number literal => literal.toList
  | .string s => stringText s
  | .array items => arrayText (itemTexts items)
  | .object members => objectText (memberTexts members)

def itemTexts : List Json → List (List Char)
  | [] => []
  | item :: rest => text item :: itemTexts rest

def memberTexts : List (String × Json) → List (String × List Char)
  | [] => []
  | (name, value) :: rest => (name, text value) :: memberTexts rest

end

end Json
end OffsetGaps

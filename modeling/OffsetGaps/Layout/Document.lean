/-
# Layouts as documents

A layout is written as a JSON object, one entry a line, in the byte order of
the keys, or as a YAML mapping in their natural order. An empty layout is an
empty object in both. A layout that is not there at all is `null` in JSON
and an empty object in YAML.

Key definitions: `Format`, `Layout.jsonText`, `Layout.yamlText`,
`Layout.render`.
-/
import OffsetGaps.Json.Writer
import OffsetGaps.Layout.Basic
import OffsetGaps.Layout.Order
import OffsetGaps.Sorting
import OffsetGaps.Yaml.Writer

namespace OffsetGaps

inductive Format where
  | json
  | yaml
deriving DecidableEq, Repr

/-- The name of a format that does not exist. -/
structure UnknownFormat where
  name : String
deriving DecidableEq, Repr

def UnknownFormat.message (e : UnknownFormat) : String :=
  "unknown format " ++ Quoted.text e.name

/-- The format with a name; case counts. -/
def Format.ofName (name : String) : Except UnknownFormat Format :=
  if name = "json" then .ok .json else if name = "yaml" then .ok .yaml else .error ⟨name⟩

namespace Layout

/-- The entries in the byte order of their keys. -/
def byBytes (l : Layout) : List (String × Int64) :=
  l.entries.mergeSort fun a b => a.1 ≤ b.1

/-- The entries as they are sorted by the natural order of their keys. -/
def byNature (l : Layout) : List (String × Int64) :=
  Sorting.sort (fun a b => keyLess a.1 b.1) l.entries

def distanceText (d : Int64) : List Char := Decimal.write d.toInt

def jsonLine (entry : String × Int64) : List Char :=
  ' ' :: ' ' :: Json.stringText entry.1 ++ ':' :: ' ' :: distanceText entry.2

/-- An entry of the YAML document, with its line feed. -/
def yamlEntry (entry : String × Int64) : List Char :=
  Yaml.entryText entry.1.toList (distanceText entry.2)

/-- The empty object of both formats. -/
def emptyText : List Char := ['\x7b', '\x7d', '\n']

/-- The layout as an indented JSON object. -/
def jsonText (l : Layout) : List Char :=
  match l.byBytes with
  | [] => emptyText
  | entries =>
    '\x7b' :: '\n' :: List.intercalate [',', '\n'] (entries.map jsonLine) ++ ['\n', '\x7d', '\n']

/-- The layout as a YAML mapping. -/
def yamlText (l : Layout) : List Char :=
  match l.byNature with
  | [] => emptyText
  | entries => entries.flatMap yamlEntry

def document : Format → Option Layout → List Char
  | .json, some l => l.jsonText
  | .json, none => "null\n".toList
  | .yaml, some l => l.yamlText
  | .yaml, none => emptyText

/-- The document of a layout, or of none, in the format with this name. -/
def render (format : String) (l : Option Layout) : Except UnknownFormat String :=
  (Format.ofName format).map fun f => String.ofList (document f l)

end Layout
end OffsetGaps

/-
# JSON values

A JSON document as a value. Numbers keep the literal they were written with,
so no digit is lost; objects keep their members in order, repeated names
included.

Key definitions: `Json`.
-/

namespace OffsetGaps

inductive Json where
  | null
  | bool (b : Bool)
  /-- A number, as the literal that stands in the text. -/
  | number (literal : String)
  | string (s : String)
  | array (items : List Json)
  /-- The members in the order of the text. -/
  | object (members : List (String × Json))
deriving Repr, Inhabited

end OffsetGaps

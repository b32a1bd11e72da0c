/-
# Host values

A host hands over values of many types and gets a value back: machine
integers of every width, floating-point numbers, number literals, text,
truth values, nulls, nested data, layouts, and values of types that no
parameter accepts. Each has a type name, by which errors call it, and most
have a JSON text.

Key definitions: `Integer`, `Foreign`, `Value`, `Value.typeName`,
`Value.jsonText`.
-/
import OffsetGaps.Binary.Shortest
import OffsetGaps.Json.Token
import OffsetGaps.Json.Writer
import OffsetGaps.Layout.Document

namespace OffsetGaps

/-- A machine integer of the host. -/
inductive Integer where
  | int64 (n : Int64)
  /-- The host's default integer, 64 bits wide. -/
  | int (n : Int64)
  | int32 (n : Int32)
  | int16 (n : Int16)
  | int8 (n : Int8)
  | uint8 (n : UInt8)
  | uint16 (n : UInt16)
  | uint32 (n : UInt32)
  /-- The host's default unsigned integer, 64 bits wide. -/
  | uint (n : UInt64)
  | uint64 (n : UInt64)
deriving DecidableEq, Repr

namespace Integer

def value : Integer → Int
  | .int64 n => n.toInt
  | .int n => n.toInt
  | .int32 n => n.toInt
  | .int16 n => n.toInt
  | .int8 n => n.toInt
  | .uint8 n => n.toNat
  | .uint16 n => n.toNat
  | .uint32 n => n.toNat
  | .uint n => n.toNat
  | .uint64 n => n.toNat

/-- The conversion to 64 signed bits. Narrow integers are widened, and
unsigned ones of 64 bits are taken bit by bit. -/
def toInt64 : Integer → Int64
  | .int64 n => n
  | .int n => n
  | .int32 n => n.toInt64
  | .int16 n => n.toInt64
  | .int8 n => n.toInt64
  | .uint8 n => n.toUInt64.toInt64
  | .uint16 n => n.toUInt64.toInt64
  | .uint32 n => n.toUInt64.toInt64
  | .uint n => n.toInt64
  | .uint64 n => n.toInt64

/-- Whether the conversion would change the sign. -/
def exceeds : Integer → Bool
  | .uint n => n > 0x7FFFFFFFFFFFFFFF
  | .uint64 n => n > 0x7FFFFFFFFFFFFFFF
  | _ => false

def toInt64? (n : Integer) : Option Int64 := if n.exceeds then none else some n.toInt64

def typeName : Integer → String
  | .int64 _ => "int64"
  | .int _ => "int"
  | .int32 _ => "int32"
  | .int16 _ => "int16"
  | .int8 _ => "int8"
  | .uint8 _ => "uint8"
  | .uint16 _ => "uint16"
  | .uint32 _ => "uint32"
  | .uint _ => "uint"
  | .uint64 _ => "uint64"

end Integer

/-- A value of a type that no parameter accepts. Some types have one value
here; any other value is known by the name of its type and by its JSON text,
if it has one. -/
inductive Foreign where
  /-- The single-precision number 1. -/
  | single
  /-- A complex number. -/
  | complex
  /-- The machine address 1. -/
  | address
  /-- A record without fields. -/
  | emptyRecord
  /-- A reference to no integer of the default width. -/
  | noInteger
  /-- A reference to no text. -/
  | noText
  /-- The byte 1. -/
  | bytes
  /-- The list of the integer 1. -/
  | integers
  /-- A time span of one unit. -/
  | duration
  /-- A value of any other type. -/
  | other (typeName : String) (json : Option String)
deriving DecidableEq, Repr

def Foreign.typeName : Foreign → String
  | .single => "float32"
  | .complex => "complex128"
  | .address => "uintptr"
  | .emptyRecord => "struct \x7b\x7d"
  | .noInteger => "*int"
  | .noText => "*string"
  | .bytes => "[]uint8"
  | .integers => "[]int64"
  | .duration => "time.Duration"
  | .other typeName _ => typeName

inductive Value where
  | null
  | bool (b : Bool)
  | text (s : String)
  | integer (n : Integer)
  /-- A reference to an integer, or to none. -/
  | reference (target : Option Int64)
  /-- A floating-point number by its bits. -/
  | float (bits : UInt64)
  /-- A number kept as the literal it was written with. -/
  | number (literal : String)
  | array (items : List Json)
  | object (members : List (String × Json))
  | layout (l : Layout)
  | foreign (f : Foreign)
deriving Repr, Inhabited

/-- Why a value has no JSON text. -/
inductive EncodeError where
  | unsupportedType (typeName : String)
  | unsupportedNumber (name : String)
  | invalidLiteral (literal : String)
deriving DecidableEq, Repr

def EncodeError.message : EncodeError → String
  | .unsupportedType typeName => "json: unsupported type: " ++ typeName
  | .unsupportedNumber name => "json: unsupported value: " ++ name
  | .invalidLiteral literal =>
    "json: error calling MarshalJSONTo for type *json.Number: cannot parse " ++
      Quoted.text literal ++ " as JSON number: " ++ NumberError.malformed.message

def Foreign.jsonText : Foreign → Except EncodeError (List Char)
  | .single => .ok ['1']
  | .complex => .error (.unsupportedType Foreign.complex.typeName)
  | .address => .ok ['1']
  | .emptyRecord => .ok (Json.objectText [])
  | .noInteger => .ok "null".toList
  | .noText => .ok "null".toList
  | .bytes => .ok (Json.stringText "AQ==")
  | .integers => .ok (Json.arrayText [['1']])
  | .duration => .ok ['1']
  | .other _ (some json) => .ok json.toList
  | .other typeName none => .error (.unsupportedType typeName)

namespace Value

def typeName : Value → String
  | .null => "null"
  | .bool _ => "bool"
  | .text _ => "string"
  | .integer n => n.typeName
  | .reference _ => "*int64"
  | .float _ => "float64"
  | .number _ => "json.Number"
  | .array _ => "[]interface \x7b\x7d"
  | .object _ => "map[string]interface \x7b\x7d"
  | .layout _ => "bufferlayout.Layout"
  | .foreign f => f.typeName

def ofJson : Json → Value
  | .null => .null
  | .bool b => .bool b
  | .number literal => .number literal
  | .string s => .text s
  | .array items => .array items
  | .object members => .object members

/-- A number literal is written as it is; the empty one stands for zero. -/
def literalText (literal : String) : Except EncodeError (List Char) :=
  if literal.isEmpty then .ok ['0']
  else if Json.isNumberLiteral literal.toList then .ok literal.toList
  else .error (.invalidLiteral literal)

/-- A layout as a compact object, in the byte order of its keys. -/
def layoutText (l : Layout) : List Char :=
  Json.objectText (l.byBytes.map fun (key, d) => (key, Layout.distanceText d))

def jsonText : Value → Except EncodeError (List Char)
  | .null => .ok "null".toList
  | .bool b => .ok (Json.boolText b)
  | .text s => .ok (Json.stringText s)
  | .integer n => .ok (Decimal.write n.value)
  | .reference none => .ok "null".toList
  | .reference (some n) => .ok (Decimal.write n.toInt)
  | .float bits => (Binary64.ofBits bits).text.mapError .unsupportedNumber
  | .number literal => literalText literal
  | .array items => .ok (Json.text (.array items))
  | .object members => .ok (Json.text (.object members))
  | .layout l => .ok (layoutText l)
  | .foreign f => f.jsonText

end Value
end OffsetGaps

/-
# Answers

Each command is answered with a JSON object on a line. The fields of an
answer stand in a fixed order, and a field that has nothing to say is left
out; `type` and `success` always stand.

Key definitions: `ErrorCode`, `Answer`, `Answer.text`.
-/
import OffsetGaps.Host.Error

namespace OffsetGaps

/-- What kind of problem a refusal reports. -/
inductive ErrorCode where
  | parseError
  | notSupported
  | unknownFunction
  | unknownInstance
  | typeError
  | negativeOffset
  | invalidState
  | overflow
  | internalError
deriving DecidableEq, Repr

namespace ErrorCode

def text : ErrorCode → String
  | .parseError => "PARSE_ERROR"
  | .notSupported => "NOT_SUPPORTED"
  | .unknownFunction => "UNKNOWN_FUNCTION"
  | .unknownInstance => "UNKNOWN_INSTANCE"
  | .typeError => "TYPE_ERROR"
  | .negativeOffset => "NEGATIVE_OFFSET"
  | .invalidState => "INVALID_STATE"
  | .overflow => "OVERFLOW"
  | .internalError => "INTERNAL_ERROR"

/-- The code of an error, by its innermost cause. -/
def ofError : HostError → ErrorCode
  | .row _ cause => ofError cause
  | .unknownFunction _ => .unknownFunction
  | .unknownInstance _ => .unknownInstance
  | .hostType _ => .typeError
  | .arity _ _ _ => .typeError
  | .negativeOffset _ _ => .negativeOffset
  | .accumulator .finalized => .invalidState
  | .accumulator (.overflow _) => .overflow
  | _ => .internalError

end ErrorCode

structure FunctionInfo where
  name : String
  signature : String
  description : String
deriving DecidableEq, Repr

inductive Answer where
  | init
  | functions (known : List FunctionInfo)
  | opened (id : String)
  | updated (id : String)
  | finalized (id : String) (result : Value)
  | discarded (id : String)
  | aggregated (result : Value)
  | shutdown
  /-- The command was not carried out. -/
  | refused (command : String) (code : ErrorCode) (message : String)
deriving Repr

namespace Answer

/-- A text field that is left out if it is empty. -/
def textField (name value : String) : List (String × List Char) :=
  if value.isEmpty then [] else [(name, Json.stringText value)]

/-- The result field; a null is left out. -/
def resultField : Value → Except EncodeError (List (String × List Char))
  | .null => .ok []
  | v => v.jsonText.map fun text => [("result", text)]

def infoText (f : FunctionInfo) : List Char :=
  Json.objectText ([("name", Json.stringText f.name), ("signature", Json.stringText f.signature)] ++
    textField "description" f.description)

/-- The list of functions; an empty one is left out. -/
def functionsField : List FunctionInfo → List (String × List Char)
  | [] => []
  | known => [("functions", Json.arrayText (known.map infoText))]

/-- The fields that every answer starts with. -/
def heading (type : String) (success : Bool) : List (String × List Char) :=
  [("type", Json.stringText type), ("success", Json.boolText success)]

def fields : Answer → Except EncodeError (List (String × List Char))
  | .init =>
    .ok (heading "init" true ++ textField "name" "buffer-layout-go" ++ textField "version" "0.1.0")
  | .functions known => .ok (heading "functions" true ++ functionsField known)
  | .opened id => .ok (heading "open" true ++ textField "id" id)
  | .updated id => .ok (heading "update" true ++ textField "id" id)
  | .finalized id result =>
    (resultField result).map fun result => heading "finalize" true ++ textField "id" id ++ result
  | .discarded id => .ok (heading "discard" true ++ textField "id" id)
  | .aggregated result => (resultField result).map fun result => heading "aggregate" true ++ result
  | .shutdown => .ok (heading "shutdown" true)
  | .refused command code message =>
    .ok (heading "error" false ++ textField "commandType" command ++
      textField "errorCode" code.text ++ textField "message" message)

/-- An answer as a line, without its line feed. -/
def text (a : Answer) : Except EncodeError (List Char) := a.fields.map Json.objectText

end Answer
end OffsetGaps

/-
# Writing YAML mappings

An entry of a mapping is its key, a colon and its value. A key that is long
or holds a line break is marked with a question mark and its value stands on
a line of its own. As with scalars, this is assumed of the package that
writes YAML: block style, no indentation at the top, and keys of more than
128 bytes as the long ones.

Key definitions: `Yaml.isSimpleKey`, `Yaml.entryText`.
-/
import OffsetGaps.Text.Lines
import OffsetGaps.Yaml.Scalar

namespace OffsetGaps
namespace Yaml

/-- The most bytes of a key that stands in one line with its value. -/
def simpleKeyLimit : Nat := 128

/-- Whether a key stands in one line with its value. -/
def isSimpleKey (key : List Char) : Bool :=
  !key.any isBreak && byteLength key ≤ simpleKeyLimit

/-- Whether a scalar leaves the line it ends on open. -/
def endsOpen (key : List Char) : Bool :=
  style key != .block || !isBreak (key.getLastD 'x')

/-- An entry of a mapping, with its line feed. -/
def entryText (key value : List Char) : List Char :=
  if isSimpleKey key then scalarText key ++ ':' :: ' ' :: value ++ ['\n']
  else
    '?' :: ' ' :: scalarText key ++ (if endsOpen key then ['\n'] else []) ++
      ':' :: ' ' :: value ++ ['\n']

end Yaml
end OffsetGaps

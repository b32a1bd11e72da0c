/-
# Tokens of JSON

One token is read off the front of a text: a bracket, a colon, a comma, a
string, a number or one of the three literals. White space before a token is
a space, a tab, a line feed or a carriage return and nothing else. Strings
come out decoded; escapes that name half of a surrogate pair without its
other half stand for U+FFFD. Numbers keep their literal.

Key definitions: `Token`, `scanString`, `scanNumber`, `nextToken`.
-/
import OffsetGaps.Json.Basic

namespace OffsetGaps

inductive Token where
  | openObject
  | closeObject
  | openArray
  | closeArray
  | colon
  | comma
  | string (s : String)
  | number (literal : String)
  | null
  | bool (b : Bool)
deriving DecidableEq, Repr

namespace Json

/-- White space between tokens. -/
def isSpace (c : Char) : Bool := c == ' ' || c == '\t' || c == '\n' || c == '\r'

/-! ### Strings -/

def hexValue? (c : Char) : Option Nat :=
  if c.isDigit then some (c.toNat - '0'.toNat)
  else if 'a' ≤ c ∧ c ≤ 'f' then some (c.toNat - 'a'.toNat + 10)
  else if 'A' ≤ c ∧ c ≤ 'F' then some (c.toNat - 'A'.toNat + 10)
  else none

def hexValue4? (a b c d : Char) : Option Nat := do
  return ((((← hexValue? a) * 16 + (← hexValue? b)) * 16 + (← hexValue? c)) * 16 + (← hexValue? d))

/-- The character that a backslash and this letter stand for. -/
def escaped? : Char → Option Char
  | '"' => some '"'
  | '\\' => some '\\'
  | '/' => some '/'
  | 'b' => some '\x08'
  | 'f' => some '\x0c'
  | 'n' => some '\n'
  | 'r' => some '\r'
  | 't' => some '\t'
  | _ => none

/-- What stands for half a surrogate pair. -/
def replacement : Char := '�'

def isHighSurrogate (u : Nat) : Bool := 0xD800 ≤ u && u < 0xDC00

def isLowSurrogate (u : Nat) : Bool := 0xDC00 ≤ u && u < 0xE000

/-- The characters read so far, the latest first, after a waiting first half
of a pair has turned out to be alone. -/
def settle (waiting : Option Nat) (done : List Char) : List Char :=
  if waiting.isSome then replacement :: done else done

/-- Takes in an escaped code unit. -/
def takeUnit (waiting : Option Nat) (done : List Char) (u : Nat) : Option Nat × List Char :=
  match waiting with
  | some high =>
    if isLowSurrogate u then
      (none, Char.ofNat (0x10000 + (high - 0xD800) * 0x400 + (u - 0xDC00)) :: done)
    else if isHighSurrogate u then (some u, replacement :: done)
    else (none, Char.ofNat u :: replacement :: done)
  | none =>
    if isHighSurrogate u then (some u, done)
    else if isLowSurrogate u then (none, replacement :: done)
    else (none, Char.ofNat u :: done)

/-- Reads the rest of a string up to its closing quote. `waiting` is a first
half of a surrogate pair just read, `done` the characters before it, the
latest first. -/
def scanString (waiting : Option Nat) (done : List Char) :
    List Char → Option (List Char × List Char)
  | [] => none
  | '"' :: rest => some ((settle waiting done).reverse, rest)
  | '\\' :: 'u' :: a :: b :: c :: d :: rest =>
    match hexValue4? a b c d with
    | some u =>
      let (waiting, done) := takeUnit waiting done u
      scanString waiting done rest
    | none => none
  | '\\' :: letter :: rest =>
    match escaped? letter with
    | some c => scanString none (c :: settle waiting done) rest
    | none => none
  | c :: rest =>
    if c.toNat < 0x20 then none else scanString none (c :: settle waiting done) rest

/-! ### Numbers -/

/-- Reads an exponent, if there is one, after the literal read so far. -/
def scanExponent (literal : List Char) : List Char → Option (List Char × List Char)
  | [] => some (literal, [])
  | e :: rest =>
    if e = 'e' ∨ e = 'E' then
      let (sign, digits) : List Char × List Char :=
        match rest with
        | '+' :: digits => (['+'], digits)
        | '-' :: digits => (['-'], digits)
        | digits => ([], digits)
      let run := digits.takeWhile Char.isDigit
      if run.isEmpty then none
      else some (literal ++ e :: sign ++ run, digits.dropWhile Char.isDigit)
    else some (literal, e :: rest)

/-- Reads a fraction and an exponent, if there are any. -/
def scanFraction (literal : List Char) : List Char → Option (List Char × List Char)
  | '.' :: digits =>
    let run := digits.takeWhile Char.isDigit
    if run.isEmpty then none
    else scanExponent (literal ++ '.' :: run) (digits.dropWhile Char.isDigit)
  | rest => scanExponent literal rest

/-- Reads the digits before the point: a zero alone, or digits that start
with none. -/
def scanWhole (sign : List Char) : List Char → Option (List Char × List Char)
  | [] => none
  | c :: rest =>
    if c = '0' then scanFraction (sign ++ ['0']) rest
    else if c.isDigit then
      scanFraction (sign ++ c :: rest.takeWhile Char.isDigit) (rest.dropWhile Char.isDigit)
    else none

/-- Reads a number and gives its literal. -/
def scanNumber : List Char → Option (List Char × List Char)
  | '-' :: rest => scanWhole ['-'] rest
  | rest => scanWhole [] rest

def isNumberLiteral (cs : List Char) : Bool :=
  match scanNumber cs with
  | some (_, []) => true
  | _ => false

/-! ### Tokens -/

/-- The token at the front of a text that does not start with white space,
and the text behind it. -/
def token : List Char → Option (Token × List Char)
  | '\x7b' :: rest => some (.openObject, rest)
  | '\x7d' :: rest => some (.closeObject, rest)
  | '[' :: rest => some (.openArray, rest)
  | ']' :: rest => some (.closeArray, rest)
  | ':' :: rest => some (.colon, rest)
  | ',' :: rest => some (.comma, rest)
  | '"' :: rest => (scanString none [] rest).map fun (s, rest) => (.string (String.ofList s), rest)
  | 'n' :: 'u' :: 'l' :: 'l' :: rest => some (.null, rest)
  | 't' :: 'r' :: 'u' :: 'e' :: rest => some (.bool true, rest)
  | 'f' :: 'a' :: 'l' :: 's' :: 'e' :: rest => some (.bool false, rest)
  | rest => (scanNumber rest).map fun (s, rest) => (.number (String.ofList s), rest)

/-- The first token of a text, white space before it skipped. -/
def nextToken (cs : List Char) : Option (Token × List Char) := token (cs.dropWhile isSpace)

end Json
end OffsetGaps

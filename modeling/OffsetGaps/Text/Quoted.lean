/-
# Quoted text

A text in double quotes, on one line and readable: printable characters
stand as they are, the quote and the backslash behind a backslash, the seven
named controls by their letter, and everything else by its code point in
lower-case hexadecimal, two digits for ASCII, four below U+10000, eight
above. A single character is quoted by the same rules in single quotes.

Key definitions: `Quoted.escape`, `Quoted.text`, `Quoted.char`.
-/
import OffsetGaps.Text.Printable

namespace OffsetGaps
namespace Quoted

/-- A number in lower-case hexadecimal, filled up with zeros to `width`
digits. -/
def hex (width n : Nat) : List Char :=
  let digits := Nat.toDigits 16 n
  List.replicate (width - digits.length) '0' ++ digits

/-- The letter that names a control character after a backslash. -/
def controlLetter? (c : Char) : Option Char :=
  match c.toNat with
  | 0x07 => some 'a'
  | 0x08 => some 'b'
  | 0x0C => some 'f'
  | 0x0A => some 'n'
  | 0x0D => some 'r'
  | 0x09 => some 't'
  | 0x0B => some 'v'
  | _ => none

/-- How a character is written between two `mark`s. -/
def escape (mark c : Char) : List Char :=
  if c = mark ∨ c = '\\' then ['\\', c]
  else if isPrintable c then [c]
  else match controlLetter? c with
    | some letter => ['\\', letter]
    | none =>
      if c.toNat < 0x80 then '\\' :: 'x' :: hex 2 c.toNat
      else if c.toNat < 0x10000 then '\\' :: 'u' :: hex 4 c.toNat
      else '\\' :: 'U' :: hex 8 c.toNat

/-- A text in double quotes. -/
def text (s : String) : String :=
  String.ofList ('"' :: s.toList.flatMap (escape '"') ++ ['"'])

def char (c : Char) : String :=
  String.ofList ('\'' :: escape '\'' c ++ ['\''])

end Quoted
end OffsetGaps

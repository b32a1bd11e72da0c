/-
# Timestamps

A text that reads as a point in time: a date of year, month and day, or such
a date with a time of day behind it. Behind a `T` or `t` the time carries a
zone; behind spaces it carries none. The year has four digits, the other
numbers one or two, and a fraction of a second may have any number.

It is assumed that the package that writes YAML tries these four forms and no
others, and checks dates by the Gregorian calendar.

Key definitions: `Timestamp.date?`, `Timestamp.clock?`, `Timestamp.reads`.
-/
import OffsetGaps.Text.Decimal

namespace OffsetGaps
namespace Timestamp

/-- A number of one or two digits at the front of a text, and the rest. -/
def shortNumber? : List Char → Option (Nat × List Char)
  | [] => none
  | c :: rest =>
    if c.isDigit then
      match rest with
      | d :: rest' =>
        if d.isDigit then some (10 * Decimal.digitValue c + Decimal.digitValue d, rest')
        else some (Decimal.digitValue c, rest)
      | [] => some (Decimal.digitValue c, [])
    else none

def after? (c : Char) : List Char → Option (List Char)
  | d :: rest => if c = d then some rest else none
  | [] => none

def isLeap (year : Nat) : Bool := year % 4 == 0 && (year % 100 != 0 || year % 400 == 0)

def daysIn (year month : Nat) : Nat :=
  if month = 2 then if isLeap year then 29 else 28
  else if [4, 6, 9, 11].contains month then 30 else 31

/-- The text behind a date. -/
def date? (cs : List Char) : Option (List Char) := do
  let digits := cs.takeWhile Char.isDigit
  guard (digits.length = 4)
  let year := digits.foldl (fun n c => 10 * n + Decimal.digitValue c) 0
  let (month, cs) ← shortNumber? (← after? '-' (cs.drop 4))
  guard (1 ≤ month ∧ month ≤ 12)
  let (day, cs) ← shortNumber? (← after? '-' cs)
  guard (1 ≤ day ∧ day ≤ daysIn year month)
  return cs

/-- The text behind a fraction of a second, if there is one. -/
def skipFraction : List Char → List Char
  | mark :: d :: rest =>
    if (mark = '.' || mark = ',') && d.isDigit then rest.dropWhile Char.isDigit
    else mark :: d :: rest
  | cs => cs

/-- The text behind a time of day. -/
def clock? (cs : List Char) : Option (List Char) := do
  let (hour, cs) ← shortNumber? cs
  guard (hour < 24)
  let (minute, cs) ← shortNumber? (← after? ':' cs)
  guard (minute < 60)
  let (second, cs) ← shortNumber? (← after? ':' cs)
  guard (second < 60)
  return skipFraction cs

/-- Whether a text is a zone: `Z`, or an offset of hours and minutes. -/
def isZone : List Char → Bool
  | ['Z'] => true
  | [sign, h, h', ':', m, m'] =>
    (sign = '+' || sign = '-') && [h, h', m, m'].all Char.isDigit &&
      10 * Decimal.digitValue h + Decimal.digitValue h' ≤ 24 &&
      10 * Decimal.digitValue m + Decimal.digitValue m' ≤ 60
  | _ => false

def reads (cs : List Char) : Bool :=
  match date? cs with
  | none => false
  | some [] => true
  | some (c :: rest) =>
    if c = 'T' ∨ c = 't' then ((clock? rest).map isZone).getD false
    else if c = ' ' then clock? (rest.dropWhile (· = ' ')) == some []
    else false

end Timestamp
end OffsetGaps

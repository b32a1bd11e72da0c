/-
# Natural order of keys

Keys are listed so that runs of digits compare as numbers: at the first
position where two keys differ, the digit runs from there on are read as
numbers and compared, then their lengths, then the characters themselves; a
key that is a beginning of another comes first. If one of the two characters
is `0` and the common digits before them are not all `0`, a 1 is put in
front of both runs, so that a zero inside a number keeps its place value.
Run values are taken in wrapping signed 64-bit arithmetic. Letters come
behind everything else, except right behind a digit, where they come first;
two letters stand in the order of their code points.

This comparison is assumed of the package that writes YAML. It is not
transitive, so the listing depends on how the keys are sorted by it. It is
assumed that the package uses the sort of `Sorting`, on the keys in the order
in which a map hands them out, which may be any.

Key definitions: `runValue`, `naturalLess`, `keyLess`.
-/
import OffsetGaps.Text.Letter

namespace OffsetGaps

/-- The value of the digit run at the front of a text, read on top of
`acc`. Digits of other scripts count by their distance from `0`. -/
def runValue (acc : Int64) : List Char → Int64
  | [] => acc
  | c :: rest =>
    if isDecimalDigit c then runValue (acc * 10 + Int64.ofNat (c.toNat - '0'.toNat)) rest else acc

def runLength (cs : List Char) : Nat := (cs.takeWhile isDecimalDigit).length

/-- Whether a key stands before another. `inDigits` says whether a digit
stands just before the two texts, and `lead` whether the digit run that ends
there holds one other than `0`. -/
def naturalLess (inDigits lead : Bool) : List Char → List Char → Bool
  | [], [] => false
  | [], _ :: _ => true
  | _ :: _, [] => false
  | a :: as, b :: bs =>
    if a = b then
      naturalLess (isDecimalDigit a) (isDecimalDigit a && (lead || a != '0')) as bs
    else if isLetter a && isLetter b then a < b
    else if isLetter a then inDigits
    else if isLetter b then !inDigits
    else
      let start : Int64 := if lead && (a == '0' || b == '0') then 1 else 0
      let x := runValue start (a :: as)
      let y := runValue start (b :: bs)
      if x ≠ y then x < y
      else
        let m := runLength (a :: as)
        let n := runLength (b :: bs)
        if m ≠ n then m < n else a < b

/-- Whether a key stands before another in a listing. -/
def keyLess (a b : String) : Bool := naturalLess false false a.toList b.toList

end OffsetGaps

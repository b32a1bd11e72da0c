/-
# Letters without their case

Three small maps on characters, each exact where ASCII words are compared
with arbitrary text: which characters fold to a lower-case ASCII letter,
which have an ASCII capital, and how a word looks, byte by byte, in lower
case.

Key definitions: `foldLetter`, `capital`, `lowerBytes`.
-/

namespace OffsetGaps

/-- Simple case folding onto the ASCII letters: besides the capitals, the
long s and the Kelvin sign fold to one. Every other character stays. -/
def foldLetter (c : Char) : Char :=
  if c.toNat = 0x17F then 's' else if c.toNat = 0x212A then 'k' else c.toLower

/-- Whether two texts agree up to the case of ASCII letters. -/
def sameLetters (a b : String) : Bool :=
  a.toList.map foldLetter == b.toList.map foldLetter

/-- The capital of a character as far as it is an ASCII letter: besides the
small letters, the dotless i and the long s have one. -/
def capital (c : Char) : Char :=
  if c.toNat = 0x131 then 'I' else if c.toNat = 0x17F then 'S' else c.toUpper

/-- The characters whose lower case is written in another number of bytes,
with that number. -/
def resizedLower : List (Nat × Nat) :=
  [(0x23A, 3), (0x23E, 3), (0x1E9E, 2), (0x2126, 2), (0x212B, 2), (0x2C62, 2), (0x2C64, 2),
   (0x2C6D, 2), (0x2C6E, 2), (0x2C6F, 2), (0x2C70, 2), (0x2C7E, 2), (0x2C7F, 2), (0xA78D, 2),
   (0xA7AA, 2), (0xA7AB, 2), (0xA7AC, 2), (0xA7AD, 2), (0xA7AE, 2), (0xA7B0, 2), (0xA7B1, 2),
   (0xA7B2, 2), (0xA7C5, 2), (0xA7CB, 2), (0xA7DC, 2)]

/-- One byte of a word in lower case, told apart only as far as a comparison
with an ASCII word needs: the letter itself, or some byte beyond ASCII. -/
inductive LowerByte where
  | ascii (c : Char)
  | other
deriving DecidableEq, Repr

/-- The bytes of the lower case of a character. -/
def lowerBytesOf (c : Char) : List LowerByte :=
  if c.toNat < 0x80 then [.ascii c.toLower]
  else if c.toNat = 0x130 then [.ascii 'i']
  else if c.toNat = 0x212A then [.ascii 'k']
  else List.replicate ((resizedLower.lookup c.toNat).getD c.utf8Size) .other

def lowerBytes (word : String) : List LowerByte := word.toList.flatMap lowerBytesOf

end OffsetGaps

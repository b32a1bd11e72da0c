/-
# Flags

The words of a command line are flags and arguments, in any order. A long
flag is `--name value` or `--name=value`; a short one is a letter after one
dash, with its value in the same word or in the next, and several switches
may share a dash. A switch takes a value only behind `=`. A word `--` ends
the flags. Letters from `test.` on are left to test runners and skipped. The
last setting of a flag counts, and the first fault ends the reading.

Key definitions: `Flag`, `FlagError`, `Settings`, `Settings.readWords`.
-/
import OffsetGaps.Text.Decimal
import OffsetGaps.Text.Quoted

namespace OffsetGaps

inductive Flag where
  | logLevel
  | rejectNegative
  | format
  | help
deriving DecidableEq, Repr

namespace Flag

def name : Flag → String
  | .logLevel => "log-level"
  | .rejectNegative => "reject-negative"
  | .format => "format"
  | .help => "help"

def letter? : Flag → Option Char
  | .format => some 'f'
  | .help => some 'h'
  | _ => none

/-- Whether the flag is either on or off. -/
def isSwitch : Flag → Bool
  | .rejectNegative => true
  | .help => true
  | _ => false

/-- Both names, as errors show them. -/
def names (f : Flag) : String :=
  match f.letter? with
  | some letter => "-" ++ letter.toString ++ ", --" ++ f.name
  | none => "--" ++ f.name

end Flag

inductive FlagError where
  /-- A word that starts like a long flag but has no name. -/
  | badSyntax (word : String)
  | unknownFlag (name : String)
  /-- A letter that is no flag, in these letters. -/
  | unknownLetter (letter : Char) (letters : String)
  | missingValue (word : String)
  | missingLetterValue (letter : Char) (letters : String)
  /-- A switch with a value other than on or off. -/
  | badSwitch (flag : Flag) (value : String)
deriving DecidableEq, Repr

def FlagError.message : FlagError → String
  | .badSyntax word => "bad flag syntax: " ++ word
  | .unknownFlag name => "unknown flag: --" ++ name
  | .unknownLetter letter letters =>
    "unknown shorthand flag: " ++ Quoted.char letter ++ " in -" ++ letters
  | .missingValue word => "flag needs an argument: " ++ word
  | .missingLetterValue letter letters =>
    "flag needs an argument: " ++ Quoted.char letter ++ " in -" ++ letters
  | .badSwitch flag value =>
    "invalid argument " ++ Quoted.text value ++ " for " ++ Quoted.text flag.names ++
      " flag: strconv.ParseBool: parsing " ++ Quoted.text value ++ ": " ++
      NumberError.malformed.message

structure Settings where
  logLevel : String := "warn"
  rejectNegative : Bool := false
  format : String := "json"
  help : Bool := false
deriving DecidableEq, Repr

namespace Settings

/-- The position of a switch. -/
def switch? (value : String) : Option Bool :=
  if ["1", "t", "T", "TRUE", "true", "True"].contains value then some true
  else if ["0", "f", "F", "FALSE", "false", "False"].contains value then some false
  else none

def set (s : Settings) (flag : Flag) (value : String) : Except FlagError Settings :=
  match flag with
  | .logLevel => .ok { s with logLevel := value }
  | .format => .ok { s with format := value }
  | .rejectNegative =>
    match switch? value with
    | some rejectNegative => .ok { s with rejectNegative }
    | none => .error (.badSwitch flag value)
  | .help =>
    match switch? value with
    | some help => .ok { s with help }
    | none => .error (.badSwitch flag value)

def setAll (s : Settings) (assignments : List (Flag × String)) : Except FlagError Settings :=
  assignments.foldlM (fun s a => s.set a.1 a.2) s

end Settings

/-- What a word of the command line is. -/
inductive Word where
  | argument
  | terminator
  | assign (assignments : List (Flag × String))
  /-- Flags with their values, and one that takes the next word; `missing`
  is the error if there is none. -/
  | await (assignments : List (Flag × String)) (flag : Flag) (missing : FlagError)
deriving DecidableEq, Repr

namespace Word

/-- What a switch without a value is set to. -/
def switchOn : String := "true"

/-- Reads a long flag, without its dashes, of the word `word`. -/
def ofLong (flags : List Flag) (word : String) (cs : List Char) : Except FlagError Word :=
  match cs with
  | [] => .error (.badSyntax word)
  | '-' :: _ => .error (.badSyntax word)
  | '=' :: _ => .error (.badSyntax word)
  | _ =>
    let name := String.ofList (cs.takeWhile (· != '='))
    match flags.find? fun f => f.name == name with
    | none => .error (.unknownFlag name)
    | some flag =>
      match cs.dropWhile (· != '=') with
      | _ :: value => .ok (.assign [(flag, String.ofList value)])
      | [] =>
        if flag.isSwitch then .ok (.assign [(flag, switchOn)])
        else .ok (.await [] flag (.missingValue word))

/-- A letter as errors show it: those beyond ASCII are all shown alike. -/
def shownLetter (c : Char) : Char := if c.toNat < 0x80 then c else 'Ã'

/-- Letters that are left to test runners. -/
def isReserved (cs : List Char) : Bool := "test.".toList.isPrefixOf cs

/-- Reads the letters behind one dash; `done` are the switches before them,
the latest first. -/
def ofLetters (flags : List Flag) (done : List (Flag × String)) :
    List Char → Except FlagError Word
  | [] => .ok (.assign done.reverse)
  | c :: rest =>
    if isReserved (c :: rest) then .ok (.assign done.reverse)
    else
      match flags.find? fun f => f.letter? == some c with
      | none => .error (.unknownLetter (shownLetter c) (String.ofList (c :: rest)))
      | some flag =>
        match rest with
        | '=' :: d :: value =>
          .ok (.assign ((flag, String.ofList (d :: value)) :: done).reverse)
        | _ =>
          if flag.isSwitch then ofLetters flags ((flag, switchOn) :: done) rest
          else
            match rest with
            | [] => .ok (.await done.reverse flag (.missingLetterValue c (String.ofList [c])))
            | _ => .ok (.assign ((flag, String.ofList rest) :: done).reverse)

def read (flags : List Flag) (word : String) : Except FlagError Word :=
  match word.toList with
  | ['-', '-'] => .ok .terminator
  | '-' :: '-' :: long => ofLong flags word long
  | '-' :: c :: letters => ofLetters flags [] (c :: letters)
  | _ => .ok .argument

end Word

namespace Settings

/-- Reads words with some flags in force; `arguments` are the arguments
before them, the latest first. -/
def readWords (flags : List Flag) (s : Settings) (arguments : List String) :
    List String → Except FlagError (Settings × List String)
  | [] => .ok (s, arguments.reverse)
  | word :: rest =>
    match Word.read flags word with
    | .error e => .error e
    | .ok .argument => readWords flags s (word :: arguments) rest
    | .ok .terminator => .ok (s, arguments.reverse ++ rest)
    | .ok (.assign assignments) =>
      match s.setAll assignments with
      | .error e => .error e
      | .ok s => readWords flags s arguments rest
    | .ok (.await assignments flag missing) =>
      match rest with
      | [] => .error missing
      | value :: rest =>
        match s.setAll (assignments ++ [(flag, value)]) with
        | .error e => .error e
        | .ok s => readWords flags s arguments rest

end Settings
end OffsetGaps

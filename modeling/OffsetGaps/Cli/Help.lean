/-
# Help

What the program says about itself and its subcommands.

Key definitions: `Topic.helpText`, `Help.unknownTopic`.
-/
import OffsetGaps.Cli.Topic

namespace OffsetGaps
namespace Help

def lines (ls : List String) : String := String.join (ls.map (· ++ "\n"))

/-- The flags of the program that all subcommands share. -/
def commonFlags : List String :=
  ["      --log-level string   Log level (debug,info,warn,error) (default \"warn\")",
   "      --reject-negative    Reject negative offsets instead of sorting them before 0"]

/-- How the program is used, up to its flags. -/
def programUsage : List String :=
  ["Usage:",
   "  bufmap [command]",
   "",
   "Available Commands:",
   "  adapter     Serve the JSON-lines host protocol on stdin/stdout",
   "  completion  Generate the autocompletion script for the specified shell",
   "  help        Help about any command",
   "  layout      Compute the buffer location map of a list of offsets",
   "",
   "Flags:"]

def programFooter : List String :=
  ["", "Use \"bufmap [command] --help\" for more information about a command."]

def program : List String :=
  ["Compute buffer location maps from offsets, directly or over a JSON-lines host protocol.", ""] ++
    programUsage ++ ["  -h, --help               help for bufmap"] ++ commonFlags ++ programFooter

def layout : List String :=
  ["Aggregate offsets with wasmati.getBufferLocationMap and print the result.",
   "Offsets are taken from the arguments, or one per line from stdin when no",
   "arguments are given. \"null\" and blank lines are skipped.",
   "",
   "Usage:",
   "  bufmap layout [offset...] [flags]",
   "",
   "Flags:",
   "  -f, --format string   Output format (json,yaml) (default \"json\")",
   "  -h, --help            help for layout",
   "",
   "Global Flags:"] ++ commonFlags

def adapter : List String :=
  ["Read one JSON command per line from stdin and answer each with one JSON",
   "result line on stdout. Commands: init, functions, open, update, finalize,",
   "discard, aggregate, shutdown.",
   "",
   "Usage:",
   "  bufmap adapter [flags]",
   "",
   "Flags:",
   "  -h, --help   help for adapter",
   "",
   "Global Flags:"] ++ commonFlags

def help : List String :=
  ["Help provides help for any command in the application.",
   "Simply type bufmap help [path to command] for full details.",
   "",
   "Usage:",
   "  bufmap help [command] [flags]",
   "",
   "Flags:",
   "  -h, --help   help for help",
   "",
   "Global Flags:"] ++ commonFlags

/-- Whether a word can stand between backquotes. -/
def fitsBackquotes (word : String) : Bool :=
  word.toList.all fun c =>
    (c.toNat ≥ 0x20 || c == '\t') && c.toNat != 0x60 && c.toNat != 0x7F && c.toNat != 0xFEFF

/-- A word between backquotes, or quoted if it does not fit there. -/
def backquoted (word : String) : String :=
  if fitsBackquotes word then "\x60" ++ word ++ "\x60" else Quoted.text word

/-- What is said about words that name no topic. -/
def unknownTopic (words : List String) : String :=
  "Unknown help topic [" ++ String.intercalate " " (words.map backquoted) ++ "]\n" ++
    lines (programUsage ++ commonFlags ++ programFooter)

end Help

def Topic.helpText : Topic → String
  | .program => Help.lines Help.program
  | .layout => Help.lines Help.layout
  | .adapter => Help.lines Help.adapter
  | .help => Help.lines Help.help

end OffsetGaps

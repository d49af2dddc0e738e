import MiniLua.CommandLine.Flags

/-!
# Commands and their help

The flags and commands of the program, and the pages that describe them.

## Delivered

- `manifestFlag`, `sharedStoreFlag`, `verboseFlag`, `noColorFlag`, `helpFlag`: the flags.
- `Command`, `commands`, `findCommand?`: the commands.
- `programHelp`, `commandHelp`, `listingHelp`: the pages.
-/

set_option autoImplicit false

namespace MiniLua.CommandLine

/-- The manifest to run. -/
def manifestFlag : Flag :=
  { name := "manifest", short := some "m", isSwitch := false
    usage := "program manifest to run when no files are given (default ./mlua.yml)" }

/-- Variables are kept. -/
def sharedStoreFlag : Flag :=
  { name := "shared-store", isSwitch := true,
    usage := "keep variables from one program to the next" }

/-- More is told. -/
def verboseFlag : Flag :=
  { name := "verbose", short := some "v", isSwitch := true
    usage := "print a header before each program and its final store" }

/-- No colours. -/
def noColorFlag : Flag :=
  { name := "no-color", isSwitch := true, usage := "disable coloured diagnostics" }

/-- A help page is wanted. -/
def helpFlag : Flag :=
  { name := "help", short := some "h", isSwitch := true, usage := "show help" }

/-- The flags before a command. -/
def programFlags : List Flag :=
  [manifestFlag, sharedStoreFlag, verboseFlag, noColorFlag, helpFlag]

/-- The flags behind a command. -/
def commandFlags : List Flag :=
  [helpFlag]

/-- The commands. -/
inductive Command where
  | run
  | check
  | tokens
  | ast
  | fmt
  | version
  | help
deriving DecidableEq

/-- All commands in the order of their listing. -/
def commands : List Command :=
  [.run, .check, .tokens, .ast, .fmt, .version, .help]

namespace Command

/-- The name of a command. -/
def name : Command → String
  | .run => "run"
  | .check => "check"
  | .tokens => "tokens"
  | .ast => "ast"
  | .fmt => "fmt"
  | .version => "version"
  | .help => "help"

/-- All names of a command. -/
def names : Command → List String
  | .help => ["help", "h"]
  | c => [c.name]

/-- What a command does. -/
def usage : Command → String
  | .run => "run files in order, or the manifest programs when none are given"
  | .check => "lex and parse without running"
  | .tokens => "print the token stream of a file"
  | .ast => "print the syntax tree of a file as JSON"
  | .fmt => "print a file in canonical layout"
  | .version => "print the version"
  | .help => "Shows a list of commands or help for one command"

/-- What a command takes. -/
def arguments : Command → String
  | .run | .check => "[files...]"
  | .tokens | .ast | .fmt => "<file>"
  | .version => "[arguments...]"
  | .help => "[command]"

/-- The name of a command on its own page. The page of the help command has none. -/
def title : Command → String
  | .help => ""
  | c => "mlua " ++ c.name

end Command

/-- The command with a name. -/
def findCommand? (name : String) : Option Command :=
  commands.find? fun c => name ∈ c.names

/-! ## Pages -/

/-- Lines of two columns with two spaces between them. -/
def columns (margin : String) (rows : List (String × String)) : String :=
  let width := rows.foldl (fun w row => max w row.1.length) 0
  String.join (rows.map fun (left, right) =>
    margin ++ left ++ "".pushn ' ' (width + 2 - left.length) ++ right ++ "\n")

/-- A flag with its names. -/
def flagRow (f : Flag) : String × String :=
  let value := if f.isSwitch then "" else " value"
  let short := match f.short with
    | some s => ", -" ++ s ++ value
    | none => ""
  ("--" ++ f.name ++ value ++ short, f.usage)

/-- A command with its names. -/
def commandRow (c : Command) : String × String :=
  (", ".intercalate c.names, c.usage)

/-- The list of commands. -/
def commandList : String :=
  "COMMANDS:\n" ++ columns "     " (commands.map commandRow)

/-- The list of flags. -/
def flagList : String :=
  columns "   " (programFlags.map flagRow)

/-- A page starts with the name of its subject. -/
def nameSection (title usage : String) : String :=
  "NAME:\n   " ++ title ++ " - " ++ usage ++ "\n\n"

/-- What the program does. -/
def programUsage : String :=
  "run minimal Lua programs"

/-- The page of the program. -/
def programHelp : String :=
  nameSection "mlua" programUsage ++
    "USAGE:\n   mlua [global options] [command] [files...]\n\n" ++ commandList ++
    "\nGLOBAL OPTIONS:\n" ++ flagList

/-- The page of a command. -/
def commandHelp (c : Command) : String :=
  nameSection c.title c.usage ++ "USAGE:\n   " ++ c.title ++ " " ++ c.arguments ++ "\n"

/-- The page of the command with no name: the program as a command with commands of its own. -/
def listingHelp : String :=
  nameSection "mlua" programUsage ++
    "USAGE:\n   mlua [global options] [command] [files...]\n\n" ++ commandList ++
    "\nOPTIONS:\n" ++ flagList ++ "   \n"

end MiniLua.CommandLine

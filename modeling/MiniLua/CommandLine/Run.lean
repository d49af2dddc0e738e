import MiniLua.CommandLine.Help
import MiniLua.Exec.Run
import MiniLua.Loader
import MiniLua.Syntax.Dump
import MiniLua.Syntax.Layout

/-!
# The command line

The program reads its flags, then a command, then the flags behind the command, and does what the
command says. Without a command it runs the files that are named. Results go to the first stream and
reports to the second; a report may be coloured. Programs may be endless, so each of them gets a
limited number of steps.

## Delivered

- `Report`, `Ending`: what is written, and how it ends.
- `Options`: what the flags before the command say.
- `runPrograms`, `checkPrograms`, `showTokens`, `showTree`, `showLayout`: the commands.
- `executeWithin`: all of it, from the arguments to the report.
- `execute`: the same, with a limit that no real program meets.
-/

set_option autoImplicit false

namespace MiniLua.CommandLine

/-- How the work ends. -/
inductive Ending where
  /-- The work is done. -/
  | done
  /-- Something failed, and it was reported. -/
  | reported
  /-- Something failed, and it is still to be reported. -/
  | failed (message : String)
  /-- The program leaves at once. -/
  | left (code : Nat) (message : String)
  | crashed (fault : Fault)
  | unfinished

/-- What is written to the two streams, and how the work ends. -/
structure Report where
  out : String := ""
  err : String := ""
  ending : Ending := .done

/-- What the flags before the command say, and if reports are coloured. -/
structure Options where
  manifest : String := ""
  sharedStore : Bool := false
  verbose : Bool := false
  colored : Bool := false

/-! ## Colours -/

/-- A text in a colour. -/
def paint (colored : Bool) (code text : String) : String :=
  if colored then "\x1b[" ++ code ++ "m" ++ text ++ "\x1b[0m" else text

/-- The line of a diagnostic. -/
def diagnosticLine (colored : Bool) (d : Diagnostic) : String :=
  paint colored "31" d.describe ++ "\n"

/-- The line of a failure that nobody has reported. -/
def errorLine (colored : Bool) (message : String) : String :=
  paint colored "31" ("error: " ++ message ++ "\n")

/-- The line before a unit. -/
def headerLine (colored : Bool) (u : LoadedUnit) : String :=
  paint colored "36" ("== " ++ u.name ++ " (" ++ u.path ++ ")\n")

/-! ## Commands on programs -/

/-- The manifest that is looked for when none is named. -/
def manifestName : String := "mlua.yml"

/-- The file to look for does not exist. -/
def isMissing (w : World) (path : String) : Bool :=
  match w.file path with
  | .error .missing => true
  | _ => false

/-- The manifest that the options name, or the one in the working directory. -/
def manifestOf (w : World) (o : Options) : Except String Manifest :=
  if o.manifest = "" && isMissing w manifestName then
    .error ("no source files given and " ++ manifestName ++ " not found")
  else
    let path := if o.manifest = "" then manifestName else o.manifest
    (Manifest.load w path).mapError fun f => "failed to load manifest: " ++ f.text

/-- The sources to work on, and if they share their variables: the files that are named, or the
programs of the manifest. -/
def sourcesOf (w : World) (o : Options) (files : List String) :
    Except String (List Source × Bool) :=
  if files.isEmpty then (manifestOf w o).map fun m => (m.sources, m.sharedStore)
  else .ok (files.map fun path => .file { path := path }, false)

/-- What an event of a batch writes. -/
def eventText (o : Options) : BatchEvent → String × String
  | .before u => ("", if o.verbose then headerLine o.colored u else "")
  | .printed value => (printedLine value, "")
  | .result r =>
    match r.diagnostic? with
    | some d => ("", diagnosticLine o.colored d)
    | none =>
      ("", if o.verbose then "store: " ++ Store.snapshotText (r.snapshot.getD []) ++ "\n" else "")

/-- The report of a batch. -/
def traceReport (o : Options) (t : Trace) : Report :=
  let texts := t.events.map (eventText o)
  { out := String.join (texts.map Prod.fst), err := String.join (texts.map Prod.snd)
    ending := match t.ending with
      | .crashed fault => .crashed fault
      | .unfinished => .unfinished
      | .complete => if t.anyFailed then .reported else .done }

/-- Run the programs of units in order, with at most `limit` steps each. -/
def runUnits (limit : Nat) (o : Options) (shared : Bool) (units : List LoadedUnit) : Report :=
  traceReport o (Batch.runWithin limit .always shared (units.map some) .fresh)

/-- Run programs in order. -/
def runPrograms (limit : Nat) (w : World) (o : Options) (files : List String) : Report :=
  match sourcesOf w o files with
  | .error message => { ending := .failed message }
  | .ok (sources, shared) =>
    let cache := ProgramCache.make ProgramCache.defaultCapacity
    let units := (loadAll w false (some cache) (sources.map some)).1
    runUnits limit o (shared || o.sharedStore) units

/-- The line for a unit that is checked. -/
def checkText (o : Options) (u : LoadedUnit) : String × String :=
  match u.failure with
  | some f => ("", diagnosticLine o.colored (f.diagnostic u.path))
  | none => ("ok " ++ u.path ++ "\n", "")

/-- Load programs without running them. -/
def checkPrograms (w : World) (o : Options) (files : List String) : Report :=
  match sourcesOf w o files with
  | .error message => { ending := .failed message }
  | .ok (sources, _) =>
    let units := (loadAll w false none (sources.map some)).1
    let texts := units.map (checkText o)
    { out := String.join (texts.map Prod.fst), err := String.join (texts.map Prod.snd)
      ending := if units.any fun u => u.failure.isSome then .reported else .done }

/-! ## Commands on one file -/

/-- The failure to get a program from a file. -/
def reportFailure (o : Options) (path : String) (f : Failure) : Report :=
  { err := diagnosticLine o.colored (f.diagnostic path), ending := .reported }

/-- The tokens of a file. A directory can be opened, and fails when it is read. -/
def tokensOf? (w : World) (path : String) : Except Failure (Except ReadError TokenQueue) :=
  match w.file path with
  | .ok content => .ok (TokenQueue.ofReader { content := content })
  | .error .isDirectory =>
    .ok (TokenQueue.ofReader
      { content := [], failure := some (FileError.failure path .isDirectory).text })
  | .error e => .error (e.failure path)

/-- Print the tokens of a file. -/
def showTokens (w : World) (o : Options) (path : String) : Report :=
  match tokensOf? w path with
  | .error f => { ending := .failed f.text }
  | .ok (.error e) => reportFailure o path e.failure
  | .ok (.ok q) => { out := String.join (q.tokens.map fun t => t.text ++ "\n") }

/-- Report on the program in a file. -/
def showProgram (render : String → Program → Report) (w : World) (o : Options) (path : String) :
    Report :=
  match w.file path with
  | .error e => { ending := .failed (e.failure path).text }
  | .ok content =>
    match Program.ofBytes? content with
    | .error e => reportFailure o path e.failure
    | .ok p => render path p

/-- Print the tree of the program in a file. -/
def showTree : World → Options → String → Report :=
  showProgram fun path p =>
    match p.dump? with
    | .ok text => { out := text ++ "\n" }
    | .error problem => { ending := .failed (path ++ ": encode ast: " ++ problem) }

/-- Print the program in a file in its canonical layout. -/
def showLayout : World → Options → String → Report :=
  showProgram fun _ p => { out := p.text }

/-- A command on exactly one file. -/
def onOneFile (c : Command) (action : String → Report) (args : List String) : Report :=
  match args with
  | [path] => action path
  | _ => { ending := .failed (c.name ++ " requires exactly one file") }

/-! ## The program -/

/-- The version of the program. -/
def versionText : String := "mlua 0.1.0-dev"

/-- The help on a topic. -/
def helpOn (topic : String) : Report :=
  if topic = "" then { out := listingHelp }
  else
    match findCommand? topic with
    | some c => { out := commandHelp c }
    | none => { ending := .left 3 ("No help topic for '" ++ topic ++ "'") }

/-- Do what a command says. -/
def perform (limit : Nat) (w : World) (o : Options) (args : List String) : Command → Report
  | .run => runPrograms limit w o args
  | .check => checkPrograms w o args
  | .tokens => onOneFile .tokens (showTokens w o) args
  | .ast => onOneFile .ast (showTree w o) args
  | .fmt => onOneFile .fmt (showLayout w o) args
  | .version => { out := versionText ++ "\n" }
  | .help =>
    match args with
    | [] => { out := programHelp }
    | topic :: _ => helpOn topic

/-- An argument that looks like a flag. -/
def looksLikeFlag (arg : String) : Bool :=
  arg ≠ "-" && arg.toList.head? = some '-'

/-- The arguments behind a command with the flags in front: from the first flag on up to a
terminator, then the plain ones before it, then the terminator and what follows it. -/
def flagsFirst (args : List String) : List String :=
  let front := args.takeWhile (· ≠ "--")
  let closed := args.drop front.length
  let plain := front.takeWhile fun arg => !looksLikeFlag arg
  front.drop plain.length ++ (plain ++ closed)

/-- A command with the arguments behind it. -/
def runCommand (limit : Nat) (w : World) (o : Options) (c : Command) (args : List String) :
    Report :=
  let (values, rest) := readFlags commandFlags [] (flagsFirst args)
  match twoForms? commandFlags values with
  | some e => { out := e.text ++ "\n\n" ++ commandHelp c, ending := .failed e.text }
  | none =>
    match rest with
    | .error e =>
      { out := "Incorrect Usage: " ++ e.text ++ "\n\n" ++ commandHelp c, ending := .failed e.text }
    | .ok args =>
      if values.isOn helpFlag then { out := commandHelp c } else perform limit w o args c

/-- A command when the first argument names one, else a run of the files that are named. -/
def dispatch (limit : Nat) (w : World) (o : Options) (args : List String) : Report :=
  match args.head?.bind findCommand? with
  | some c => runCommand limit w o c (args.drop 1)
  | none => runPrograms limit w o args

/-- The options that flags give. -/
def optionsOf (colored : Bool) (values : FlagValues) : Options :=
  { manifest := (values.get? manifestFlag).getD ""
    sharedStore := values.isOn sharedStoreFlag
    verbose := values.isOn verboseFlag
    colored := colored && !values.isOn noColorFlag }

/-- The report of the whole program before its last failure is written. Colours are as given until
the flags have been read. -/
def interpret (limit : Nat) (w : World) (colored : Bool) (args : List String) : Report × Bool :=
  let (values, rest) := readFlags programFlags [] args
  match twoForms? programFlags values with
  | some e => ({ out := e.text ++ "\n" ++ programHelp, ending := .failed e.text }, colored)
  | none =>
    match rest with
    | .error e =>
      ({ out := "Incorrect Usage. " ++ e.text ++ "\n\n" ++ programHelp, ending := .failed e.text },
        colored)
    | .ok args =>
      if values.isOn helpFlag then ({ out := programHelp }, colored)
      else
        let o := optionsOf colored values
        (dispatch limit w o args, o.colored)

/-- The report with the last failure written, when it is still to be reported. -/
def Report.closed (colored : Bool) (r : Report) : Report :=
  match r.ending with
  | .failed message => { r with err := r.err ++ errorLine colored message }
  | .left _ message => { r with err := r.err ++ message ++ "\n" }
  | _ => r

/-- The report of the whole program, in which every program that it runs gets at most `limit`
steps. -/
def executeWithin (limit : Nat) (w : World) (colored : Bool) (args : List String) : Report :=
  let (r, colored) := interpret limit w colored args
  r.closed colored

/-- The report of the whole program. -/
def execute (w : World) (colored : Bool) (args : List String) : Report :=
  executeWithin patience w colored args

/-- The status that the program ends with. A crash has none of its own. -/
def Report.status? (r : Report) : Option Nat :=
  match r.ending with
  | .done => some 0
  | .reported => some 1
  | .failed _ => some 1
  | .left code _ => some code
  | .crashed _ => none
  | .unfinished => none

end MiniLua.CommandLine

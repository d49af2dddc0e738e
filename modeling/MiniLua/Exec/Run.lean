import MiniLua.Exec.Eval

/-!
# Runs

A run works off a list of statements. A step takes the first statement: it changes a variable,
writes a number, or puts the statements of a branch or of a loop body in front of the rest. A loop
that goes on puts itself behind its body, so the list is the whole memory of the run beside its
variables.

A number is written to a sink, which takes or refuses each write by its number. A refused write stops
the run.

Runs may be endless, so `run` counts its steps down and tells a run that is not over yet from one
that has ended.

## Delivered

- `Sink`, `Sink.always`, `Sink.closingAt`: what becomes of each write.
- `Machine`: the variables, what was printed, and the number of writes.
- `step`, `run`, `Outcome`: one step, at most `n` steps, and how they end.
- `Program.execute`, `Block.execute`, `Stmt.execute`: runs with a limit that no real run meets.
-/

set_option autoImplicit false

namespace MiniLua

/-- What becomes of each write, numbered from one: `none` takes it, and `some reason` refuses
it. -/
structure Sink where
  reply : Nat → Option String

/-- The sink that takes every write. -/
def Sink.always : Sink :=
  ⟨fun _ => none⟩

/-- The sink that refuses write number `n` and all later ones; for `n = 0` it takes every write. -/
def Sink.closingAt (n : Nat) (reason : String) : Sink :=
  ⟨fun k => if n ≠ 0 ∧ n ≤ k then some reason else none⟩

/-- The state of a run beside the statements that are left. -/
structure Machine where
  store : Store
  printed : Array Int32 := #[]
  writes : Nat := 0

/-- The machine before a first run. -/
def Machine.fresh : Machine :=
  { store := .empty }

/-- One printed number is one line. -/
def printedLine (value : Int32) : String :=
  String.ofList (Text.decimal value.toInt ++ ['\n'])

/-- The text of printed numbers. -/
def printedText (values : Array Int32) : String :=
  String.join (values.toList.map printedLine)

/-- What one step leads to. -/
inductive Step where
  | halt (m : Machine)
  | next (todo : List Stmt) (m : Machine)
  | stop (fault : Fault) (m : Machine)

/-- A write to the sink, before the statements that are left. -/
def write (sink : Sink) (value : Int32) (todo : List Stmt) (m : Machine) : Step :=
  match sink.reply (m.writes + 1) with
  | none => .next todo { m with printed := m.printed.push value, writes := m.writes + 1 }
  | some reason => .stop (.refusedWrite reason) { m with writes := m.writes + 1 }

/-- One step of a run. -/
def step (sink : Sink) : List Stmt → Machine → Step
  | [], m => .halt m
  | .missing :: _, m => .stop .missingStmt m
  | .assign target value _ :: todo, m =>
    match value.eval m.store with
    | .error f => .stop f m
    | .ok v =>
      match m.store.assign target.letter v with
      | .error cause => .stop (.misuse cause) m
      | .ok store => .next todo { m with store := store }
  | .print value _ :: todo, m =>
    match value.eval m.store with
    | .error f => .stop f m
    | .ok v => write sink v todo m
  | .branch cond onTrue onFalse _ :: todo, m =>
    match cond.holds m.store with
    | .error f => .stop f m
    | .ok true => .next (onTrue.stmts ++ todo) m
    | .ok false => .next (onFalse.stmts ++ todo) m
  | .loopWhile cond body bare :: todo, m =>
    match cond.holds m.store with
    | .error f => .stop f m
    | .ok true => .next (body.stmts ++ .loopWhile cond body bare :: todo) m
    | .ok false => .next todo m
  | .loopUntil body cond bare :: todo, m =>
    .next (body.stmts ++ .branch cond (.seq []) (.seq [.loopUntil body cond bare]) :: todo) m

/-- How a run of a limited number of steps ends. -/
inductive Outcome where
  | done (m : Machine)
  | stopped (fault : Fault) (m : Machine)
  | unfinished (todo : List Stmt) (m : Machine)

/-- At most `limit` steps. -/
def run (sink : Sink) : (limit : Nat) → List Stmt → Machine → Outcome
  | 0, todo, m => .unfinished todo m
  | limit + 1, todo, m =>
    match step sink todo m with
    | .halt m' => .done m'
    | .next todo' m' => run sink limit todo' m'
    | .stop fault m' => .stopped fault m'

/-- A number of steps that takes longer than any machine lasts. -/
def patience : Nat := 4611686018427387904

/-- A run of a list of statements to its end. -/
def execute (sink : Sink) (stmts : List Stmt) (m : Machine) : Outcome :=
  run sink patience stmts m

/-- A run of a single statement. -/
def Stmt.execute (sink : Sink) (s : Stmt) (m : Machine) : Outcome :=
  MiniLua.execute sink [s] m

/-- A run of a block. -/
def Block.execute (sink : Sink) (b : Block) (m : Machine) : Outcome :=
  MiniLua.execute sink b.stmts m

/-- A run of the body of a program. -/
def Program.execute (sink : Sink) (p : Program) (m : Machine) : Outcome :=
  p.body.execute sink m

/-- The machine at the end of a run. -/
def Outcome.machine : Outcome → Machine
  | .done m => m
  | .stopped _ m => m
  | .unfinished _ m => m

/-- The fault that stopped a run. -/
def Outcome.fault? : Outcome → Option Fault
  | .stopped fault _ => some fault
  | _ => none

end MiniLua

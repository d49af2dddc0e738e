import MiniLua.Diagnostic
import MiniLua.Exec.Run
import MiniLua.Text.Bytes

/-!
# Batches

A batch runs loaded units one after the other on one sink. Every unit starts with all variables
zero, unless the units share them. A unit without a program is passed over and reported; later
units still run. A crash ends the batch at once.

## Delivered

- `LoadedUnit`: a program, or the failure to get one.
- `UnitResult`, `BatchEvent`, `Trace`: what a batch does, in order.
- `Batch.runWithin`: the trace of a batch whose programs get a limited number of steps each.
- `Batch.run`: the trace of a batch, with a limit that no real program meets.
-/

set_option autoImplicit false

namespace MiniLua

/-- What came of loading one source. -/
structure LoadedUnit where
  name : String := ""
  path : String := ""
  text : Bytes := []
  program : Option Program := none
  cached : Bool := false
  failure : Option Failure := none

/-- What came of one unit. A unit that was passed over has no variables to show. -/
structure UnitResult where
  name : String
  path : String
  failure : Option Failure
  snapshot : Option (List (UInt8 × Int32))

namespace UnitResult

/-- The unit could not be loaded or did not run to its end. -/
def failed (r : UnitResult) : Bool :=
  r.failure.isSome

/-- The unit was passed over. -/
def skipped (r : UnitResult) : Bool :=
  r.snapshot.isNone

/-- The report of a failed unit. -/
def diagnostic? (r : UnitResult) : Option Diagnostic :=
  r.failure.map fun f => f.diagnostic r.path

end UnitResult

/-- What happens in a batch. -/
inductive BatchEvent where
  /-- A unit is about to run. -/
  | before (unit : LoadedUnit)
  /-- A number is printed. -/
  | printed (value : Int32)
  /-- A unit is done. -/
  | result (result : UnitResult)

/-- How a batch ends. -/
inductive Ending where
  | complete
  | crashed (fault : Fault)
  | unfinished

/-- The events of a batch, in order, and its ending. -/
structure Trace where
  events : List BatchEvent
  ending : Ending

namespace Trace

/-- The trace with more events in front. -/
def after (events : List BatchEvent) (t : Trace) : Trace :=
  { t with events := events ++ t.events }

/-- The results of the units, in order. -/
def results (t : Trace) : List UnitResult :=
  t.events.filterMap fun
    | .result r => some r
    | _ => none

/-- Some unit failed. -/
def anyFailed (t : Trace) : Bool :=
  t.results.any UnitResult.failed

/-- The numbers that were printed, in order. -/
def output (t : Trace) : List Int32 :=
  t.events.filterMap fun
    | .printed value => some value
    | _ => none

end Trace

/-- The failure of a unit that is passed over. -/
def LoadedUnit.skipFailure (u : LoadedUnit) : Failure :=
  u.failure.getD (.plain (u.name ++ ": no program"))

/-- The program of a unit that can run. -/
def LoadedUnit.runnable? (u : LoadedUnit) : Option Program :=
  if u.failure.isSome then none else u.program

/-- The result of a unit that is passed over. -/
def LoadedUnit.skip (u : LoadedUnit) : UnitResult :=
  { name := u.name, path := u.path, failure := some u.skipFailure, snapshot := none }

/-- The events of a unit that has started, up to its end. -/
def LoadedUnit.started (u : LoadedUnit) (m : Machine) : List BatchEvent :=
  .before u :: m.printed.toList.map .printed

/-- The result of a unit that has run. -/
def LoadedUnit.ran (u : LoadedUnit) (fault : Option Fault) (m : Machine) : UnitResult :=
  { name := u.name, path := u.path, failure := fault.map Fault.failure
    snapshot := some m.store.snapshot }

namespace Batch

/-- The machine on which the next unit starts. -/
def prepare (shared : Bool) (m : Machine) : Machine :=
  { m with store := if shared then m.store else .empty, printed := #[] }

/-- The trace of a batch in which every program gets at most `limit` steps. Units that are left out
do not count. -/
def runWithin (limit : Nat) (sink : Sink) (shared : Bool) :
    List (Option LoadedUnit) → Machine → Trace
  | [], _ => ⟨[], .complete⟩
  | none :: units, m => runWithin limit sink shared units m
  | some u :: units, m =>
    match u.runnable? with
    | none => (runWithin limit sink shared units m).after [.result u.skip]
    | some p =>
      match MiniLua.run sink limit p.body.stmts (prepare shared m) with
      | .done m' =>
        (runWithin limit sink shared units m').after (u.started m' ++ [.result (u.ran none m')])
      | .stopped fault m' =>
        if fault.crashes then ⟨u.started m', .crashed fault⟩
        else (runWithin limit sink shared units m').after
          (u.started m' ++ [.result (u.ran (some fault) m')])
      | .unfinished _ m' => ⟨u.started m', .unfinished⟩

/-- The trace of a batch. -/
def run (sink : Sink) (shared : Bool) (units : List (Option LoadedUnit)) (m : Machine) : Trace :=
  runWithin patience sink shared units m

end Batch
end MiniLua

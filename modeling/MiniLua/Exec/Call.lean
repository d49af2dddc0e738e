import MiniLua.Exec.Run

/-!
# Calls with parts left out

A caller may hand over a tree without a store, or no tree at all. Such calls are refused before
anything is computed. All other calls run the tree in the way of its type: expressions and
conditions give a value, the other trees run.

## Delivered

- `refusal?`: the fault of a call with parts left out.
- `Node.perform`: the value and the outcome of a call that has all its parts.
-/

set_option autoImplicit false

namespace MiniLua

/-- The value that a call gives back. -/
inductive CallValue where
  | none
  | truth (b : Bool)
  | word (n : Int32)

/-- The fault of a call that lacks its program or its store. A missing condition is found before a
missing store, and a missing program before both. -/
def refusal? (tree : Option Node) (hasStore : Bool) : Option Fault :=
  match tree, hasStore with
  | none, _ => some (.misuse ⟨"execute", "null program argument"⟩)
  | some (.cond .missing), _ => some .missingCond
  | some (.cond _), false => some (.misuse ⟨"evaluate", "null store argument"⟩)
  | some (.expr _), false => some (.misuse ⟨"evaluate", "null store argument"⟩)
  | some _, false => some (.misuse ⟨"execute", "null store argument"⟩)
  | some _, true => none

/-- The value of a tree that gives none because of a fault. -/
def Node.noValue : Node → CallValue
  | .expr _ => .word 0
  | .cond _ => .truth false
  | _ => .none

/-- A call that has all its parts. -/
def Node.perform (sink : Sink) (tree : Node) (m : Machine) : CallValue × Outcome :=
  match tree with
  | .expr e =>
    match e.eval m.store with
    | .ok v => (.word v, .done m)
    | .error f => (tree.noValue, .stopped f m)
  | .cond c =>
    match c.holds m.store with
    | .ok b => (.truth b, .done m)
    | .error f => (tree.noValue, .stopped f m)
  | .stmt s => (.none, s.execute sink m)
  | .block b => (.none, b.execute sink m)
  | .program p => (.none, p.execute sink m)

end MiniLua

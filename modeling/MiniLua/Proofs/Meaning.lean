import MiniLua.Proofs.Behaviour
import MiniLua.Proofs.RoundTrip

/-!
# Texts mean what their trees mean

The text of a tree spells another tree when it has negative literals: these become subtractions, and
the least literal a nested one. A word is computed exactly, so the spelled expressions have the values
of the literals. Every step of a run of the spelled statements then mirrors a step of a run of the
tree, on the same machine, and the two runs cannot be told apart on any sink: not when a write is
refused, not when a divisor is zero, and not when they never end.

## Delivered

- `literalTree_eval`, `Expr.eval_desugar`, `Cond.holds_desugar`: spelled expressions and conditions
  have the same values.
- `step_desugar`: one step of the spelled statements.
- `run_desugar`: any number of steps.
-/

set_option autoImplicit false

namespace MiniLua

/-! ## Values -/

/-- The expression that the text of a literal spells has the value of the literal. -/
theorem literalTree_eval (s : Store) (value : Int32) : (literalTree value).eval s = .ok value := by
  unfold literalTree
  by_cases hpos : 0 ≤ value.toInt
  · rw [if_pos hpos]
    rfl
  · rw [if_neg hpos]
    by_cases hmin : value.toInt = -2147483648
    -- the least word is not the opposite of a literal, so one is subtracted from its successor
    · rw [if_pos hmin]
      have hvalue : value = (0 - 2147483647) - 1 := Int32.toInt_inj.1 hmin
      rw [hvalue]
      rfl
    · rw [if_neg hmin]
      have hvalue : (0 : Int32) - -value = value := by
        rw [Int32.zero_sub, Int32.neg_neg]
      simp only [Expr.eval, ArithOp.apply, hvalue]

/-- A spelled expression has the value of the expression, or the same fault. -/
theorem Expr.eval_desugar (s : Store) (e : Expr) : e.desugar.eval s = e.eval s := by
  induction e with
  | missing => rfl
  | var x => rfl
  | lit value => exact literalTree_eval s value
  | binary op left right bare ihl ihr => simp only [Expr.desugar, Expr.eval, ihl, ihr]

/-- A spelled condition has the truth of the condition, or the same fault. -/
theorem Cond.holds_desugar (s : Store) (c : Cond) : c.desugar.holds s = c.holds s := by
  cases c with
  | missing => rfl
  | compare op left right bare =>
    simp only [Cond.desugar, Cond.holds, Expr.eval_desugar]

/-! ## Steps -/

/-- Statements one after the other are spelled one after the other. -/
theorem desugarAll_append (stmts stmts' : List Stmt) :
    desugarAll (stmts ++ stmts') = desugarAll stmts ++ desugarAll stmts' := by
  induction stmts with
  | nil => rw [desugarAll, List.nil_append, List.nil_append]
  | cons s stmts ih => rw [List.cons_append, desugarAll, desugarAll, ih, List.cons_append]

/-- The statements of a spelled block. -/
theorem Block.stmts_desugar (b : Block) : b.desugar.stmts = desugarAll b.stmts := by
  cases b with
  | missing => simp only [Block.desugar, Block.stmts, desugarAll]
  | seq stmts bare => simp only [Block.desugar, Block.stmts]

/-- The statements of a block in front of others, spelled. -/
theorem desugarAll_append_stmts (b : Block) (todo : List Stmt) :
    desugarAll (b.stmts ++ todo) = b.desugar.stmts ++ desugarAll todo := by
  rw [desugarAll_append, Block.stmts_desugar]

/-- The first list is how the second is spelled. -/
def IsSpelling (todo' todo : List Stmt) : Prop :=
  todo' = desugarAll todo

/-- An assignment leads on to the statements that are left, spelled or not. -/
theorem assignStep_desugar (letter : UInt8) (value : Int32) (todo : List Stmt) (m : Machine) :
    Step.Alike IsSpelling Eq (assignStep letter value (desugarAll todo) m)
      (assignStep letter value todo m) := by
  unfold assignStep
  cases m.store.assign letter value with
  | error cause => exact .stop _ rfl
  | ok store => exact .next rfl rfl

/-- A write leads on to the statements that are left, spelled or not. -/
theorem write_desugar (sink : Sink) (value : Int32) (todo : List Stmt) (m : Machine) :
    Step.Alike IsSpelling Eq (write sink value (desugarAll todo) m) (write sink value todo m) := by
  unfold write
  cases sink.reply (m.writes + 1) with
  | none => exact .next rfl rfl
  | some reason => exact .stop _ rfl

/-- A step of the spelled statements does what a step of the statements does, and leaves the
spelling of what that one leaves. -/
theorem step_desugar (sink : Sink) (todo : List Stmt) (m : Machine) :
    Step.Alike IsSpelling Eq (step sink (desugarAll todo) m) (step sink todo m) := by
  cases todo with
  | nil =>
    rw [desugarAll]
    exact .halt rfl
  | cons stmt todo =>
    rw [desugarAll]
    cases stmt with
    | missing =>
      rw [Stmt.desugar]
      exact .stop _ rfl
    | assign target value bare =>
      rw [Stmt.desugar, step_assign, step_assign, Expr.eval_desugar]
      exact .after rfl _ fun v => assignStep_desugar target.letter v todo m
    | print value bare =>
      rw [Stmt.desugar, step_print, step_print, Expr.eval_desugar]
      exact .after rfl _ fun v => write_desugar sink v todo m
    | branch cond onTrue onFalse bare =>
      rw [Stmt.desugar, step_branch, step_branch, Cond.holds_desugar]
      apply Step.Alike.after rfl
      intro holds
      refine .next ?_ rfl
      cases holds with
      | true => exact (desugarAll_append_stmts onTrue todo).symm
      | false => exact (desugarAll_append_stmts onFalse todo).symm
    | loopWhile cond body bare =>
      rw [Stmt.desugar, step_loopWhile, step_loopWhile, Cond.holds_desugar]
      apply Step.Alike.after rfl
      intro holds
      refine .next ?_ rfl
      cases holds with
      | true =>
        -- the loop stands behind its body again, and is spelled there as it was
        show body.desugar.stmts ++ _ = desugarAll (body.stmts ++ _)
        rw [desugarAll_append_stmts, desugarAll, Stmt.desugar]
      | false => rfl
    | loopUntil body cond bare =>
      rw [Stmt.desugar, step_loopUntil, step_loopUntil]
      refine .next ?_ rfl
      -- the test behind the body is a branch, and is spelled like any other
      show _ = desugarAll _
      simp only [desugarAll_append_stmts, desugarAll, Stmt.desugar, Block.desugar]

/-! ## Runs -/

/-- A run of the spelled statements is on the machine of a run of the statements, at every limit. -/
theorem run_desugar (sink : Sink) (n : Nat) (todo : List Stmt) (m : Machine) :
    Outcome.Alike Eq (run sink n (desugarAll todo) m) (run sink n todo m) := by
  refine run_alike (T := IsSpelling) ?_ rfl rfl n
  rintro todo' todo m' m rfl rfl
  exact step_desugar sink todo m'

/-- The text of every program that the constructors build is read as a program of the same
behaviour, from every machine and on every sink: it prints the same, and it ends on the same machine,
stops there with the same fault, or never ends. Runs that are cut short agree as well. -/
theorem Program.sameBehaviour_ofBytes?_text {p : Program} (hp : p.Built) :
    ∃ q, Program.ofBytes? (Text.encode p.text) = .ok q ∧ ∀ (sink : Sink) (m : Machine),
      SameBehaviour sink q.body.stmts p.body.stmts m ∧
        Outcome.Alike Eq (q.execute sink m) (p.execute sink m) := by
  have hbody : p.desugar.body.stmts = desugarAll p.body.stmts := Block.stmts_desugar p.body
  refine ⟨p.desugar,
    Program.ofBytes?_text_of_isWellFormed (Program.built_iff_isWellFormed.1 hp), ?_⟩
  intro sink m
  constructor
  · rw [hbody]
    exact sameBehaviour_of_alike fun n => run_desugar sink n p.body.stmts m
  · rw [Program.execute, Block.execute, hbody]
    exact run_desugar sink patience p.body.stmts m

/-- The count, read from its text, ends in the same crash, and on a sink that closes in between it
is refused the same write. -/
theorem Program.sameBehaviour_countUp :
    countUp.Built ∧ ∃ q, Program.ofBytes? (Text.encode countUp.text) = .ok q ∧
      (∃ m, Behaves .always q.body.stmts .fresh (.stops .divideByZero m) ∧
        m.printed = #[-2, -1]) ∧
      ∃ m, Behaves (.closingAt 2 "full") q.body.stmts .fresh (.stops (.refusedWrite "full") m) ∧
        m.printed = #[-2] := by
  have hbuilt : countUp.Built := Program.built_iff_isWellFormed.2 rfl
  have hcrash : ∃ m, (run .always 9 countUp.body.stmts .fresh).behaviour? =
      some (.stops .divideByZero m) ∧ m.printed = #[-2, -1] := ⟨_, rfl, rfl⟩
  have hrefused : ∃ m, (run (.closingAt 2 "full") 6 countUp.body.stmts .fresh).behaviour? =
      some (.stops (.refusedWrite "full") m) ∧ m.printed = #[-2] := ⟨_, rfl, rfl⟩
  obtain ⟨q, hread, hsame⟩ := Program.sameBehaviour_ofBytes?_text hbuilt
  obtain ⟨m, hm, hprinted⟩ := hcrash
  obtain ⟨m', hm', hprinted'⟩ := hrefused
  refine ⟨hbuilt, q, hread, ⟨m, ?_, hprinted⟩, m', ?_, hprinted'⟩
  · exact ((hsame .always .fresh).1.behaves _).2 (.settles hm)
  · exact ((hsame (.closingAt 2 "full") .fresh).1.behaves _).2 (.settles hm')

end MiniLua

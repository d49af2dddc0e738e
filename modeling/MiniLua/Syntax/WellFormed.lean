import MiniLua.Syntax.Checked

/-!
# Well-formed trees

A tree is well formed when every node in it has passed the checks of its constructor: nothing is
missing, every operator is one, and every name is a letter. Literals may have any value, also one
that no program text can spell, and a program may be without a name.

## Delivered

- `Expr.isWellFormed`, `Cond.isWellFormed`, `Stmt.isWellFormed`, `Block.isWellFormed`,
  `Program.isWellFormed`, `Node.isWellFormed`: the predicate on the trees.
- `Expr.isWellFormed_of_binary?` and its companions: a constructor that accepts well-formed parts
  gives a well-formed tree.
-/

set_option autoImplicit false

namespace MiniLua

/-- The name is a letter and has passed its check. -/
def Ident.isWellFormed (x : Ident) : Bool :=
  isVariable x.letter && !x.bare

/-- Every part of the expression has passed its check. -/
def Expr.isWellFormed : Expr → Bool
  | .missing => false
  | .var x => x.isWellFormed
  | .lit _ => true
  | .binary op left right bare => op.isValid && left.isWellFormed && right.isWellFormed && !bare

/-- Every part of the condition has passed its check. -/
def Cond.isWellFormed : Cond → Bool
  | .missing => false
  | .compare op left right bare => op.isValid && left.isWellFormed && right.isWellFormed && !bare

mutual

/-- Every part of the statement has passed its check. -/
def Stmt.isWellFormed : Stmt → Bool
  | .missing => false
  | .assign target value bare => target.isWellFormed && value.isWellFormed && !bare
  | .print value bare => value.isWellFormed && !bare
  | .branch cond onTrue onFalse bare =>
    cond.isWellFormed && onTrue.isWellFormed && onFalse.isWellFormed && !bare
  | .loopWhile cond body bare => cond.isWellFormed && body.isWellFormed && !bare
  | .loopUntil body cond bare => body.isWellFormed && cond.isWellFormed && !bare

/-- Every part of the block has passed its check. -/
def Block.isWellFormed : Block → Bool
  | .missing => false
  | .seq stmts bare => areWellFormed stmts && !bare

/-- Every statement of a list is well formed. -/
def areWellFormed : List Stmt → Bool
  | [] => true
  | stmt :: stmts => stmt.isWellFormed && areWellFormed stmts

end

/-- Every part of the program has passed its check. -/
def Program.isWellFormed (p : Program) : Bool :=
  p.name.all Ident.isWellFormed && p.body.isWellFormed && !p.bare

/-- Every part of the tree has passed its check. -/
def Node.isWellFormed : Node → Bool
  | .expr e => e.isWellFormed
  | .cond c => c.isWellFormed
  | .stmt s => s.isWellFormed
  | .block b => b.isWellFormed
  | .program p => p.isWellFormed

/-! ## Constructors keep trees well formed -/

/-- A list of statements is well formed when each of them is. -/
theorem areWellFormed_iff {stmts : List Stmt} :
    areWellFormed stmts = true ↔ ∀ s ∈ stmts, s.isWellFormed = true := by
  induction stmts with
  | nil => simp [areWellFormed]
  | cons s stmts ih => simp [areWellFormed, ih]

/-- An accepted name is well formed. -/
theorem Ident.isWellFormed_of_make? {letter : UInt8} {x : Ident} (h : Ident.make? letter = .ok x) :
    x.isWellFormed = true := by
  unfold Ident.make? at h
  split at h
  · rename_i hv
    cases h
    simp [Ident.isWellFormed, hv]
  · cases h

/-- An operation on well-formed expressions is well formed. -/
theorem Expr.isWellFormed_of_binary? {op : ArithOp} {left right e : Expr}
    (h : Expr.binary? op left right = .ok e) (hl : left.isWellFormed = true)
    (hr : right.isWellFormed = true) : e.isWellFormed = true := by
  unfold Expr.binary? at h
  split at h
  · cases h
  · rename_i hop
    split at h
    · cases h
    · cases h
      simp [Expr.isWellFormed, hl, hr] at hop ⊢
      exact hop

/-- A comparison of well-formed expressions is well formed. -/
theorem Cond.isWellFormed_of_compare? {op : RelOp} {left right : Expr} {c : Cond}
    (h : Cond.compare? op left right = .ok c) (hl : left.isWellFormed = true)
    (hr : right.isWellFormed = true) : c.isWellFormed = true := by
  unfold Cond.compare? at h
  split at h
  · cases h
  · rename_i hop
    split at h
    · cases h
    · cases h
      simp [Cond.isWellFormed, hl, hr] at hop ⊢
      exact hop

end MiniLua

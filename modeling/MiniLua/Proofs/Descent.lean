import MiniLua.Proofs.Canonical
import MiniLua.Proofs.Construction
import MiniLua.Syntax.Descent

/-!
# Descent and machine

The descent over the rules of the grammar and the machine that takes one token at a time read the
same programs and refuse the same tokens with the same messages. Each rule of the grammar mirrors a
stretch of the machine: when the rule gives a tree and the tokens left, the machine comes to use that
tree with these tokens left, whatever is open around it; and when the rule fails, the machine refuses
a token with that failure and leaves the same tokens behind it.

This rests on what is kept from rule to rule. The tokens left always end with the end of the stream,
so they never run out. The trees that were read are well formed, so no constructor refuses them.

## Delivered

- `TokenStream`: classified tokens with the end of the stream behind them.
- `Descent.Mirrors`, `Descent.Mirrors.bind`: a rule and its stretch of the machine, one after the other.
- `Descent.expression_mirrors`, `Descent.condition_mirrors`, `Descent.statementsMirror`: the rules.
- `Descent.program_answers`, `TokenStream.outcome_program`: the descent over a stream is the run of the
  machine, and both leave the same tokens.
-/

set_option autoImplicit false

namespace MiniLua

/-! ## Streams -/

/-- Classified tokens with the end of the stream behind them. -/
inductive TokenStream : List Token → Prop
  | last (lines : Nat) : TokenStream [TokenQueue.endToken lines]
  | cons {t : Token} {ts : List Token} (ht : t.IsClassified) (hts : TokenStream ts) :
      TokenStream (t :: ts)

/-- The tokens of a text are a stream. -/
theorem TokenStream.of_classified {ts : List Token} (h : ∀ t ∈ ts, t.IsClassified) (lines : Nat) :
    TokenStream (ts ++ [TokenQueue.endToken lines]) := by
  induction ts with
  | nil => exact .last lines
  | cons t ts ih =>
    obtain ⟨ht, hts⟩ := List.forall_mem_cons.1 h
    exact .cons ht (ih hts)

/-- A stream has a front token. Unless that is the end of the stream, it is classified and has a stream
behind it. -/
theorem TokenStream.exists_front {ts : List Token} (h : TokenStream ts) :
    ∃ t rest, ts = t :: rest ∧ (t.kind ≠ .endOfStream → t.IsClassified ∧ TokenStream rest) := by
  cases h with
  | last lines => exact ⟨_, [], rfl, fun hk => absurd rfl hk⟩
  | cons ht hts => exact ⟨_, _, rfl, fun _ => ⟨ht, hts⟩⟩

/-- A name that has passed its check passes it again. -/
theorem Ident.make?_of_isWellFormed {x : Ident} (h : x.isWellFormed = true) :
    Ident.make? x.letter = .ok x := by
  obtain ⟨letter, bare⟩ := x
  simp only [Ident.isWellFormed, Bool.and_eq_true, Bool.not_eq_true'] at h
  obtain ⟨hletter, rfl⟩ := h
  rw [Ident.make?, if_pos hletter]

/-- A classified number has a value. -/
theorem Token.IsClassified.exists_natural? {t : Token} (h : t.IsClassified)
    (hk : t.kind = .integer) : ∃ n, Text.natural? t.lexeme.toList = some n := by
  rcases Lexeme.classify_eq_ok_iff.1 h with ⟨-, hne, hdigits⟩ | ⟨hkind, -⟩ | ⟨hmem, -⟩
  · exact ⟨_, if_pos ⟨hne, List.all_eq_true.2 hdigits⟩⟩
  · exact absurd (hk.symm.trans hkind) (by decide)
  · exact absurd hmem (by rw [hk]; decide)

namespace Descent

/-! ## A rule and the machine -/

/-- The result of a rule on tokens mirrors the machine from each of the states `before k`. With a tree
and tokens left, the machine goes on from `after k` of that tree with these tokens. With a failure, the
machine refuses a token with it, and the tokens left are those behind the refused one. -/
inductive Mirrors {κ α : Type} {n : Nat} (good : α → List Token → Prop) (before : κ → ParseState)
    (after : κ → α → ParseState) (ts : List Token) : Except Stop (Taken n α) → Prop
  | ok {a : Taken n α} (hgood : good a.value a.rest) (hrest : TokenStream a.rest)
      (hrun : ∀ k, (before k).run ts = (after k a.value).run a.rest) : Mirrors good before after ts (.ok a)
  | error {x : Expectation} {t : Token} {rest : List Token}
      (hrun : ∀ k, (before k).run ts = (.error (.refused x t), rest)) :
      Mirrors good before after ts (.error ⟨(SyntaxError.refused x t).failure, rest⟩)

section Mirrors

variable {κ ι α β : Type} {n m : Nat} {A : α → List Token → Prop} {B : β → List Token → Prop}
  {before : κ → ParseState} {middle : κ → α → ParseState} {after : κ → β → ParseState}
  {ts : List Token}

/-- One rule after the other. -/
theorem Mirrors.bind {r : Except Stop (Taken n α)} {f : Taken n α → Except Stop (Taken m β)}
    (h : Mirrors A before middle ts r)
    (hf : ∀ a : Taken n α, A a.value a.rest → TokenStream a.rest →
      Mirrors B (fun k => middle k a.value) after a.rest (f a)) :
    Mirrors B before after ts (r >>= f) := by
  cases h with
  | error hrun => exact .error hrun
  | @ok a hgood hrest hrun =>
    -- the machine has come to the state between the two rules and goes on from there
    have hnext := hf a hgood hrest
    change Mirrors B before after ts (f a)
    generalize f a = r at hnext
    cases hnext with
    | error hrun' => exact .error fun k => by rw [hrun k, hrun' k]
    | ok hgood' hrest' hrun' => exact .ok hgood' hrest' fun k => by rw [hrun k, hrun' k]

/-- A rule mirrors the machine from fewer states too. -/
theorem Mirrors.comap {r : Except Stop (Taken n α)} (h : Mirrors A before middle ts r)
    (φ : ι → κ) : Mirrors A (fun i => before (φ i)) (fun i => middle (φ i)) ts r := by
  cases h with
  | error hrun => exact .error fun i => hrun (φ i)
  | ok hgood hrest hrun => exact .ok hgood hrest fun i => hrun (φ i)

end Mirrors

/-! ## Single tokens -/

section Front

variable (t : Token) (rest : List Token)

theorem peek_bind {α : Type} (f : Token → Except Stop α) : (peek (t :: rest) >>= f) = f t :=
  rfl

theorem node_bind {α β : Type} (a : α) (f : α → Except Stop β) :
    (node rest (.ok a) >>= f) = f a :=
  rfl

theorem expect_cons (k : Kind) :
    expect k (t :: rest) = if t.kind = k then .ok ⟨t, rest, Nat.lt_succ_self _⟩
      else .error ⟨(SyntaxError.refused (.kind k) t).failure, rest⟩ :=
  rfl

theorem identifier_cons :
    identifier (t :: rest) =
      if t.kind = .identifier then
        node rest (Ident.make? t.ident.letter) >>= fun x => .ok ⟨x, rest, Nat.lt_succ_self _⟩
      else .error ⟨(SyntaxError.refused (.kind .identifier) t).failure, rest⟩ :=
  rfl

theorem literal_cons {n : Nat} (hk : t.kind = .integer)
    (hn : Text.natural? t.lexeme.toList = some n) :
    literal (t :: rest) =
      if n ≤ maxLiteral then .ok ⟨.lit (Int32.ofNat n), rest, Nat.lt_succ_self _⟩
      else .error ⟨(SyntaxError.refused .smallLiteral t).failure, rest⟩ := by
  show (if t.kind = .integer then _ else _) = _
  rw [if_pos hk, hn]
  rfl

theorem arithmeticOperator_cons :
    arithmeticOperator (t :: rest) =
      match ArithOp.ofKind? t.kind with
      | some op => .ok ⟨op, rest, Nat.lt_succ_self _⟩
      | none => .error ⟨(SyntaxError.refused .arithmeticOperator t).failure, rest⟩ :=
  rfl

theorem relationalOperator_cons :
    relationalOperator (t :: rest) =
      match RelOp.ofKind? t.kind with
      | some op => .ok ⟨op, rest, Nat.lt_succ_self _⟩
      | none => .error ⟨(SyntaxError.refused .relationalOperator t).failure, rest⟩ :=
  rfl

end Front

section Tokens

variable {κ : Type} {ts : List Token}

/-- A token of an expected kind. -/
theorem expect_mirrors (kind : Kind) (before after : κ → ParseState) (hts : TokenStream ts)
    (hkind : kind ≠ .endOfStream)
    (hstep : ∀ k t rest, ts = t :: rest → (before k).step t = ParseState.expect kind t (after k)) :
    Mirrors (fun _ _ => True) before (fun k _ => after k) ts (expect kind ts) := by
  obtain ⟨t, rest, rfl, hrest⟩ := hts.exists_front
  rw [expect_cons]
  by_cases hk : t.kind = kind
  · rw [if_pos hk]
    refine .ok trivial (hrest (hk ▸ hkind)).2 fun k => ?_
    rw [ParseState.run, hstep k t rest rfl, ParseState.expect, if_pos hk]
  · rw [if_neg hk]
    refine .error fun k => ?_
    rw [ParseState.run, hstep k t rest rfl, ParseState.expect, if_neg hk]

/-- A name. -/
theorem identifier_mirrors (before : κ → ParseState) (after : κ → Ident → ParseState)
    (hts : TokenStream ts)
    (hstep : ∀ k t rest, ts = t :: rest →
      (before k).step t = ParseState.expect .identifier t (after k t.ident)) :
    Mirrors (fun x _ => x.isWellFormed = true) before after ts (identifier ts) := by
  obtain ⟨t, rest, rfl, hrest⟩ := hts.exists_front
  rw [identifier_cons]
  by_cases hk : t.kind = .identifier
  · obtain ⟨hclass, hstream⟩ := hrest (by rw [hk]; decide)
    -- the letter of a classified name is one, so its constructor takes it
    have hname := (hclass.ident_spec hk).1
    rw [if_pos hk, Ident.make?_of_isWellFormed hname, node_bind]
    refine .ok hname hstream fun k => ?_
    rw [ParseState.run, hstep k t rest rfl, ParseState.expect, if_pos hk]
  · rw [if_neg hk]
    refine .error fun k => ?_
    rw [ParseState.run, hstep k t rest rfl, ParseState.expect, if_neg hk]

/-- The operator in front of a condition. -/
theorem relationalOperator_mirrors (hts : TokenStream ts) :
    Mirrors (fun op _ => op.isValid = true)
      (fun k : CondUse × Spine => .relation k.1 k.2)
      (fun k op => .operand [] (.compareLeft k.1 op) k.2) ts (relationalOperator ts) := by
  obtain ⟨t, rest, rfl, hrest⟩ := hts.exists_front
  rw [relationalOperator_cons]
  cases hop : RelOp.ofKind? t.kind with
  | none =>
    refine .error fun k => ?_
    rw [ParseState.run, ParseState.step, hop]
  | some op =>
    have hkind : t.kind ≠ .endOfStream := by
      intro hk
      rw [hk] at hop
      cases hop
    refine .ok (RelOp.ofKind?_spec hop).2.2 (hrest hkind).2 fun k => ?_
    rw [ParseState.run, ParseState.step, hop]

end Tokens

/-! ## Expressions -/

/-- What is open around an expression. -/
structure Around where
  holes : List Hole
  goal : Goal
  spine : Spine

/-- The machine before an expression. -/
def Around.before (c : Around) : ParseState :=
  .operand c.holes c.goal c.spine

/-- The machine after an expression. -/
def Around.after (c : Around) (e : Expr) : ParseState :=
  ParseState.supply e c.holes c.goal c.spine

section Expressions

variable {t : Token} {ts rest : List Token}

/-- A literal, at a number. -/
theorem literal_mirrors (hk : t.kind = .integer) (ht : t.IsClassified) (hrest : TokenStream rest) :
    Mirrors (fun e _ => e.isWellFormed = true) Around.before Around.after (t :: rest)
      (literal (t :: rest)) := by
  -- digits have a value, so the only failure left is a value that is too large
  obtain ⟨n, hn⟩ := ht.exists_natural? hk
  have hstep : ∀ c : Around, c.before.step t = t.literal? >>= fun e => .ok (.next (c.after e)) := by
    intro c
    simp only [Around.before, ParseState.step, ParseState.stepOperand, hk]
    rfl
  rw [literal_cons t rest hk hn]
  by_cases hle : n ≤ maxLiteral
  · rw [if_pos hle]
    refine .ok rfl hrest fun c => ?_
    rw [ParseState.run, hstep c, Token.literal?, hn]
    simp only [if_pos hle]
    rfl
  · rw [if_neg hle]
    refine .error fun c => ?_
    rw [ParseState.run, hstep c, Token.literal?, hn]
    simp only [if_neg hle]
    rfl

/-- The operator in front of an operation. -/
theorem arithmeticOperator_mirrors (hts : TokenStream ts)
    (hk : ∀ t rest, ts = t :: rest → t.kind ≠ .identifier ∧ t.kind ≠ .integer) :
    Mirrors (fun op _ => op.isValid = true) Around.before
      (fun c op => .operand (.left op :: c.holes) c.goal c.spine) ts (arithmeticOperator ts) := by
  obtain ⟨t, rest, rfl, hrest⟩ := hts.exists_front
  obtain ⟨hname, hnumber⟩ := hk t rest rfl
  rw [arithmeticOperator_cons]
  cases hop : ArithOp.ofKind? t.kind with
  | none =>
    refine .error fun c => ?_
    have hstep : c.before.step t = .error (.refused .arithmeticOperator t) := by
      simp only [Around.before, ParseState.step, ParseState.stepOperand, hop]
    rw [ParseState.run, hstep]
  | some op =>
    have hkind : t.kind ≠ .endOfStream := by
      intro hk
      rw [hk] at hop
      cases hop
    refine .ok (ArithOp.ofKind?_spec hop).2.2 (hrest hkind).2 fun c => ?_
    rw [ParseState.run, Around.before, step_operator hop]

/-- An expression. -/
theorem expression_mirrors (hts : TokenStream ts) :
    Mirrors (fun e _ => e.isWellFormed = true) Around.before Around.after ts (expression ts) := by
  -- on a bound for the number of tokens, since both operands are read from fewer
  obtain ⟨n, hn⟩ : ∃ n, ts.length < n := ⟨_, Nat.lt_succ_self _⟩
  induction n generalizing ts with
  | zero => cases hn
  | succ n ih =>
    obtain ⟨t, rest, rfl, hrest⟩ := hts.exists_front
    rw [expression, peek_bind]
    split
    · rename_i hk
      have hname := identifier_mirrors Around.before (fun c x => c.after (.var x)) hts (by
          rintro c _ _ ⟨⟩
          simp only [Around.before, ParseState.step, ParseState.stepOperand, hk, ParseState.expect,
            if_pos]
          rfl)
      refine hname.bind fun x hx hstream => ?_
      exact .ok hx hstream fun c => rfl
    · rename_i hk
      obtain ⟨hclass, hstream⟩ := hrest (by rw [hk]; decide)
      exact literal_mirrors hk hclass hstream
    · rename_i hname hnumber
      have hoperator := arithmeticOperator_mirrors hts (by
        rintro _ _ ⟨⟩
        exact ⟨hname, hnumber⟩)
      refine hoperator.bind ?_
      rintro ⟨op, ts₁, h₁⟩ hop hs₁
      have hn₁ : ts₁.length < n := by omega
      -- the left operand is read with its operator waiting, and the right one with both
      have hleft := (ih hs₁ hn₁).comap fun c : Around => ⟨.left op :: c.holes, c.goal, c.spine⟩
      refine hleft.bind ?_
      rintro ⟨left, ts₂, h₂⟩ hl hs₂
      have hn₂ : ts₂.length < n := Nat.lt_trans h₂ hn₁
      have hright := (ih hs₂ hn₂).comap fun c : Around => ⟨.right op left :: c.holes, c.goal, c.spine⟩
      refine hright.bind ?_
      rintro ⟨right, ts₃, h₃⟩ hr hs₃
      have hbinary : Expr.binary? op left right = .ok (.binary op left right) :=
        Expr.binary?_eq_ok_iff.2 ⟨hop, Expr.isPresent_of_isWellFormed hl,
          Expr.isPresent_of_isWellFormed hr, rfl⟩
      have hwell := Expr.isWellFormed_of_binary? hbinary hl hr
      dsimp only
      rw [hbinary, node_bind]
      exact .ok hwell hs₃ fun c => rfl

/-- A condition. -/
theorem condition_mirrors (hts : TokenStream ts) :
    Mirrors (fun c _ => c.isWellFormed = true) (fun k : CondUse × Spine => .relation k.1 k.2)
      (fun k c => ParseState.useCond k.1 c k.2) ts (condition ts) := by
  refine (relationalOperator_mirrors hts).bind ?_
  rintro ⟨op, ts₁, h₁⟩ hop hs₁
  have hleft := (expression_mirrors hs₁).comap fun k : CondUse × Spine =>
    ⟨[], .compareLeft k.1 op, k.2⟩
  refine hleft.bind ?_
  rintro ⟨left, ts₂, h₂⟩ hl hs₂
  have hright := (expression_mirrors hs₂).comap fun k : CondUse × Spine =>
    ⟨[], .compareRight k.1 op left, k.2⟩
  refine hright.bind ?_
  rintro ⟨right, ts₃, h₃⟩ hr hs₃
  have hcompare : Cond.compare? op left right = .ok (.compare op left right) :=
    Cond.compare?_eq_ok_iff.2 ⟨hop, Expr.isPresent_of_isWellFormed hl,
      Expr.isPresent_of_isWellFormed hr, rfl⟩
  have hwell := Cond.isWellFormed_of_compare? hcompare hl hr
  dsimp only
  rw [hcompare, node_bind]
  exact .ok hwell hs₃ fun k => rfl

end Expressions

/-! ## Statements -/

/-- A token that starts no statement is to close the innermost block. -/
theorem step_boundary_of_not_startsStatement {t : Token} (h : startsStatement t.kind = false)
    (spine : Spine) :
    ParseState.step (.boundary spine) t =
      ParseState.expect (ParseState.terminator spine) t (ParseState.close spine) := by
  simp only [ParseState.step, ParseState.stepBoundary]
  split
  case h_6 => rfl
  all_goals
    rename_i hk
    rw [hk] at h
    cases h

theorem pushAll_concat (spine : Spine) (stmts : List Stmt) (s : Stmt) :
    spine.pushAll (stmts ++ [s]) = (spine.pushAll stmts).push s := by
  cases spine <;> simp [Spine.pushAll, Spine.push]

/-- A well-formed block is its statements. -/
theorem eq_seq_of_isWellFormed {b : Block} (h : b.isWellFormed = true) : b = .seq b.stmts := by
  cases b with
  | missing => cases h
  | seq stmts bare =>
    simp only [Block.isWellFormed, Bool.and_eq_true, Bool.not_eq_true'] at h
    rw [h.2]
    rfl

/-- A block is well formed, and the token behind it starts no statement. -/
def Closing (b : Block) (rest : List Token) : Prop :=
  b.isWellFormed = true ∧ ∀ t us, rest = t :: us → startsStatement t.kind = false

section Statements

variable {ts : List Token}

/-- An assignment, at a name. -/
theorem assignment_mirrors (hts : TokenStream ts)
    (hk : ∀ t rest, ts = t :: rest → t.kind = .identifier) :
    Mirrors (fun s _ => s.isWellFormed = true) ParseState.boundary
      (fun spine s => .boundary (spine.push s)) ts (assignment ts) := by
  have htarget := identifier_mirrors ParseState.boundary (fun spine x => .assignSign x spine) hts
    (by
      intro spine t rest heq
      have hname := hk t rest heq
      simp only [ParseState.step, ParseState.stepBoundary, hname, ParseState.expect, if_pos])
  refine htarget.bind ?_
  rintro ⟨x, ts₁, h₁⟩ hx hs₁
  have hsign := expect_mirrors .assign (ParseState.assignSign x)
    (fun spine => .operand [] (.assign x) spine) hs₁ (by decide) (fun _ _ _ _ => rfl)
  refine hsign.bind ?_
  rintro ⟨sign, ts₂, h₂⟩ - hs₂
  refine ((expression_mirrors hs₂).comap fun spine : Spine => ⟨[], .assign x, spine⟩).bind ?_
  rintro ⟨value, ts₃, h₃⟩ hvalue hs₃
  have hassign : Stmt.assign? (some x) value = .ok (.assign x value) :=
    Stmt.assign?_eq_ok_iff.2 ⟨Expr.isPresent_of_isWellFormed hvalue, rfl⟩
  dsimp only at hx hvalue ⊢
  rw [hassign, node_bind]
  refine .ok ?_ hs₃ fun spine => rfl
  simp only [Stmt.isWellFormed, hx, hvalue]
  rfl

/-- The keyword in front of a statement. -/
theorem keyword_mirrors (kind : Kind) (after : Spine → ParseState) (hts : TokenStream ts)
    (hkind : kind ≠ .endOfStream) (hk : ∀ t rest, ts = t :: rest → t.kind = kind)
    (hstep : ∀ spine t, t.kind = kind →
      ParseState.step (.boundary spine) t = .ok (.next (after spine))) :
    Mirrors (fun _ _ => True) ParseState.boundary (fun spine _ => after spine) ts
      (expect kind ts) := by
  refine expect_mirrors kind _ _ hts hkind ?_
  intro spine t rest heq
  have hfront := hk t rest heq
  rw [hstep spine t hfront, ParseState.expect, if_pos hfront]

/-- A print statement, at its keyword. -/
theorem printing_mirrors (hts : TokenStream ts)
    (hk : ∀ t rest, ts = t :: rest → t.kind = .printWord) :
    Mirrors (fun s _ => s.isWellFormed = true) ParseState.boundary
      (fun spine s => .boundary (spine.push s)) ts (printing ts) := by
  have hword := keyword_mirrors .printWord ParseState.printOpen hts (by decide) hk (by
    intro spine t hprint
    simp only [ParseState.step, ParseState.stepBoundary, hprint])
  refine hword.bind ?_
  rintro ⟨_, ts₁, h₁⟩ - hs₁
  have hopening := expect_mirrors .leftParen ParseState.printOpen
    (fun spine => .operand [] .print spine) hs₁ (by decide) (fun _ _ _ _ => rfl)
  refine hopening.bind ?_
  rintro ⟨_, ts₂, h₂⟩ - hs₂
  refine ((expression_mirrors hs₂).comap fun spine : Spine => ⟨[], .print, spine⟩).bind ?_
  rintro ⟨value, ts₃, h₃⟩ hvalue hs₃
  have hclosing := expect_mirrors .rightParen (ParseState.printClose value)
    (fun spine => .boundary (spine.push (.print value))) hs₃ (by decide) (fun _ _ _ _ => rfl)
  refine hclosing.bind ?_
  rintro ⟨_, ts₄, h₄⟩ - hs₄
  have hprint : Stmt.print? value = .ok (.print value) :=
    Stmt.print?_eq_ok_iff.2 ⟨Expr.isPresent_of_isWellFormed hvalue, rfl⟩
  dsimp only at hvalue ⊢
  rw [hprint, node_bind]
  refine .ok ?_ hs₄ fun spine => rfl
  simp only [Stmt.isWellFormed, hvalue]
  rfl

/-- The keyword that closes a block, at a token that starts no statement. -/
theorem terminator_mirrors {κ : Type} (kind : Kind) (spine : κ → Spine) (hts : TokenStream ts)
    (hfront : ∀ t us, ts = t :: us → startsStatement t.kind = false) (hkind : kind ≠ .endOfStream)
    (hterminator : ∀ k, ParseState.terminator (spine k) = kind) :
    Mirrors (fun _ _ => True) (fun k => .boundary (spine k))
      (fun k _ => ParseState.close (spine k)) ts (expect kind ts) := by
  refine expect_mirrors kind _ _ hts hkind ?_
  intro k t us heq
  rw [step_boundary_of_not_startsStatement (hfront t us heq), hterminator k]

/-- Blocks of fewer than `n` tokens mirror the machine, behind the statements read so far. -/
def StatementsMirror (n : Nat) : Prop :=
  ∀ (soFar : Block) (ts : List Token), ts.length < n → TokenStream ts → soFar.isWellFormed = true →
    Mirrors Closing (fun spine : Spine => .boundary (spine.pushAll soFar.stmts))
      (fun spine b => .boundary (spine.pushAll b.stmts)) ts (statements soFar ts)

/-- The machine after an inner block and its keyword. -/
def closed : Owner → Block → Spine → ParseState
  | .onTrue cond, b, outer => .boundary (.inner (.onFalse cond b) [] outer)
  | .onFalse cond onTrue, b, outer => .boundary (outer.push (.branch cond onTrue b))
  | .loopWhile cond, b, outer => .boundary (outer.push (.loopWhile cond b))
  | .loopUntil, b, outer => .relation (.loopUntil b) outer

theorem close_pushAll {b : Block} (hb : b.isWellFormed = true) (owner : Owner) (outer : Spine) :
    ParseState.close ((Spine.inner owner [] outer).pushAll b.stmts) = closed owner b outer := by
  have hseq : Block.seq (b.stmts.reverse ++ []).reverse = b := by
    rw [List.append_nil, List.reverse_reverse, ← eq_seq_of_isWellFormed hb]
  cases owner <;> simp only [Spine.pushAll, ParseState.close, closed, hseq]

/-- A block is its statements behind none. -/
theorem StatementsMirror.block {n : Nat} (h : StatementsMirror n) (hn : ts.length < n)
    (hts : TokenStream ts) :
    Mirrors Closing ParseState.boundary (fun spine b => .boundary (spine.pushAll b.stmts)) ts
      (block ts) := by
  have hempty : Block.ofList? [] = .ok (.seq []) := rfl
  have hmirrors := h (.seq []) ts hn hts rfl
  rw [Descent.block, hempty, node_bind]
  simpa only [Block.stmts, Spine.pushAll_nil] using hmirrors

/-- A block and the keyword that closes it, inside a statement. -/
theorem StatementsMirror.inner {n m : Nat} (h : StatementsMirror n) (kind : Kind) (owner : Owner)
    (hn : ts.length < n) (hts : TokenStream ts) (hkind : kind ≠ .endOfStream)
    (hterminator : ∀ done outer, ParseState.terminator (.inner owner done outer) = kind) {β : Type}
    {B : β → List Token → Prop} {after : Spine → β → ParseState}
    {f : (b : Taken (ts.length + 1) Block) → Taken b.rest.length Token → Except Stop (Taken m β)}
    (hf : ∀ b t, b.value.isWellFormed = true → TokenStream t.rest →
      Mirrors B (closed owner b.value) after t.rest (f b t)) :
    Mirrors B (fun outer => .boundary (.inner owner [] outer)) after ts
      (Descent.block ts >>= fun b => expect kind b.rest >>= f b) := by
  refine ((h.block hn hts).comap (Spine.inner owner [])).bind ?_
  rintro b ⟨hb, hfront⟩ hrest
  have hclose := terminator_mirrors kind (fun outer => (Spine.inner owner [] outer).pushAll
    b.value.stmts) hrest hfront hkind fun outer => hterminator _ outer
  simp only [close_pushAll hb] at hclose
  refine hclose.bind ?_
  intro t _ hstream
  exact hf b t hb hstream

/-- A conditional, at its keyword. -/
theorem branch_mirrors {n : Nat} (h : StatementsMirror n) (hn : ts.length ≤ n)
    (hts : TokenStream ts) (hk : ∀ t rest, ts = t :: rest → t.kind = .ifWord) :
    Mirrors (fun s _ => s.isWellFormed = true) ParseState.boundary
      (fun spine s => .boundary (spine.push s)) ts (branch ts) := by
  have hword := keyword_mirrors .ifWord (ParseState.relation .branch) hts (by decide) hk (by
    intro spine t hif
    simp only [ParseState.step, ParseState.stepBoundary, hif])
  rw [branch]
  refine hword.bind ?_
  rintro ⟨_, ts₁, h₁⟩ - hs₁
  refine ((condition_mirrors hs₁).comap fun spine : Spine => (.branch, spine)).bind ?_
  rintro ⟨cond, ts₂, h₂⟩ hcond hs₂
  have hthen := expect_mirrors .thenWord (ParseState.thenWord cond)
    (fun spine => .boundary (.inner (.onTrue cond) [] spine)) hs₂ (by decide) (fun _ _ _ _ => rfl)
  refine hthen.bind ?_
  rintro ⟨_, ts₃, h₃⟩ - hs₃
  -- both inner blocks are read from fewer tokens than the whole statement
  have hn₃ : ts₃.length < n := Nat.lt_of_lt_of_le (Nat.lt_trans (Nat.lt_trans h₃ h₂) h₁) hn
  refine h.inner .elseWord (.onTrue cond) hn₃ hs₃ (by decide) (fun _ _ => rfl) ?_
  rintro ⟨onTrue, ts₄, h₄⟩ ⟨_, ts₅, h₅⟩ htrue hs₅
  have hn₅ : ts₅.length < n := Nat.lt_trans (Nat.lt_of_lt_of_le h₅ (Nat.le_of_lt_succ h₄)) hn₃
  refine h.inner .endWord (.onFalse cond onTrue) hn₅ hs₅ (by decide)
    (fun _ _ => rfl) ?_
  rintro ⟨onFalse, ts₆, h₆⟩ ⟨_, ts₇, h₇⟩ hfalse hs₇
  have hbranch : Stmt.branch? cond onTrue onFalse = .ok (.branch cond onTrue onFalse) :=
    Stmt.branch?_eq_ok_iff.2 ⟨Cond.isPresent_of_isWellFormed hcond,
      Block.isPresent_of_isWellFormed htrue, Block.isPresent_of_isWellFormed hfalse, rfl⟩
  dsimp only at hcond htrue hfalse ⊢
  rw [hbranch, node_bind]
  refine .ok ?_ hs₇ fun spine => rfl
  simp only [Stmt.isWellFormed, hcond, htrue, hfalse]
  rfl

/-- A loop that tests before its body, at its keyword. -/
theorem loopWhile_mirrors {n : Nat} (h : StatementsMirror n) (hn : ts.length ≤ n)
    (hts : TokenStream ts) (hk : ∀ t rest, ts = t :: rest → t.kind = .whileWord) :
    Mirrors (fun s _ => s.isWellFormed = true) ParseState.boundary
      (fun spine s => .boundary (spine.push s)) ts (loopWhile ts) := by
  have hword := keyword_mirrors .whileWord (ParseState.relation .loopWhile) hts (by decide) hk (by
    intro spine t hwhile
    simp only [ParseState.step, ParseState.stepBoundary, hwhile])
  rw [loopWhile]
  refine hword.bind ?_
  rintro ⟨_, ts₁, h₁⟩ - hs₁
  refine ((condition_mirrors hs₁).comap fun spine : Spine => (.loopWhile, spine)).bind ?_
  rintro ⟨cond, ts₂, h₂⟩ hcond hs₂
  have hdo := expect_mirrors .doWord (ParseState.doWord cond)
    (fun spine => .boundary (.inner (.loopWhile cond) [] spine)) hs₂ (by decide) (fun _ _ _ _ => rfl)
  refine hdo.bind ?_
  rintro ⟨_, ts₃, h₃⟩ - hs₃
  have hn₃ : ts₃.length < n := Nat.lt_of_lt_of_le (Nat.lt_trans (Nat.lt_trans h₃ h₂) h₁) hn
  refine h.inner .endWord (.loopWhile cond) hn₃ hs₃ (by decide) (fun _ _ => rfl) ?_
  rintro ⟨body, ts₄, h₄⟩ ⟨_, ts₅, h₅⟩ hbody hs₅
  have hloop : Stmt.loopWhile? cond body = .ok (.loopWhile cond body) :=
    Stmt.loopWhile?_eq_ok_iff.2 ⟨Cond.isPresent_of_isWellFormed hcond,
      Block.isPresent_of_isWellFormed hbody, rfl⟩
  dsimp only at hcond hbody ⊢
  rw [hloop, node_bind]
  refine .ok ?_ hs₅ fun spine => rfl
  simp only [Stmt.isWellFormed, hcond, hbody]
  rfl

/-- A loop that tests after its body, at its keyword. -/
theorem loopUntil_mirrors {n : Nat} (h : StatementsMirror n) (hn : ts.length ≤ n)
    (hts : TokenStream ts) (hk : ∀ t rest, ts = t :: rest → t.kind = .repeatWord) :
    Mirrors (fun s _ => s.isWellFormed = true) ParseState.boundary
      (fun spine s => .boundary (spine.push s)) ts (loopUntil ts) := by
  have hword := keyword_mirrors .repeatWord (fun spine => .boundary (.inner .loopUntil [] spine)) hts
    (by decide) hk (by
      intro spine t hrepeat
      simp only [ParseState.step, ParseState.stepBoundary, hrepeat])
  rw [loopUntil]
  refine hword.bind ?_
  rintro ⟨_, ts₁, h₁⟩ - hs₁
  have hn₁ : ts₁.length < n := Nat.lt_of_lt_of_le h₁ hn
  refine h.inner .untilWord .loopUntil hn₁ hs₁ (by decide) (fun _ _ => rfl) ?_
  rintro ⟨body, ts₂, h₂⟩ ⟨_, ts₃, h₃⟩ hbody hs₃
  refine ((condition_mirrors hs₃).comap fun spine : Spine => (.loopUntil body, spine)).bind ?_
  rintro ⟨cond, ts₄, h₄⟩ hcond hs₄
  have hloop : Stmt.loopUntil? body cond = .ok (.loopUntil body cond) :=
    Stmt.loopUntil?_eq_ok_iff.2 ⟨Block.isPresent_of_isWellFormed hbody,
      Cond.isPresent_of_isWellFormed hcond, rfl⟩
  dsimp only at hcond hbody ⊢
  rw [hloop, node_bind]
  refine .ok ?_ hs₄ fun spine => rfl
  simp only [Stmt.isWellFormed, hcond, hbody]
  rfl

/-- A statement, at a token that starts one. -/
theorem statement_mirrors {n : Nat} (h : StatementsMirror n) (hn : ts.length ≤ n)
    (hts : TokenStream ts) (hk : ∀ t rest, ts = t :: rest → startsStatement t.kind = true) :
    Mirrors (fun s _ => s.isWellFormed = true) ParseState.boundary
      (fun spine s => .boundary (spine.push s)) ts (statement ts) := by
  obtain ⟨t, rest, rfl, -⟩ := hts.exists_front
  have hstarts := hk t rest rfl
  -- every rule looks at the front token again
  have hfront : ∀ {kind : Kind}, t.kind = kind →
      ∀ u us, t :: rest = u :: us → u.kind = kind := by
    rintro kind hkind _ _ ⟨⟩
    exact hkind
  rw [statement, peek_bind]
  split
  · exact branch_mirrors h hn hts (hfront ‹_›)
  · exact loopWhile_mirrors h hn hts (hfront ‹_›)
  · exact printing_mirrors hts (hfront ‹_›)
  · exact loopUntil_mirrors h hn hts (hfront ‹_›)
  · exact assignment_mirrors hts (hfront ‹_›)
  -- no other kind starts a statement, so this failure does not happen
  · rename_i hif hwhile hprint hrepeat hname
    cases hkind : t.kind with
    | ifWord => exact absurd hkind hif
    | whileWord => exact absurd hkind hwhile
    | printWord => exact absurd hkind hprint
    | repeatWord => exact absurd hkind hrepeat
    | identifier => exact absurd hkind hname
    | _ =>
      rw [hkind] at hstarts
      cases hstarts

/-- The statements of a block. -/
theorem statementsMirror (n : Nat) : StatementsMirror n := by
  -- on the bound for the number of tokens: a statement takes some, and the others are read from the rest
  induction n with
  | zero =>
    intro soFar ts hn
    cases hn
  | succ n ih =>
    intro soFar ts hn hts hsoFar
    obtain ⟨t, rest, rfl, -⟩ := hts.exists_front
    rw [statements, peek_bind]
    by_cases hstarts : startsStatement t.kind = true
    · rw [if_pos hstarts]
      have hstatement := statement_mirrors ih (Nat.le_of_lt_succ hn) hts (by
        rintro _ _ ⟨⟩
        exact hstarts)
      refine (hstatement.comap fun spine : Spine => spine.pushAll soFar.stmts).bind ?_
      rintro ⟨s, ts₁, h₁⟩ hs hs₁
      have happend : soFar.append? s = .ok (.seq (soFar.stmts ++ [s])) := by
        rw [eq_seq_of_isWellFormed hsoFar]
        simp [Block.append?, Stmt.isPresent_of_isWellFormed hs, Block.stmts]
      have hblock := Block.isWellFormed_of_append? happend hsoFar hs
      dsimp only
      rw [happend, node_bind]
      have hmore := ih (.seq (soFar.stmts ++ [s])) ts₁
        (Nat.lt_of_lt_of_le h₁ (Nat.le_of_lt_succ hn)) hs₁ hblock
      simp only [Block.stmts, pushAll_concat] at hmore
      refine hmore.bind ?_
      rintro ⟨all, ts₂, h₂⟩ hall hs₂
      exact .ok hall hs₂ fun spine => rfl
    -- the token stays where it is, for the keyword that closes the block
    · rw [if_neg hstarts]
      refine .ok ⟨hsoFar, ?_⟩ hts fun spine => rfl
      rintro _ _ ⟨⟩
      simpa using hstarts

end Statements

/-! ## Programs -/

/-- The result on a whole stream is the answer of the machine, and the tokens left are the same. -/
inductive Answers {n : Nat} (before : ParseState) (ts : List Token) :
    Except Stop (Taken n Program) → Prop
  | ok {p : Taken n Program} (hrun : before.run ts = (.ok p.value, p.rest)) : Answers before ts (.ok p)
  | error {x : Expectation} {t : Token} {rest : List Token}
      (hrun : before.run ts = (.error (.refused x t), rest)) :
      Answers before ts (.error ⟨(SyntaxError.refused x t).failure, rest⟩)

/-- A rule in front of the rest of a program. -/
theorem Mirrors.answers {α : Type} {n m : Nat} {A : α → List Token → Prop} {before : ParseState}
    {middle : α → ParseState} {ts : List Token} {r : Except Stop (Taken n α)}
    {f : Taken n α → Except Stop (Taken m Program)}
    (h : Mirrors A (fun _ : Unit => before) (fun _ => middle) ts r)
    (hf : ∀ a : Taken n α, A a.value a.rest → TokenStream a.rest →
      Answers (middle a.value) a.rest (f a)) :
    Answers before ts (r >>= f) := by
  cases h with
  | error hrun => exact .error (hrun ())
  | @ok a hgood hrest hrun =>
    have hnext := hf a hgood hrest
    change Answers before ts (f a)
    generalize f a = r at hnext
    cases hnext with
    | error hrun' => exact .error (by rw [hrun (), hrun'])
    | ok hrun' => exact .ok (by rw [hrun (), hrun'])

/-- A whole program. -/
theorem program_answers {ts : List Token} (hts : TokenStream ts) :
    Answers .start ts (program ts) := by
  have hword := expect_mirrors .functionWord (fun _ : Unit => .start) (fun _ => .title) hts
    (by decide) (fun _ _ _ _ => rfl)
  rw [program]
  refine hword.answers ?_
  rintro ⟨_, ts₁, h₁⟩ - hs₁
  have hname := identifier_mirrors (fun _ : Unit => .title) (fun _ name => .openParen name) hs₁
    (fun _ _ _ _ => rfl)
  refine hname.answers ?_
  rintro ⟨name, ts₂, h₂⟩ - hs₂
  have hopening := expect_mirrors .leftParen (fun _ : Unit => .openParen name)
    (fun _ => .closeParen name) hs₂ (by decide) (fun _ _ _ _ => rfl)
  refine hopening.answers ?_
  rintro ⟨_, ts₃, h₃⟩ - hs₃
  have hclosing := expect_mirrors .rightParen (fun _ : Unit => .closeParen name)
    (fun _ => .boundary (.body name [])) hs₃ (by decide) (fun _ _ _ _ => rfl)
  refine hclosing.answers ?_
  rintro ⟨_, ts₄, h₄⟩ - hs₄
  have hblock := StatementsMirror.block (statementsMirror _) (Nat.lt_succ_self _) hs₄
  refine (hblock.comap fun _ : Unit => .body name []).answers ?_
  rintro ⟨body, ts₅, h₅⟩ ⟨hbody, hfront⟩ hs₅
  have hend := terminator_mirrors .endWord (fun _ : Unit => (Spine.body name []).pushAll body.stmts)
    hs₅ hfront (by decide) (fun _ => rfl)
  refine hend.answers ?_
  rintro ⟨_, ts₆, h₆⟩ - hs₆
  have hclose : ParseState.close ((Spine.body name []).pushAll body.stmts) =
      .finish { name := some name, body := body } := by
    have hseq : Block.seq (body.stmts.reverse ++ []).reverse = body := by
      rw [List.append_nil, List.reverse_reverse, ← eq_seq_of_isWellFormed hbody]
    rw [Spine.pushAll, ParseState.close, hseq]
  have hmake : Program.make? (some name) body = .ok { name := some name, body := body } :=
    Program.make?_eq_ok_iff.2 ⟨Block.isPresent_of_isWellFormed hbody, rfl⟩
  -- the last token is the end of the stream or garbage
  obtain ⟨t, rest, rfl, -⟩ := hs₆.exists_front
  dsimp only
  rw [hclose, hmake]
  change Answers _ _ (if t.kind = .endOfStream then .ok ⟨_, rest, _⟩ else
    .error ⟨(SyntaxError.refused .nothingMore t).failure, rest⟩)
  by_cases hk : t.kind = .endOfStream
  · rw [if_pos hk]
    refine .ok ?_
    rw [ParseState.run, ParseState.step, if_pos hk]
  · rw [if_neg hk]
    refine .error ?_
    rw [ParseState.run, ParseState.step, if_neg hk]

end Descent

/-- On a stream, the rules read one inside the other give the answer of the machine and leave the
tokens that it leaves. -/
theorem TokenStream.outcome_program {ts : List Token} (h : TokenStream ts) :
    Descent.outcome (Descent.program ts) =
      ((ParseState.run .start ts).1.mapError SyntaxError.failure, (ParseState.run .start ts).2) := by
  have hanswers := Descent.program_answers h
  generalize Descent.program ts = r at hanswers
  cases hanswers with
  | ok hrun =>
    rw [hrun]
    rfl
  | error hrun =>
    rw [hrun]
    rfl

end MiniLua

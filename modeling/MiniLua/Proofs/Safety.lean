import MiniLua.Exec.Call
import MiniLua.Proofs.Interruption
import MiniLua.Proofs.RoundTrip

/-!
# Well-formed programs do not go wrong

A run of a well-formed program can be stopped by a refused write or by a zero divisor, and by nothing
else. The letters that names may be are those that have a slot, the operators that are accepted are
those that are computed, and nothing that is looked at is missing. A step keeps the statements that
are left well formed, and it brings up no expression that the program did not have, so this holds at
every moment of a run, however long it is.

## Delivered

- `Expr.dividesByZero_of_eval_error`, `Cond.dividesByZero_of_holds_error`: well-formed expressions
  without a value divide by zero.
- `step_next_cases`: the statements that a step leaves.
- `step_stop_cases`: the two faults of a step on well-formed statements.
- `run_keeps_todo`, `exists_step_of_stopped`: the statements and the last step of a run.
- `Occurs`, `Unfailing`: the expressions of statements, and behaviours without other faults.
- `unfailing_of_behaves`: runs of well-formed statements have such behaviours.
- `Program.unfailing`: programs that were built or read.
-/

set_option autoImplicit false

namespace MiniLua

/-! ## Variables and operators -/

/-- A letter has a slot. -/
theorem exists_slot?_of_isVariable {letter : UInt8} (h : isVariable letter = true) :
    ∃ i, Store.slot? letter = some i := by
  have hrange := Lexeme.isLetter_iff.1 h
  rw [toNat_charOfByte] at hrange
  unfold Store.slot?
  by_cases hlower : 97 ≤ letter.toNat ∧ letter.toNat ≤ 122
  · exact ⟨_, dif_pos hlower⟩
  · have hupper : 65 ≤ letter.toNat ∧ letter.toNat ≤ 90 := by omega
    exact ⟨_, by rw [dif_neg hlower, dif_pos hupper]⟩

/-- A well-formed name is read in every store. -/
theorem Ident.exists_fetch {x : Ident} (h : x.isWellFormed = true) (s : Store) :
    ∃ value, s.fetch x.letter = .ok value := by
  rw [Ident.isWellFormed, Bool.and_eq_true] at h
  obtain ⟨i, hi⟩ := exists_slot?_of_isVariable h.1
  exact ⟨_, by rw [Store.fetch, hi]⟩

/-- A well-formed name is written in every store. -/
theorem Ident.exists_assign {x : Ident} (h : x.isWellFormed = true) (s : Store) (value : Int32) :
    ∃ s', s.assign x.letter value = .ok s' := by
  rw [Ident.isWellFormed, Bool.and_eq_true] at h
  obtain ⟨i, hi⟩ := exists_slot?_of_isVariable h.1
  exact ⟨_, by rw [Store.assign, hi]⟩

/-- One of the four operators fails only as a division by zero. -/
theorem ArithOp.eq_div_of_apply_error {op : ArithOp} (h : op.isValid = true) {a b : Int32}
    {fault : Fault} (hfault : op.apply a b = .error fault) :
    op = .div ∧ b = 0 ∧ fault = .divideByZero := by
  cases op with
  | div =>
    by_cases hb : b = 0
    · rw [ArithOp.apply, if_pos hb] at hfault
      cases hfault
      exact ⟨rfl, hb, rfl⟩
    · rw [ArithOp.apply, if_neg hb] at hfault
      cases hfault
  | other text => cases h
  | _ => cases hfault

/-- One of the six comparisons never fails. -/
theorem RelOp.apply_ne_error {op : RelOp} (h : op.isValid = true) (a b : Int32) (fault : Fault) :
    op.apply a b ≠ .error fault := by
  intro hfault
  cases op with
  | other text => cases h
  | _ => cases hfault

/-! ## Values -/

/-- The second expression is a node of the first. -/
inductive Expr.Contains : Expr → Expr → Prop
  | self (e : Expr) : Contains e e
  | left {op : ArithOp} {left right e : Expr} {bare : Bool} (h : Contains left e) :
      Contains (.binary op left right bare) e
  | right {op : ArithOp} {left right e : Expr} {bare : Bool} (h : Contains right e) :
      Contains (.binary op left right bare) e

/-- A node of the expression is a division that gets as far as its divisor, and finds zero there. -/
def Expr.DividesByZero (s : Store) (e : Expr) : Prop :=
  ∃ dividend divisor bare a, e.Contains (.binary .div dividend divisor bare) ∧
    dividend.eval s = .ok a ∧ divisor.eval s = .ok 0

/-- A well-formed expression without a value divides by zero. -/
theorem Expr.dividesByZero_of_eval_error {e : Expr} (h : e.isWellFormed = true) {s : Store}
    {fault : Fault} (hfault : e.eval s = .error fault) :
    fault = .divideByZero ∧ e.DividesByZero s := by
  induction e with
  | missing => cases h
  | var x =>
    obtain ⟨value, hvalue⟩ := Ident.exists_fetch h s
    rw [Expr.eval, hvalue] at hfault
    cases hfault
  | lit value => cases hfault
  | binary op left right bare ihl ihr =>
    simp only [Expr.isWellFormed, Bool.and_eq_true] at h
    obtain ⟨⟨⟨hop, hl⟩, hr⟩, -⟩ := h
    rw [Expr.eval] at hfault
    -- the left operand is computed first, then the right one, and only then the operator is applied
    cases ha : left.eval s with
    | error fault' =>
      rw [ha] at hfault
      cases hfault
      obtain ⟨hkind, dividend, divisor, bare', n, hnode, hzero⟩ := ihl hl ha
      exact ⟨hkind, dividend, divisor, bare', n, .left hnode, hzero⟩
    | ok a =>
      rw [ha] at hfault
      cases hb : right.eval s with
      | error fault' =>
        rw [hb] at hfault
        cases hfault
        obtain ⟨hkind, dividend, divisor, bare', n, hnode, hzero⟩ := ihr hr hb
        exact ⟨hkind, dividend, divisor, bare', n, .right hnode, hzero⟩
      | ok b =>
        rw [hb] at hfault
        obtain ⟨rfl, rfl, hkind⟩ := ArithOp.eq_div_of_apply_error hop hfault
        exact ⟨hkind, left, right, bare, a, .self _, ha, hb⟩

/-- The two sides of a condition. -/
def Cond.operands : Cond → List Expr
  | .missing => []
  | .compare _ left right _ => [left, right]

/-- A well-formed condition that is neither true nor false has a side that divides by zero. -/
theorem Cond.dividesByZero_of_holds_error {c : Cond} (h : c.isWellFormed = true) {s : Store}
    {fault : Fault} (hfault : c.holds s = .error fault) :
    fault = .divideByZero ∧ ∃ e ∈ c.operands, e.DividesByZero s := by
  cases c with
  | missing => cases h
  | compare op left right bare =>
    simp only [Cond.isWellFormed, Bool.and_eq_true] at h
    obtain ⟨⟨⟨hop, hl⟩, hr⟩, -⟩ := h
    rw [Cond.holds] at hfault
    cases ha : left.eval s with
    | error fault' =>
      rw [ha] at hfault
      cases hfault
      obtain ⟨hkind, hzero⟩ := Expr.dividesByZero_of_eval_error hl ha
      exact ⟨hkind, left, by simp [Cond.operands], hzero⟩
    | ok a =>
      rw [ha] at hfault
      cases hb : right.eval s with
      | error fault' =>
        rw [hb] at hfault
        cases hfault
        obtain ⟨hkind, hzero⟩ := Expr.dividesByZero_of_eval_error hr hb
        exact ⟨hkind, right, by simp [Cond.operands], hzero⟩
      | ok b =>
        rw [hb] at hfault
        exact absurd hfault (RelOp.apply_ne_error hop a b fault)

/-! ## Steps -/

/-- The expressions that a statement itself computes, sooner or later. -/
def Stmt.operands : Stmt → List Expr
  | .missing => []
  | .assign _ value _ => [value]
  | .print value _ => [value]
  | .branch cond _ _ _ => cond.operands
  | .loopWhile cond _ _ => cond.operands
  | .loopUntil _ cond _ => cond.operands

/-- The blocks of a statement. -/
def Stmt.blocks : Stmt → List Block
  | .branch _ onTrue onFalse _ => [onTrue, onFalse]
  | .loopWhile _ body _ => [body]
  | .loopUntil body _ _ => [body]
  | _ => []

section Steps

variable {sink : Sink} {stmt : Stmt} {rest todo todo' : List Stmt} {m m' : Machine} {fault : Fault}

/-- A step that waits for a value and goes on got the value. -/
theorem Step.exists_of_after_next {α : Type} {result : Except Fault α} {k : α → Step}
    (h : Step.after m result k = .next todo' m') :
    ∃ value, result = .ok value ∧ k value = .next todo' m' := by
  cases result with
  | error fault => cases h
  | ok value => exact ⟨value, rfl, h⟩

/-- A step that waits for a value and is stopped did not get it, or was stopped later. -/
theorem Step.cases_of_after_stop {α : Type} {result : Except Fault α} {k : α → Step}
    (h : Step.after m result k = .stop fault m') :
    (result = .error fault ∧ m' = m) ∨ ∃ value, result = .ok value ∧ k value = .stop fault m' := by
  cases result with
  | error fault' =>
    cases h
    exact .inl ⟨rfl, rfl⟩
  | ok value => exact .inr ⟨value, rfl, h⟩

/-- A write is taken and counted, or it is refused with a reason of the sink. -/
theorem write_cases (sink : Sink) (value : Int32) (rest : List Stmt) (m : Machine) :
    (sink.reply (m.writes + 1) = none ∧ write sink value rest m =
      .next rest { m with printed := m.printed.push value, writes := m.writes + 1 }) ∨
    ∃ reason, sink.reply (m.writes + 1) = some reason ∧ write sink value rest m =
      .stop (.refusedWrite reason) { m with writes := m.writes + 1 } := by
  unfold write
  cases sink.reply (m.writes + 1) with
  | none => exact .inl ⟨rfl, rfl⟩
  | some reason => exact .inr ⟨reason, rfl, rfl⟩

/-- A step takes the first statement away, or puts one of its blocks in its place, or puts its body in
front of it. A loop that tests behind its body leaves the test for later. -/
theorem step_next_cases (h : step sink (stmt :: rest) m = .next todo' m') :
    todo' = rest ∨ (∃ b ∈ stmt.blocks, todo' = b.stmts ++ rest) ∨
      (∃ b ∈ stmt.blocks, todo' = b.stmts ++ stmt :: rest) ∨
      ∃ body cond bare, stmt = .loopUntil body cond bare ∧
        todo' = body.stmts ++ .branch cond (.seq []) (.seq [stmt]) :: rest := by
  cases stmt with
  | missing => cases h
  | assign target value bare =>
    rw [step_assign] at h
    obtain ⟨v, -, hassign⟩ := Step.exists_of_after_next h
    unfold assignStep at hassign
    split at hassign
    · cases hassign
    · cases hassign
      exact .inl rfl
  | print value bare =>
    rw [step_print] at h
    obtain ⟨v, -, hwrite⟩ := Step.exists_of_after_next h
    rcases write_cases sink v rest m with ⟨-, htaken⟩ | ⟨reason, -, hrefused⟩
    · rw [htaken] at hwrite
      cases hwrite
      exact .inl rfl
    · rw [hrefused] at hwrite
      cases hwrite
  | branch cond onTrue onFalse bare =>
    rw [step_branch] at h
    obtain ⟨holds, -, hnext⟩ := Step.exists_of_after_next h
    cases hnext
    cases holds with
    | true => exact .inr (.inl ⟨onTrue, by simp [Stmt.blocks], rfl⟩)
    | false => exact .inr (.inl ⟨onFalse, by simp [Stmt.blocks], rfl⟩)
  | loopWhile cond body bare =>
    rw [step_loopWhile] at h
    obtain ⟨holds, -, hnext⟩ := Step.exists_of_after_next h
    cases hnext
    cases holds with
    | true => exact .inr (.inr (.inl ⟨body, by simp [Stmt.blocks], rfl⟩))
    | false => exact .inl rfl
  | loopUntil body cond bare =>
    cases h
    exact .inr (.inr (.inr ⟨body, cond, bare, rfl, rfl⟩))

/-- The faults of a step on a well-formed statement: an expression of the statement divides by zero,
and nothing has changed yet, or the statement prints a number and the sink refuses it. -/
theorem step_stop_cases (hstmt : stmt.isWellFormed = true)
    (h : step sink (stmt :: rest) m = .stop fault m') :
    (fault = .divideByZero ∧ m' = m ∧ ∃ e ∈ stmt.operands, e.DividesByZero m.store) ∨
    ∃ e bare value reason, stmt = .print e bare ∧ e.eval m.store = .ok value ∧
      sink.reply (m.writes + 1) = some reason ∧ fault = .refusedWrite reason ∧
      m' = { m with writes := m.writes + 1 } := by
  cases stmt with
  | missing => simp [Stmt.isWellFormed] at hstmt
  | assign target value bare =>
    simp only [Stmt.isWellFormed, Bool.and_eq_true] at hstmt
    obtain ⟨⟨htarget, hvalue⟩, -⟩ := hstmt
    rw [step_assign] at h
    rcases Step.cases_of_after_stop h with ⟨hfault, rfl⟩ | ⟨v, -, hassign⟩
    · obtain ⟨hkind, hzero⟩ := Expr.dividesByZero_of_eval_error hvalue hfault
      exact .inl ⟨hkind, rfl, value, by simp [Stmt.operands], hzero⟩
    -- the target has a slot, so the value can be assigned
    · obtain ⟨s, hs⟩ := Ident.exists_assign htarget m.store v
      rw [assignStep, hs] at hassign
      cases hassign
  | print value bare =>
    simp only [Stmt.isWellFormed, Bool.and_eq_true] at hstmt
    rw [step_print] at h
    rcases Step.cases_of_after_stop h with ⟨hfault, rfl⟩ | ⟨v, hv, hwrite⟩
    · obtain ⟨hkind, hzero⟩ := Expr.dividesByZero_of_eval_error hstmt.1 hfault
      exact .inl ⟨hkind, rfl, value, by simp [Stmt.operands], hzero⟩
    · rcases write_cases sink v rest m with ⟨-, htaken⟩ | ⟨reason, hreply, hrefused⟩
      · rw [htaken] at hwrite
        cases hwrite
      · rw [hrefused] at hwrite
        cases hwrite
        exact .inr ⟨value, bare, v, reason, rfl, hv, hreply, rfl, rfl⟩
  | branch cond onTrue onFalse bare =>
    simp only [Stmt.isWellFormed, Bool.and_eq_true] at hstmt
    rw [step_branch] at h
    rcases Step.cases_of_after_stop h with ⟨hfault, rfl⟩ | ⟨holds, -, hnext⟩
    · obtain ⟨hkind, hzero⟩ := Cond.dividesByZero_of_holds_error hstmt.1.1.1 hfault
      exact .inl ⟨hkind, rfl, hzero⟩
    · cases hnext
  | loopWhile cond body bare =>
    simp only [Stmt.isWellFormed, Bool.and_eq_true] at hstmt
    rw [step_loopWhile] at h
    rcases Step.cases_of_after_stop h with ⟨hfault, rfl⟩ | ⟨holds, -, hnext⟩
    · obtain ⟨hkind, hzero⟩ := Cond.dividesByZero_of_holds_error hstmt.1.1 hfault
      exact .inl ⟨hkind, rfl, hzero⟩
    · cases hnext
  | loopUntil body cond bare => cases h

end Steps

/-! ## What a step leaves -/

/-- The blocks of a well-formed statement hold well-formed statements. -/
theorem Stmt.areWellFormed_of_mem_blocks {stmt : Stmt} (h : stmt.isWellFormed = true) {b : Block}
    (hb : b ∈ stmt.blocks) : areWellFormed b.stmts = true := by
  have hblock : b.isWellFormed = true := by
    cases stmt with
    | branch cond onTrue onFalse bare =>
      simp only [Stmt.isWellFormed, Bool.and_eq_true] at h
      simp only [Stmt.blocks, List.mem_cons, List.not_mem_nil, or_false] at hb
      rcases hb with rfl | rfl
      · exact h.1.1.2
      · exact h.1.2
    | loopWhile cond body bare =>
      simp only [Stmt.isWellFormed, Bool.and_eq_true] at h
      rw [List.mem_singleton.1 hb]
      exact h.1.2
    | loopUntil body cond bare =>
      simp only [Stmt.isWellFormed, Bool.and_eq_true] at h
      rw [List.mem_singleton.1 hb]
      exact h.1.1
    | _ => cases hb
  cases b with
  | missing => simp [Block.isWellFormed] at hblock
  | seq stmts bare =>
    simp only [Block.isWellFormed, Bool.and_eq_true] at hblock
    exact hblock.1

/-- Two lists of well-formed statements, one after the other. -/
theorem areWellFormed_append {stmts stmts' : List Stmt} :
    areWellFormed (stmts ++ stmts') = true ↔
      areWellFormed stmts = true ∧ areWellFormed stmts' = true := by
  simp only [areWellFormed_iff, List.forall_mem_append]

/-- A step leaves well-formed statements. -/
theorem step_next_areWellFormed {sink : Sink} {todo todo' : List Stmt} {m m' : Machine}
    (ht : areWellFormed todo = true) (h : step sink todo m = .next todo' m') :
    areWellFormed todo' = true := by
  cases todo with
  | nil => cases h
  | cons stmt rest =>
    have hparts := ht
    simp only [areWellFormed, Bool.and_eq_true] at hparts
    obtain ⟨hstmt, hrest⟩ := hparts
    rcases step_next_cases h with rfl | ⟨b, hb, rfl⟩ | ⟨b, hb, rfl⟩ | ⟨body, cond, bare, rfl, rfl⟩
    · exact hrest
    · exact areWellFormed_append.2 ⟨Stmt.areWellFormed_of_mem_blocks hstmt hb, hrest⟩
    · exact areWellFormed_append.2 ⟨Stmt.areWellFormed_of_mem_blocks hstmt hb, ht⟩
    · have hbody := Stmt.areWellFormed_of_mem_blocks hstmt (List.mem_singleton.2 rfl)
      have hcond : cond.isWellFormed = true := by
        simp only [Stmt.isWellFormed, Bool.and_eq_true] at hstmt
        exact hstmt.1.2
      -- the test that is left for later is a branch with the parts of the loop
      refine areWellFormed_append.2 ⟨hbody, ?_⟩
      simp [areWellFormed, Stmt.isWellFormed, Block.isWellFormed, hcond, hrest] at hstmt ⊢
      exact hstmt

/-- The expression is one of those that the statements, or statements in their blocks, compute. -/
inductive Occurs (e : Expr) : List Stmt → Prop
  | here {stmt : Stmt} {stmts : List Stmt} (hmem : stmt ∈ stmts) (he : e ∈ stmt.operands) :
      Occurs e stmts
  | inside {stmt : Stmt} {stmts : List Stmt} {b : Block} (hmem : stmt ∈ stmts)
      (hb : b ∈ stmt.blocks) (h : Occurs e b.stmts) : Occurs e stmts

namespace Occurs

variable {e : Expr} {stmt : Stmt} {stmts stmts' : List Stmt}

/-- More statements have more expressions. -/
theorem of_subset (h : Occurs e stmts) (hsub : ∀ s ∈ stmts, s ∈ stmts') : Occurs e stmts' := by
  cases h with
  | here hmem he => exact .here (hsub _ hmem) he
  | inside hmem hb h => exact .inside (hsub _ hmem) hb h

/-- The expressions of two lists of statements. -/
theorem of_append (h : Occurs e (stmts ++ stmts')) : Occurs e stmts ∨ Occurs e stmts' := by
  cases h with
  | here hmem he =>
    rcases List.mem_append.1 hmem with hmem | hmem
    · exact .inl (.here hmem he)
    · exact .inr (.here hmem he)
  | inside hmem hb h =>
    rcases List.mem_append.1 hmem with hmem | hmem
    · exact .inl (.inside hmem hb h)
    · exact .inr (.inside hmem hb h)

/-- A step brings up no expression that was not there. -/
theorem of_step_next {sink : Sink} {todo todo' : List Stmt} {m m' : Machine}
    (hstep : step sink todo m = .next todo' m') (h : Occurs e todo') : Occurs e todo := by
  cases todo with
  | nil => cases hstep
  | cons stmt rest =>
    have hrest : Occurs e rest → Occurs e (stmt :: rest) := fun h =>
      h.of_subset fun s hs => List.mem_cons_of_mem stmt hs
    have hblock : ∀ {b}, b ∈ stmt.blocks → Occurs e b.stmts → Occurs e (stmt :: rest) :=
      fun hb h => .inside List.mem_cons_self hb h
    rcases step_next_cases hstep with rfl | ⟨b, hb, rfl⟩ | ⟨b, hb, rfl⟩ |
      ⟨body, cond, bare, rfl, rfl⟩
    · exact hrest h
    · rcases h.of_append with h | h
      · exact hblock hb h
      · exact hrest h
    · rcases h.of_append with h | h
      · exact hblock hb h
      · exact h
    · rcases h.of_append with h | h
      · exact hblock (List.mem_singleton.2 rfl) h
      -- the test behind the body has the condition of the loop, and the loop again
      · cases h with
        | here hmem he =>
          rcases List.mem_cons.1 hmem with rfl | hmem
          · exact .here List.mem_cons_self he
          · exact .here (List.mem_cons_of_mem _ hmem) he
        | inside hmem hb h =>
          rcases List.mem_cons.1 hmem with rfl | hmem
          · simp only [Stmt.blocks, List.mem_cons, List.not_mem_nil, or_false] at hb
            rcases hb with rfl | rfl
            · exact h.of_subset fun s hs => by cases hs
            · exact h.of_subset fun s hs => List.mem_cons.2 (.inl (List.mem_singleton.1 hs))
          · exact .inside (List.mem_cons_of_mem _ hmem) hb h

end Occurs

/-! ## Runs -/

section Runs

variable {sink : Sink} {todo todo' : List Stmt} {m m' : Machine} {fault : Fault} {n : Nat}

/-- What every step keeps of the statements that are left, a whole run keeps. -/
theorem run_keeps_todo {T : List Stmt → Prop}
    (hstep : ∀ {todo todo' m m'}, T todo → step sink todo m = .next todo' m' → T todo')
    (ht : T todo) (h : run sink n todo m = .unfinished todo' m') : T todo' := by
  induction n generalizing todo m with
  | zero =>
    cases h
    exact ht
  | succ n ih =>
    rw [run] at h
    cases hs : step sink todo m with
    | next todo₁ m₁ =>
      rw [hs] at h
      exact ih (hstep ht hs) h
    | _ =>
      rw [hs] at h
      cases h

/-- A run that is stopped is stopped by its last step. -/
theorem exists_step_of_stopped (h : run sink n todo m = .stopped fault m') :
    ∃ j todo' before, run sink j todo m = .unfinished todo' before ∧
      step sink todo' before = .stop fault m' := by
  induction n generalizing todo m with
  | zero => cases h
  | succ n ih =>
    rw [run] at h
    cases hs : step sink todo m with
    | halt m₁ =>
      rw [hs] at h
      cases h
    | stop fault₁ m₁ =>
      rw [hs] at h
      cases h
      exact ⟨0, todo, m, rfl, hs⟩
    | next todo₁ m₁ =>
      rw [hs] at h
      obtain ⟨j, todo', before, hrun, hstop⟩ := ih h
      refine ⟨j + 1, todo', before, ?_, hstop⟩
      rw [run, hs]
      exact hrun

end Runs

/-- What a run does that only a refused write or a zero divisor can stop. The run has got to the
statement that was stopped, and the rest of the run is as if that statement had not begun. -/
inductive Unfailing (sink : Sink) (stmts : List Stmt) (m : Machine) : Behaviour → Prop
  | ends (m' : Machine) : Unfailing sink stmts m (.ends m')
  | diverges : Unfailing sink stmts m .diverges
  /-- The next statement prints a number, and the sink refuses the write. -/
  | refused {n : Nat} {e : Expr} {bare : Bool} {todo : List Stmt} {before : Machine} {value : Int32}
      {reason : String} (hrun : run sink n stmts m = .unfinished (.print e bare :: todo) before)
      (hvalue : e.eval before.store = .ok value)
      (hreply : sink.reply (before.writes + 1) = some reason) :
      Unfailing sink stmts m
        (.stops (.refusedWrite reason) { before with writes := before.writes + 1 })
  /-- The next statement computes an expression that the statements had from the start, and a division
  in it finds its divisor to be zero. -/
  | zeroDivisor {n : Nat} {stmt : Stmt} {todo : List Stmt} {before : Machine} {e : Expr}
      (hrun : run sink n stmts m = .unfinished (stmt :: todo) before) (he : e ∈ stmt.operands)
      (hoccurs : Occurs e stmts) (hzero : e.DividesByZero before.store) :
      Unfailing sink stmts m (.stops .divideByZero before)

/-- A run of well-formed statements is stopped by refused writes and zero divisors only. -/
theorem unfailing_of_behaves {sink : Sink} {stmts : List Stmt} {m : Machine} {b : Behaviour}
    (hstmts : areWellFormed stmts = true) (h : Behaves sink stmts m b) :
    Unfailing sink stmts m b := by
  cases h with
  | diverges h => exact .diverges
  | settles h =>
    rename_i n
    cases hrun : run sink n stmts m with
    | done m' =>
      rw [hrun] at h
      cases h
      exact .ends m'
    | unfinished todo m' =>
      rw [hrun] at h
      cases h
    | stopped fault m' =>
      rw [hrun] at h
      cases h
      obtain ⟨j, todo, before, hbefore, hstop⟩ := exists_step_of_stopped hrun
      have htodo : areWellFormed todo = true := run_keeps_todo step_next_areWellFormed hstmts hbefore
      cases todo with
      | nil => cases hstop
      | cons stmt rest =>
        simp only [areWellFormed, Bool.and_eq_true] at htodo
        rcases step_stop_cases htodo.1 hstop with ⟨rfl, rfl, e, he, hzero⟩ |
          ⟨e, bare, value, reason, rfl, hvalue, hreply, rfl, rfl⟩
        · have hoccurs : ∀ e, Occurs e (stmt :: rest) → Occurs e stmts :=
            run_keeps_todo (T := fun todo => ∀ e, Occurs e todo → Occurs e stmts)
              (fun ht hnext e he => ht e (he.of_step_next hnext)) (fun e he => he) hbefore
          exact .zeroDivisor hbefore he (hoccurs e (.here List.mem_cons_self he)) hzero
        · exact .refused hbefore hvalue hreply

/-- The body of a program that was built or read is well formed. -/
theorem Program.areWellFormed_body {p : Program}
    (h : p.Built ∨ ∃ bytes, Program.ofBytes? bytes = .ok p) :
    areWellFormed p.body.stmts = true := by
  have hp : p.isWellFormed = true := by
    rcases h with hbuilt | ⟨bytes, hread⟩
    · exact Program.built_iff_isWellFormed.1 hbuilt
    · obtain ⟨ts, lines, -, hclass, hspelled⟩ := Program.exists_spelled_of_ofBytes? hread
      exact hspelled.isWellFormed hclass
  obtain ⟨name, body, bare⟩ := p
  simp only [Program.isWellFormed, Bool.and_eq_true] at hp
  cases body with
  | missing => simp [Block.isWellFormed] at hp
  | seq stmts bare' =>
    simp only [Block.isWellFormed, Bool.and_eq_true] at hp
    exact hp.1.2.1

/-- A program that the constructors build, or that is read from a text, does not go wrong, from any
machine and on any sink. A call that runs it is not refused. Its run ends by itself, or never, or is
stopped: by a print statement whose write is refused, which is reported as such, or by a division in
one of its expressions whose divisor is zero. On a sink that takes every write, only the division is
left, and nothing is reported. -/
theorem Program.unfailing {p : Program} (hp : p.Built ∨ ∃ bytes, Program.ofBytes? bytes = .ok p)
    (sink : Sink) (m : Machine) :
    refusal? (some (.program p)) true = none ∧
    (∀ b, Behaves sink p.body.stmts m b → Unfailing sink p.body.stmts m b) ∧
    (∀ fault m', p.execute sink m = .stopped fault m' →
      Behaves sink p.body.stmts m (.stops fault m')) ∧
    (∀ reason, (Fault.refusedWrite reason).failure.text = "print: " ++ reason) ∧
    ((∀ k, sink.reply k = none) → ∀ fault m', Behaves sink p.body.stmts m (.stops fault m') →
      fault = .divideByZero) := by
  have hbody := Program.areWellFormed_body hp
  refine ⟨rfl, fun b hb => unfailing_of_behaves hbody hb, ?_, text_refusedWrite, ?_⟩
  · intro fault m' hstopped
    have hrun : run sink patience p.body.stmts m = .stopped fault m' := hstopped
    exact .settles (n := patience) (by rw [hrun]; rfl)
  · intro hopen fault m' hb
    cases unfailing_of_behaves hbody hb with
    | zeroDivisor hrun he hoccurs hzero => rfl
    | refused hrun hvalue hreply =>
      rw [hopen] at hreply
      cases hreply

/-- The count crashes when every write is taken, and when the second is refused it is stopped there. -/
theorem Program.unfailing_countUp :
    countUp.Built ∧
    (∃ m, Behaves .always countUp.body.stmts .fresh (.stops .divideByZero m) ∧
      Unfailing .always countUp.body.stmts .fresh (.stops .divideByZero m)) ∧
    (∃ m, Behaves (.closingAt 2 "full") countUp.body.stmts .fresh (.stops (.refusedWrite "full") m) ∧
      Unfailing (.closingAt 2 "full") countUp.body.stmts .fresh
        (.stops (.refusedWrite "full") m)) ∧
    ∀ fault m, Behaves .always countUp.body.stmts .fresh (.stops fault m) → fault = .divideByZero := by
  have hbuilt : countUp.Built := Program.built_iff_isWellFormed.2 rfl
  have hcrash : ∃ m, Behaves .always countUp.body.stmts .fresh (.stops .divideByZero m) :=
    ⟨_, .settles (n := 9) rfl⟩
  have hrefused : ∃ m, Behaves (.closingAt 2 "full") countUp.body.stmts .fresh
      (.stops (.refusedWrite "full") m) := ⟨_, .settles (n := 6) rfl⟩
  obtain ⟨m, hm⟩ := hcrash
  obtain ⟨m', hm'⟩ := hrefused
  obtain ⟨-, halways, -, -, hopen⟩ := Program.unfailing (.inl hbuilt) .always .fresh
  obtain ⟨-, hclosing, -⟩ := Program.unfailing (.inl hbuilt) (.closingAt 2 "full") .fresh
  exact ⟨hbuilt, ⟨m, hm, halways _ hm⟩, ⟨m', hm', hclosing _ hm'⟩, hopen fun _ => rfl⟩

end MiniLua

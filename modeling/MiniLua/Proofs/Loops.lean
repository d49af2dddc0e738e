import MiniLua.Proofs.Sequencing

/-!
# Two kinds of loops

A loop that tests behind its body does what its body does once and a loop that tests in front of it does
from then on, with the opposite condition. The two runs do not go in step: each time round, the first
loop takes a step to put its body in front of its test. Such a step changes nothing but the statements
that are left, so the run that takes it stays behind by a step and shows the same.

## Delivered

- `Unfolds`, `Soon`: steps that only change the statements that are left.
- `exists_run_alike`, `exists_alike_run`, `sameBehaviour_of_soon`: runs that are alike but for such
  steps have the same behaviour.
- `RelOp.complement`, `Cond.holds_complement`: the opposite comparison.
- `step_rounds`: one step of the two loops.
- `sameBehaviour_loopUntil`: the two loops have the same behaviour.
-/

set_option autoImplicit false

namespace MiniLua

/-! ## Runs that are alike but for some steps -/

/-- The step only puts other statements in the place of those that are left. -/
def Unfolds (sink : Sink) (todo todo' : List Stmt) : Prop :=
  ∀ m, step sink todo m = .next todo' m

/-- The statements are related, or are so after a step that only changes the first ones. -/
def Soon (sink : Sink) (T : List Stmt → List Stmt → Prop) (todo todo' : List Stmt) : Prop :=
  T todo todo' ∨ ∃ todo₁, Unfolds sink todo todo₁ ∧ T todo₁ todo'

section Soon

variable {sink : Sink} {T S : List Stmt → List Stmt → Prop} {todo todo' : List Stmt} {m : Machine}

/-- After steps that are alike both runs are over, or both go on. -/
theorem Step.Alike.run_cases (h : Step.Alike S Eq (step sink todo m) (step sink todo' m)) :
    (∀ n k, Outcome.Alike Eq (run sink (n + 1) todo m) (run sink (k + 1) todo' m)) ∨
    ∃ todo₁ todo₁' m₁, S todo₁ todo₁' ∧ (∀ n, run sink (n + 1) todo m = run sink n todo₁ m₁) ∧
      ∀ k, run sink (k + 1) todo' m = run sink k todo₁' m₁ := by
  simp only [run]
  generalize step sink todo m = s at h ⊢
  generalize step sink todo' m = s' at h ⊢
  cases h with
  | halt hm => exact .inl fun _ _ => .done hm
  | next hnext hm =>
    subst hm
    exact .inr ⟨_, _, _, hnext, fun _ => rfl, fun _ => rfl⟩
  | stop fault hm => exact .inl fun _ _ => .stopped fault hm

/-- The run that unfolds is at every limit where the other run is at some limit. -/
theorem exists_run_alike
    (hstep : ∀ {todo todo' m}, T todo todo' →
      Step.Alike (Soon sink T) Eq (step sink todo m) (step sink todo' m))
    (h : Soon sink T todo todo') (m : Machine) (n : Nat) :
    ∃ k, Outcome.Alike Eq (run sink n todo m) (run sink k todo' m) := by
  induction n generalizing todo todo' m with
  | zero => exact ⟨0, .unfinished todo todo' rfl⟩
  | succ n ih =>
    rcases h with h | ⟨todo₁, hunfold, h⟩
    · rcases (hstep h).run_cases with hover | ⟨todo₁, todo₁', m₁, hnext, hfirst, hsecond⟩
      · exact ⟨1, hover n 0⟩
      · obtain ⟨k, hk⟩ := ih hnext m₁
        refine ⟨k + 1, ?_⟩
        rw [hfirst, hsecond]
        exact hk
    -- the other run waits
    · rw [run, hunfold]
      exact ih (.inl h) m

/-- The other run is at every limit where the run that unfolds is at some limit. -/
theorem exists_alike_run
    (hstep : ∀ {todo todo' m}, T todo todo' →
      Step.Alike (Soon sink T) Eq (step sink todo m) (step sink todo' m))
    (h : Soon sink T todo todo') (m : Machine) (k : Nat) :
    ∃ n, Outcome.Alike Eq (run sink n todo m) (run sink k todo' m) := by
  induction k generalizing todo todo' m with
  | zero => exact ⟨0, .unfinished todo todo' rfl⟩
  | succ k ih =>
    have hrelated {todo : List Stmt} (h : T todo todo') :
        ∃ n, Outcome.Alike Eq (run sink n todo m) (run sink (k + 1) todo' m) := by
      rcases (hstep h).run_cases with hover | ⟨todo₁, todo₁', m₁, hnext, hfirst, hsecond⟩
      · exact ⟨1, hover 0 k⟩
      · obtain ⟨n, hn⟩ := ih hnext m₁
        refine ⟨n + 1, ?_⟩
        rw [hfirst, hsecond]
        exact hn
    rcases h with h | ⟨todo₁, hunfold, h⟩
    · exact hrelated h
    -- one more step brings the first run to statements that are related
    · obtain ⟨n, hn⟩ := hrelated h
      refine ⟨n + 1, ?_⟩
      rw [run, hunfold]
      exact hn

/-- Runs that are alike but for steps that unfold have the same behaviour. -/
theorem sameBehaviour_of_soon
    (hstep : ∀ {todo todo' m}, T todo todo' →
      Step.Alike (Soon sink T) Eq (step sink todo m) (step sink todo' m))
    (h : Soon sink T todo todo') (m : Machine) : SameBehaviour sink todo todo' m :=
  sameBehaviour_of_meeting (exists_run_alike hstep h m) (exists_alike_run hstep h m)

end Soon

/-! ## Opposite conditions -/

/-- The comparison that holds when the given one does not. -/
def RelOp.complement : RelOp → RelOp
  | .eq => .ne
  | .ne => .eq
  | .lt => .ge
  | .le => .gt
  | .gt => .le
  | .ge => .lt
  | .other text => .other text

theorem RelOp.apply_complement (op : RelOp) (a b : Int32) :
    op.complement.apply a b = (op.apply a b).map not := by
  have hle (x y : Int32) : decide (y ≤ x) = !decide (x < y) := by
    rw [← decide_not]
    exact decide_eq_decide.2 Int32.not_lt.symm
  have hlt (x y : Int32) : decide (y < x) = !decide (x ≤ y) := by
    rw [← decide_not]
    exact decide_eq_decide.2 Int32.not_le.symm
  cases op with
  | eq => exact congrArg Except.ok decide_not
  | ne => exact congrArg Except.ok (by simp)
  | lt => exact congrArg Except.ok (hle a b)
  | le => exact congrArg Except.ok (hlt a b)
  | gt => exact congrArg Except.ok (hle b a)
  | ge => exact congrArg Except.ok (hlt b a)
  | other text => rfl

/-- The opposite condition holds when the condition does not, and fails as it does. -/
theorem Cond.holds_complement (op : RelOp) (left right : Expr) (bare bare' : Bool) (s : Store) :
    (Cond.compare op.complement left right bare').holds s =
      ((Cond.compare op left right bare).holds s).map not := by
  simp only [Cond.holds]
  cases left.eval s with
  | error fault => rfl
  | ok a =>
    cases right.eval s with
    | error fault => rfl
    | ok b => exact op.apply_complement a b

/-! ## The two loops -/

/-- The test behind the body of a loop, which goes on with the loop. -/
def Stmt.testBehind (body : Block) (cond : Cond) : Stmt :=
  .branch cond (.seq []) (.seq [.loopUntil body cond])

/-- The statements that are left of the two loops: the same rest of a body in front of the two tests, or
the same statements once the loops are over. -/
inductive Rounds (body : Block) (cond cond' : Cond) : List Stmt → List Stmt → Prop
  | inside (todo rest : List Stmt) :
      Rounds body cond cond' (todo ++ .testBehind body cond :: rest)
        (todo ++ .loopWhile cond' body :: rest)
  | behind (rest : List Stmt) : Rounds body cond cond' rest rest

theorem unfolds_loopUntil (sink : Sink) (body : Block) (cond : Cond) (rest : List Stmt) :
    Unfolds sink (.loopUntil body cond :: rest) (body.stmts ++ .testBehind body cond :: rest) :=
  fun m => step_loopUntil sink rest m false body cond

/-- A step of the two loops: in a body they are at the same statement, and at their tests one of them
ends when the other does. The loop that goes on behind its test has its body still to unfold. -/
theorem step_rounds {sink : Sink} {body : Block} {cond cond' : Cond}
    (hcond : ∀ s, cond'.holds s = (cond.holds s).map not) {todo todo' : List Stmt}
    (h : Rounds body cond cond' todo todo') (m : Machine) :
    Step.Alike (Soon sink (Rounds body cond cond')) Eq (step sink todo m) (step sink todo' m) := by
  cases h with
  | inside todo rest =>
    cases todo with
    | nil =>
      rw [List.nil_append, List.nil_append, Stmt.testBehind, step_branch, step_loopWhile, hcond]
      cases cond.holds m.store with
      | error fault => exact .stop fault rfl
      | ok holds =>
        cases holds with
        | true => exact .next (.inl (.behind rest)) rfl
        | false =>
          exact .next (.inr ⟨_, unfolds_loopUntil sink body cond rest, .inside body.stmts rest⟩) rfl
    | cons stmt todo =>
      rw [List.cons_append, List.cons_append, step_append, step_append]
      cases step sink (stmt :: todo) m with
      | halt m' => exact .halt rfl
      | next todo₁ m' => exact .next (.inl (.inside todo₁ rest)) rfl
      | stop fault m' => exact .stop fault rfl
  | behind =>
    cases step sink todo m with
    | halt m' => exact .halt rfl
    | next todo₁ m' => exact .next (.inl (.behind todo₁)) rfl
    | stop fault m' => exact .stop fault rfl

/-- A loop that tests behind its body behaves as its body followed by the loop that tests in front of
it with the opposite comparison, whatever the parts of the loop are, on every sink and from every
machine: it prints the same, and both end with the same variables, are stopped by the same fault, or
never end. The same statements may stand behind both loops. -/
theorem sameBehaviour_loopUntil (sink : Sink) (body : Block) (op : RelOp) (left right : Expr)
    (rest : List Stmt) (m : Machine) :
    SameBehaviour sink (.loopUntil body (.compare op left right) :: rest)
      (body.stmts ++ .loopWhile (.compare op.complement left right) body :: rest) m := by
  have hcond := Cond.holds_complement op left right false false
  refine sameBehaviour_of_soon (T := Rounds body _ _) (fun h => step_rounds hcond h _) (.inr ?_) m
  exact ⟨_, unfolds_loopUntil sink body _ rest, .inside body.stmts rest⟩

end MiniLua

import MiniLua.Proofs.Sequencing

/-!
# How loops end

A loop that ends has run its body to the end a number of times, one run after the other, and its
condition decided each time that the loop goes on: it held before every run of a loop that tests in front
of its body, and did not hold after any but the last run of a loop that tests behind it. So the
condition of a loop is known where the loop ends. The bodies are arbitrary, so the count is of rounds and
not of steps, and a round may take any number of them.

## Delivered

- `exists_run_of_append`: a run of statements behind others ends only when both parts do.
- `Repeats`: runs of a body, one after the other, with the condition tested in between.
- `IsTest`, `IsTest.behaves_iff`: the two places of the test, and the loops that end from there.
- `behaves_loopUntil_iff`: a loop that tests behind its body ends after one more run of the body.
- `loops_end_as_tested`: what is known where a loop ends.
-/

set_option autoImplicit false

namespace MiniLua

variable {sink : Sink} {body : Block} {cond : Cond} {bare truth : Bool} {n : Nat}
  {todo rest : List Stmt} {m m₁ m' : Machine}

/-! ## Runs that end -/

theorem behaves_ends_iff : Behaves sink todo m (.ends m') ↔ ∃ n, run sink n todo m = .done m' := by
  constructor
  · intro h
    obtain ⟨n, hn⟩ := h.exists_run_done
    exact ⟨n, hn 0⟩
  · rintro ⟨n, hn⟩
    apply Behaves.settles (n := n)
    rw [hn]
    rfl

/-- A run that ends has ended the first statements before it goes on with those behind them, for which it
has no more steps than it began with. -/
theorem exists_run_of_append (h : run sink n (todo ++ rest) m = .done m') :
    ∃ m₁ j, j ≤ n ∧ Behaves sink todo m (.ends m₁) ∧ run sink j rest m₁ = .done m' := by
  induction n generalizing todo m with
  | zero => cases h
  | succ n ih =>
    cases todo with
    | nil => exact ⟨m, n + 1, Nat.le_refl _, .settles (n := 1) rfl, h⟩
    | cons stmt todo =>
      rw [List.cons_append, run, step_append] at h
      cases hs : step sink (stmt :: todo) m with
      | halt m₁ => exact absurd hs (step_cons_ne_halt sink stmt todo m m₁)
      | stop fault m₁ =>
        rw [hs] at h
        cases h
      | next todo₁ m₁ =>
        rw [hs] at h
        obtain ⟨m₂, j, hj, hfirst, hrest⟩ := ih h
        obtain ⟨k, hk⟩ := behaves_ends_iff.1 hfirst
        refine ⟨m₂, j, Nat.le_succ_of_le hj, behaves_ends_iff.2 ⟨k + 1, ?_⟩, hrest⟩
        rw [run, hs]
        exact hk

/-- The run of statements is that of what their first step leads to. -/
theorem behaves_ends_of_step (hs : step sink todo m = .next rest m₁)
    (h : Behaves sink rest m₁ (.ends m')) : Behaves sink todo m (.ends m') := by
  obtain ⟨k, hk⟩ := behaves_ends_iff.1 h
  refine behaves_ends_iff.2 ⟨k + 1, ?_⟩
  rw [run, hs]
  exact hk

/-! ## Rounds -/

/-- The body runs to its end `n` times, one run after the other, from the first machine to the second,
and before each of these runs the condition has the value `truth`. -/
inductive Repeats (sink : Sink) (body : Block) (cond : Cond) (truth : Bool) :
    Nat → Machine → Machine → Prop
  | none (m : Machine) : Repeats sink body cond truth 0 m m
  | once {n : Nat} {m m₁ m' : Machine} (htest : cond.holds m.store = .ok truth)
      (hbody : Behaves sink body.stmts m (.ends m₁)) (hrest : Repeats sink body cond truth n m₁ m') :
      Repeats sink body cond truth (n + 1) m m'

/-- The statement is the test of a loop: it is over at once when the condition does not have the value
`truth`, and else goes on with the body and with itself behind the body. -/
structure IsTest (sink : Sink) (head : Stmt) (body : Block) (cond : Cond) (truth : Bool) : Prop where
  finished : ∀ m, cond.holds m.store = .ok (!truth) → Behaves sink [head] m (.ends m)
  onward : ∀ m m', cond.holds m.store = .ok truth →
    Behaves sink (body.stmts ++ [head]) m (.ends m') → Behaves sink [head] m (.ends m')
  /-- Nothing else makes it end, and going on takes a step. -/
  run_cases : ∀ n m m', run sink n [head] m = .done m' →
    (cond.holds m.store = .ok (!truth) ∧ m' = m) ∨
    (cond.holds m.store = .ok truth ∧ ∃ j < n, run sink j (body.stmts ++ [head]) m = .done m')

variable {head : Stmt}

theorem IsTest.behaves_of_repeats (h : IsTest sink head body cond truth)
    (hrounds : Repeats sink body cond truth n m m') (hend : cond.holds m'.store = .ok (!truth)) :
    Behaves sink [head] m (.ends m') := by
  induction hrounds with
  | none m => exact h.finished m hend
  | once htest hbody hrest ih => exact h.onward _ _ htest (hbody.append (ih hend))

theorem IsTest.exists_repeats (h : IsTest sink head body cond truth)
    (hrun : run sink n [head] m = .done m') :
    ∃ k, Repeats sink body cond truth k m m' ∧ cond.holds m'.store = .ok (!truth) := by
  -- on the steps: the test behind the body has fewer of them, however many the body takes
  induction n using Nat.strongRecOn generalizing m with
  | ind n ih =>
    rcases h.run_cases n m m' hrun with ⟨hend, rfl⟩ | ⟨htest, j, hj, hbehind⟩
    · exact ⟨0, .none _, hend⟩
    · obtain ⟨m₁, i, hi, hbody, hrest⟩ := exists_run_of_append hbehind
      obtain ⟨k, hrounds, hend⟩ := ih i (Nat.lt_of_le_of_lt hi hj) hrest
      exact ⟨k + 1, .once htest hbody hrounds, hend⟩

/-- A test ends after rounds before which the condition has its value, and where it has not. -/
theorem IsTest.behaves_iff (h : IsTest sink head body cond truth) :
    Behaves sink [head] m (.ends m') ↔
      ∃ n, Repeats sink body cond truth n m m' ∧ cond.holds m'.store = .ok (!truth) := by
  constructor
  · intro hends
    obtain ⟨n, hn⟩ := behaves_ends_iff.1 hends
    exact h.exists_repeats hn
  · rintro ⟨n, hrounds, hend⟩
    exact h.behaves_of_repeats hrounds hend

/-! ## The two loops -/

theorem behaves_nil (sink : Sink) (m : Machine) : Behaves sink [] m (.ends m) :=
  .settles (n := 1) rfl

theorem eq_of_run_nil (h : run sink n [] m = .done m') : m' = m := by
  cases n with
  | zero => cases h
  | succ n =>
    cases h
    rfl

/-- A loop that tests in front of its body is its own test. -/
theorem isTest_loopWhile (sink : Sink) (cond : Cond) (body : Block) (bare : Bool) :
    IsTest sink (.loopWhile cond body bare) body cond true := by
  constructor
  case finished =>
    intro m hend
    apply behaves_ends_of_step _ (behaves_nil sink m)
    rw [step_loopWhile, hend]
    rfl
  case onward =>
    intro m m' htest hbehind
    apply behaves_ends_of_step _ hbehind
    rw [step_loopWhile, htest]
    rfl
  case run_cases =>
    intro n m m' hrun
    cases n with
    | zero => cases hrun
    | succ n =>
      rw [run, step_loopWhile] at hrun
      cases htest : cond.holds m.store with
      | error fault =>
        rw [htest] at hrun
        cases hrun
      | ok holds =>
        rw [htest] at hrun
        cases holds with
        | false => exact .inl ⟨rfl, eq_of_run_nil hrun⟩
        | true => exact .inr ⟨rfl, n, Nat.lt_succ_self n, hrun⟩

/-- The statement behind the body of a loop that tests there. It takes a step more to go on, in which the
loop puts its body in front again. -/
theorem isTest_behind (sink : Sink) (body : Block) (cond : Cond) (bare : Bool) :
    IsTest sink (.branch cond (.seq []) (.seq [.loopUntil body cond bare])) body cond false := by
  constructor
  case finished =>
    intro m hend
    apply behaves_ends_of_step _ (behaves_nil sink m)
    rw [step_branch, hend]
    rfl
  case onward =>
    intro m m' htest hbehind
    have hloop := behaves_ends_of_step (step_loopUntil sink [] m bare body cond) hbehind
    apply behaves_ends_of_step _ hloop
    rw [step_branch, htest]
    rfl
  case run_cases =>
    intro n m m' hrun
    cases n with
    | zero => cases hrun
    | succ n =>
      rw [run, step_branch] at hrun
      cases htest : cond.holds m.store with
      | error fault =>
        rw [htest] at hrun
        cases hrun
      | ok holds =>
        rw [htest] at hrun
        cases holds with
        | true => exact .inl ⟨rfl, eq_of_run_nil hrun⟩
        | false =>
          cases n with
          | zero => cases hrun
          | succ n => exact .inr ⟨rfl, n, by omega, hrun⟩

/-- A loop that tests behind its body ends where its test does, once its body has ended. -/
theorem behaves_loopUntil_iff :
    Behaves sink [.loopUntil body cond bare] m (.ends m') ↔
      ∃ n m₁, Behaves sink body.stmts m (.ends m₁) ∧ Repeats sink body cond false n m₁ m' ∧
        cond.holds m'.store = .ok true := by
  have htest := isTest_behind sink body cond bare
  constructor
  · intro h
    obtain ⟨n, hrun⟩ := behaves_ends_iff.1 h
    cases n with
    | zero => cases hrun
    | succ n =>
      rw [run, step_loopUntil] at hrun
      obtain ⟨m₁, j, -, hbody, hbehind⟩ := exists_run_of_append hrun
      obtain ⟨k, hrounds, hend⟩ := htest.exists_repeats hbehind
      exact ⟨k, m₁, hbody, hrounds, hend⟩
  · rintro ⟨n, m₁, hbody, hrounds, hend⟩
    have hbehind := hbody.append (htest.behaves_of_repeats hrounds hend)
    exact behaves_ends_of_step (step_loopUntil sink [] m bare body cond) hbehind

/-- What is known where a loop ends, whatever its parts are, on every sink and from every machine. A
loop that tests in front of its body ends where its condition does not hold, after rounds before each of
which it held; when it does not hold at the start, the loop ends there, and nothing has happened. A loop
that tests behind its body ends where its condition holds, after a first run of its body and `n` more,
before each of which it did not hold. -/
theorem loops_end_as_tested (sink : Sink) (cond : Cond) (body : Block) (bare : Bool)
    (m m' : Machine) :
    (Behaves sink [.loopWhile cond body bare] m (.ends m') ↔
      ∃ n, Repeats sink body cond true n m m' ∧ cond.holds m'.store = .ok false) ∧
    (cond.holds m.store = .ok false →
      ∀ b, Behaves sink [.loopWhile cond body bare] m b ↔ b = .ends m) ∧
    (Behaves sink [.loopUntil body cond bare] m (.ends m') ↔
      ∃ n m₁, Behaves sink body.stmts m (.ends m₁) ∧ Repeats sink body cond false n m₁ m' ∧
        cond.holds m'.store = .ok true) := by
  have hwhile := isTest_loopWhile sink cond body bare
  refine ⟨hwhile.behaves_iff, ?_, behaves_loopUntil_iff⟩
  intro hfalse b
  have hends := hwhile.finished m hfalse
  constructor
  · intro h
    exact h.unique hends
  · rintro rfl
    exact hends

/-- Print a variable and make it one less. -/
def countDown : Block :=
  .seq [.print (.var ⟨120, false⟩),
    .assign ⟨120, false⟩ (.binary .sub (.var ⟨120, false⟩) (.lit 1))]

/-- Both loops count from two to zero, and the first does nothing more when it is run again. -/
theorem loops_end_as_tested_countDown :
    ∃ more enough : Cond, ∃ start finish last : Machine,
      more = .compare .gt (.var ⟨120, false⟩) (.lit 0) ∧
      enough = .compare .le (.var ⟨120, false⟩) (.lit 0) ∧ start.store.fetch 120 = .ok 2 ∧
      finish.printed = #[2, 1] ∧ last.printed = #[2, 1] ∧
      Behaves .always [.loopWhile more countDown] start (.ends finish) ∧
      (∃ n, Repeats .always countDown more true n start finish) ∧
      Behaves .always [.loopWhile more countDown] finish (.ends finish) ∧
      Behaves .always [.loopUntil countDown enough] start (.ends last) ∧
      enough.holds last.store = .ok true := by
  have hstart : ∃ start finish last : Machine, start.store.fetch 120 = .ok 2 ∧
      finish.printed = #[2, 1] ∧ last.printed = #[2, 1] ∧
      Behaves .always [.loopWhile (.compare .gt (.var ⟨120, false⟩) (.lit 0)) countDown] start
        (.ends finish) ∧
      Behaves .always [.loopUntil countDown (.compare .le (.var ⟨120, false⟩) (.lit 0))] start
        (.ends last) :=
    ⟨{ store := ⟨Vector.replicate 52 2⟩ }, _, _, rfl, rfl, rfl, .settles (n := 9) rfl,
      .settles (n := 10) rfl⟩
  obtain ⟨start, finish, last, hx, hprinted, hprinted', hwhile, huntil⟩ := hstart
  obtain ⟨n, hrounds, hend⟩ := (loops_end_as_tested _ _ _ _ _ _).1.1 hwhile
  obtain ⟨k, m₁, -, -, hlast⟩ := (loops_end_as_tested _ _ _ _ _ _).2.2.1 huntil
  refine ⟨_, _, start, finish, last, rfl, rfl, hx, hprinted, hprinted', hwhile, ⟨n, hrounds⟩, ?_,
    huntil, hlast⟩
  exact ((loops_end_as_tested _ _ _ _ _ finish).2.1 hend _).2 rfl

end MiniLua

import MiniLua.Proofs.Behaviour

/-!
# Runs on a sink that closes

A step either leaves the sink alone, and is then the same on every sink, or is one write and nothing
else. So two runs on different sinks go through the same machines as long as the sinks give the same
replies. A sink that refuses write number `k` and all later ones therefore lets a run go on exactly as
on a sink that takes everything, up to the moment before that write, and stops it there: nothing is
assigned, printed or tested after it. A run with fewer writes does not notice.

## Delivered

- `step_quiet_or_write`: what a step has to do with the sink.
- `run_congr_sink`: runs on two sinks with the same replies.
- `Machine.Extends`, `run_always_extends`: the output of a run on a sink that takes everything.
- `BeforeWrite`, `exists_beforeWrite`: the moment before a write.
- `run_closingAt_of_unfinished`, `printed_eq_take`: how a run is stopped at that moment, and with what
  output.
-/

set_option autoImplicit false

namespace MiniLua

/-! ## Steps and writes -/

/-- The second machine has printed what the first has, in as many writes. -/
def Machine.SameOutput (m m' : Machine) : Prop :=
  m'.printed = m.printed ∧ m'.writes = m.writes

/-- An assignment prints nothing. -/
theorem sameOutput_assignStep (letter : UInt8) (value : Int32) (todo : List Stmt) (m : Machine) :
    m.SameOutput (assignStep letter value todo m).machine := by
  unfold assignStep
  cases m.store.assign letter value with
  | error cause => exact ⟨rfl, rfl⟩
  | ok store => exact ⟨rfl, rfl⟩

/-- A value that is waited for prints nothing. -/
theorem sameOutput_after {α : Type} {m : Machine} {k : α → Step} (result : Except Fault α)
    (hk : ∀ value, m.SameOutput (k value).machine) :
    m.SameOutput (Step.after m result k).machine := by
  cases result with
  | error fault => exact ⟨rfl, rfl⟩
  | ok value => exact hk value

/-- A step is the same on every sink and prints nothing, or it is a single write. -/
theorem step_quiet_or_write (todo : List Stmt) (m : Machine) :
    (∃ next : Step, (∀ sink, step sink todo m = next) ∧ m.SameOutput next.machine) ∨
    ∃ value rest, ∀ sink, step sink todo m = write sink value rest m := by
  have hsame : m.SameOutput m := ⟨rfl, rfl⟩
  cases todo with
  | nil => exact .inl ⟨.halt m, fun _ => rfl, hsame⟩
  | cons stmt todo =>
    cases stmt with
    | missing => exact .inl ⟨.stop .missingStmt m, fun _ => rfl, hsame⟩
    | assign target value bare =>
      refine .inl ⟨_, fun sink => step_assign sink todo m bare target value, ?_⟩
      exact sameOutput_after _ fun v => sameOutput_assignStep target.letter v todo m
    | print value bare =>
      cases hvalue : value.eval m.store with
      | error fault =>
        refine .inl ⟨.stop fault m, ?_, hsame⟩
        intro sink
        rw [step_print, hvalue]
        rfl
      | ok v =>
        refine .inr ⟨v, todo, ?_⟩
        intro sink
        rw [step_print, hvalue]
        rfl
    | branch cond onTrue onFalse bare =>
      refine .inl ⟨_, fun sink => step_branch sink todo m bare cond onTrue onFalse, ?_⟩
      exact sameOutput_after _ fun _ => hsame
    | loopWhile cond body bare =>
      refine .inl ⟨_, fun sink => step_loopWhile sink todo m bare cond body, ?_⟩
      exact sameOutput_after _ fun _ => hsame
    | loopUntil body cond bare =>
      exact .inl ⟨_, fun sink => step_loopUntil sink todo m bare body cond, hsame⟩

/-- A write is counted, whether it is taken or refused. -/
theorem writes_write (sink : Sink) (value : Int32) (todo : List Stmt) (m : Machine) :
    (write sink value todo m).machine.writes = m.writes + 1 := by
  unfold write
  cases sink.reply (m.writes + 1) with
  | none => rfl
  | some reason => rfl

/-- A run makes its writes on top of those that were made before it. -/
theorem le_writes_run (sink : Sink) (todo : List Stmt) (m : Machine) (n : Nat) :
    m.writes ≤ (run sink n todo m).machine.writes := by
  refine run_keeps_machine (M := fun m' => m.writes ≤ m'.writes) ?_ (Nat.le_refl _) n
  intro todo m' hle
  rcases step_quiet_or_write todo m' with ⟨next, hnext, hquiet⟩ | ⟨value, rest, hwrite⟩
  · rw [hnext, hquiet.2]
    exact hle
  · rw [hwrite, writes_write]
    omega

/-- A longer run has made at least as many writes. -/
theorem writes_run_le_add (sink : Sink) (todo : List Stmt) (m : Machine) (n k : Nat) :
    (run sink n todo m).machine.writes ≤ (run sink (n + k) todo m).machine.writes := by
  rw [run_add]
  cases run sink n todo m with
  | done m' => exact Nat.le_refl _
  | stopped fault m' => exact Nat.le_refl _
  | unfinished todo' m' => exact le_writes_run sink todo' m' k

/-! ## Two sinks -/

/-- As long as two sinks are asked about writes to which they give the same replies, runs on them
are the same. -/
theorem run_congr_sink {sink sink' : Sink} {k : Nat}
    (hreply : ∀ i, i < k → sink.reply i = sink'.reply i) {todo : List Stmt} {m : Machine} {n : Nat}
    (hwrites : (run sink n todo m).machine.writes < k) :
    run sink' n todo m = run sink n todo m := by
  -- from the front: the first step is the same on both sinks, and the rest of the run by induction
  induction n generalizing todo m with
  | zero => rfl
  | succ n ih =>
    have hstep : step sink' todo m = step sink todo m := by
      rcases step_quiet_or_write todo m with ⟨next, hnext, -⟩ | ⟨value, rest, hwrite⟩
      · rw [hnext, hnext]
      · -- the write of the first step is counted at the end of the run
        have hle := writes_run_le_add sink todo m 1 n
        rw [machine_run_one, hwrite, writes_write, Nat.add_comm 1 n] at hle
        have hlt : m.writes + 1 < k := Nat.lt_of_le_of_lt hle hwrites
        rw [hwrite, hwrite, write, write, hreply _ hlt]
    rw [run] at hwrites
    rw [run, run, hstep]
    cases hs : step sink todo m with
    | halt m' => rfl
    | next todo' m' =>
      rw [hs] at hwrites
      exact ih hwrites
    | stop fault m' => rfl

/-- A sink that closes takes all writes before that one. -/
theorem reply_always_eq_closingAt {k i : Nat} (reason : String) (hi : i < k) :
    Sink.always.reply i = (Sink.closingAt k reason).reply i := by
  have hopen : ¬ (k ≠ 0 ∧ k ≤ i) := by omega
  simp only [Sink.always, Sink.closingAt, if_neg hopen]

/-! ## The output of a run that is never refused -/

/-- The second machine has printed more numbers than the first, one in each write. -/
def Machine.Extends (m m' : Machine) : Prop :=
  ∃ more, m'.printed.toList = m.printed.toList ++ more ∧ m'.writes = m.writes + more.length

/-- On a sink that takes everything, the output only grows. -/
theorem run_always_extends (todo : List Stmt) (m : Machine) (n : Nat) :
    m.Extends (run .always n todo m).machine := by
  refine run_keeps_machine (M := m.Extends) ?_ ⟨[], by simp, by simp⟩ n
  rintro todo m' ⟨more, hprinted, hwrites⟩
  rcases step_quiet_or_write todo m' with ⟨next, hnext, hquiet⟩ | ⟨value, rest, hwrite⟩
  · refine ⟨more, ?_, ?_⟩
    · rw [hnext, hquiet.1, hprinted]
    · rw [hnext, hquiet.2, hwrites]
  · refine ⟨more ++ [value], ?_, ?_⟩
    · rw [hwrite]
      show (m'.printed.push value).toList = _
      rw [Array.toList_push, hprinted, List.append_assoc]
    · rw [hwrite, writes_write, hwrites, List.length_append, List.length_singleton, Nat.add_assoc]

/-- The machine of the run at the moment before write number `k`: fewer writes have been made, and
the next step makes that one. -/
def BeforeWrite (sink : Sink) (todo : List Stmt) (m : Machine) (k : Nat) (before : Machine) : Prop :=
  ∃ n todo', run sink n todo m = .unfinished todo' before ∧ before.writes + 1 = k ∧
    (run sink (n + 1) todo m).machine.writes = k

/-- A run that has made write number `k` was at the moment before it, after fewer steps, and the next
step was a write. -/
theorem exists_beforeWrite {todo : List Stmt} {m : Machine} {k n : Nat} (hstart : m.writes < k)
    (hwrites : k ≤ (run .always n todo m).machine.writes) :
    ∃ j todo' before value rest, j < n ∧ run .always j todo m = .unfinished todo' before ∧
      before.writes + 1 = k ∧ ∀ sink, step sink todo' before = write sink value rest before := by
  -- from the back: write number `k` was made by the last step, or already before it
  induction n with
  | zero => exact absurd hwrites (Nat.not_le_of_lt hstart)
  | succ n ih =>
    by_cases hearlier : k ≤ (run .always n todo m).machine.writes
    · obtain ⟨j, todo', before, value, rest, hj, h⟩ := ih hearlier
      exact ⟨j, todo', before, value, rest, Nat.lt_succ_of_lt hj, h⟩
    · rw [run_add] at hwrites
      cases hrun : run .always n todo m with
      | unfinished todo' before =>
        rw [hrun] at hearlier hwrites
        have hbefore : before.writes < k := Nat.lt_of_not_le hearlier
        have hafter : k ≤ (step .always todo' before).machine.writes := by
          rw [← machine_run_one]
          exact hwrites
        rcases step_quiet_or_write todo' before with ⟨next, hnext, hquiet⟩ | ⟨value, rest, hwrite⟩
        -- a step that is no write leaves the number of writes below `k`
        · rw [hnext, hquiet.2] at hafter
          omega
        · rw [hwrite, writes_write] at hafter
          exact ⟨n, todo', before, value, rest, Nat.lt_succ_self n, hrun, by omega, hwrite⟩
      -- a run that was over makes no more writes
      | _ =>
        rw [hrun] at hearlier hwrites
        exact absurd hwrites hearlier

/-- A sink that closes refuses the write at which it closes. -/
theorem write_closingAt {k : Nat} {m : Machine} (hk : m.writes + 1 = k) (reason : String)
    (value : Int32) (todo : List Stmt) :
    write (.closingAt k reason) value todo m =
      .stop (.refusedWrite reason) { m with writes := k } := by
  have hclosed : k ≠ 0 ∧ k ≤ k := by omega
  have hreply : (Sink.closingAt k reason).reply (m.writes + 1) = some reason := by
    rw [hk]
    simp only [Sink.closingAt, if_pos hclosed]
  rw [write, hreply, hk]

/-- The report of a refused write names the write and the reason of the sink. -/
theorem text_refusedWrite (reason : String) :
    (Fault.refusedWrite reason).failure.text = "print: " ++ reason := by
  show "print" ++ ": " ++ reason = _
  have hlabel : "print" ++ ": " = "print: " := by decide
  rw [hlabel]

/-! ## The run on a sink that closes -/

section Closing

variable {todo todo' : List Stmt} {m before : Machine} {k j : Nat}

/-- A run that has come to the moment before write number `k` is stopped by a sink that closes there,
whatever steps it has left. -/
theorem run_closingAt_of_unfinished (reason : String)
    (hrun : run .always j todo m = .unfinished todo' before) (hbefore : before.writes + 1 = k)
    {value : Int32} {rest : List Stmt}
    (hwrite : ∀ sink, step sink todo' before = write sink value rest before) (r : Nat) :
    run (.closingAt k reason) (j + (r + 1)) todo m =
      .stopped (.refusedWrite reason) { before with writes := k } := by
  have hsame : run (.closingAt k reason) j todo m = .unfinished todo' before := by
    rw [← hrun]
    apply run_congr_sink fun i hi => reply_always_eq_closingAt reason hi
    rw [hrun]
    show before.writes < k
    omega
  rw [run_add, hsame]
  show run (.closingAt k reason) (r + 1) todo' before = _
  rw [run, hwrite, write_closingAt hbefore]

/-- The output of a run from an empty one, at a moment before its end, is the start of its output. -/
theorem printed_eq_take {s : Store}
    (hrun : run .always j todo { store := s } = .unfinished todo' before) (r : Nat) :
    before.printed.size = before.writes ∧ before.printed.toList =
      (run .always (j + r) todo { store := s }).machine.printed.toList.take before.writes := by
  obtain ⟨first, hfirst, hcount⟩ := run_always_extends todo { store := s } j
  obtain ⟨more, hmore, -⟩ := run_always_extends todo' before r
  rw [hrun] at hfirst hcount
  have hlength : before.printed.toList.length = before.writes := by
    rw [show before.printed.toList = first from hfirst]
    change before.writes = 0 + first.length at hcount
    omega
  refine ⟨hlength, ?_⟩
  rw [run_add, hrun]
  show _ = (run .always r todo' before).machine.printed.toList.take before.writes
  rw [hmore, ← hlength, List.take_left]

end Closing

/-- A run that makes `k` writes when all are taken is stopped at write number `k` by a sink that
closes there: with the refusal as its fault, the first `k - 1` numbers as its output, and the store of
the moment before that write. A run with fewer writes is the same on both sinks, at every limit. -/
theorem Program.run_closingAt (p : Program) (s : Store) {k : Nat} (hk : 1 ≤ k) (reason : String) :
    (Fault.refusedWrite reason).failure.text = "print: " ++ reason ∧
    (∀ n, k ≤ (run .always n p.body.stmts { store := s }).machine.writes →
      ∃ before, BeforeWrite .always p.body.stmts { store := s } k before ∧
        before.printed.toList =
          (run .always n p.body.stmts { store := s }).machine.printed.toList.take (k - 1) ∧
        before.printed.size = k - 1 ∧
        run (.closingAt k reason) n p.body.stmts { store := s } =
          .stopped (.refusedWrite reason) { before with writes := k }) ∧
    ((∀ n, (run .always n p.body.stmts { store := s }).machine.writes < k) →
      ∀ n, run (.closingAt k reason) n p.body.stmts { store := s } =
        run .always n p.body.stmts { store := s }) := by
  have hreply : ∀ i, i < k → Sink.always.reply i = (Sink.closingAt k reason).reply i :=
    fun i hi => reply_always_eq_closingAt reason hi
  refine ⟨text_refusedWrite reason, ?_, fun hfew n => run_congr_sink hreply (hfew n)⟩
  intro n hwrites
  obtain ⟨j, todo, before, value, rest, hj, hrun, hbefore, hwrite⟩ :=
    exists_beforeWrite (m := { store := s }) hk hwrites
  -- the steps up to the write, the write, and what the run goes on with when it is taken
  obtain ⟨r, rfl⟩ : ∃ r, n = j + (r + 1) := ⟨n - j - 1, by omega⟩
  obtain ⟨hsize, htake⟩ := printed_eq_take hrun (r + 1)
  have hcount : before.writes = k - 1 := by omega
  rw [hcount] at hsize htake
  refine ⟨before, ⟨j, todo, hrun, hbefore, ?_⟩, htake, hsize,
    run_closingAt_of_unfinished reason hrun hbefore hwrite r⟩
  rw [run_succ_of_unfinished hrun, machine_run_one, hwrite, writes_write, hbefore]

/-- The count prints two numbers. A sink that closes at the second stops it behind the first, and one
that closes at the third is never asked. -/
theorem Program.run_closingAt_countUp :
    2 ≤ (run .always 9 countUp.body.stmts { store := .empty }).machine.writes ∧
    (∃ before, BeforeWrite .always countUp.body.stmts { store := .empty } 2 before ∧
      before.printed.toList = [-2] ∧
      run (.closingAt 2 "full") 9 countUp.body.stmts { store := .empty } =
        .stopped (.refusedWrite "full") { before with writes := 2 }) ∧
    ∀ n, run (.closingAt 3 "full") n countUp.body.stmts { store := .empty } =
      run .always n countUp.body.stmts { store := .empty } := by
  have hwrites : 2 ≤ (run .always 9 countUp.body.stmts { store := .empty }).machine.writes := by
    decide
  obtain ⟨-, hclosed, -⟩ := Program.run_closingAt countUp .empty (k := 2) (by decide) "full"
  obtain ⟨-, -, hfew⟩ := Program.run_closingAt countUp .empty (k := 3) (by decide) "full"
  obtain ⟨before, hbefore, hprinted, -, hrun⟩ := hclosed 9 hwrites
  refine ⟨hwrites, ⟨before, hbefore, hprinted, hrun⟩, hfew ?_⟩
  intro n
  -- the count is over after nine steps, with two writes
  have hle := writes_run_le_add .always countUp.body.stmts { store := .empty } n 9
  rw [Nat.add_comm, run_add] at hle
  exact Nat.lt_of_le_of_lt hle (Nat.lt_succ_self 2)

end MiniLua

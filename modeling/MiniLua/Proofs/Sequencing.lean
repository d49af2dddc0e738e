import MiniLua.Proofs.Behaviour

/-!
# One run after another

Statements that stand behind others wait until these are done: a run of both is a run of the first
ones followed by a run of the second ones, on the machine that the first ones left. And a run does
not look at what was printed before it, so on a sink that takes every write it does the same behind
any output.

## Delivered

- `Behaves.exists_run_done`: a run that ends is over from some limit on.
- `step_append`, `Behaves.append`: statements behind others, in one step and in a whole run.
- `Machine.Behind`, `step_behind`, `run_behind`: a run behind an output, in one step and as a whole.
-/

set_option autoImplicit false

namespace MiniLua

/-! ## Ends -/

/-- An outcome that shows an end is one. -/
theorem Outcome.eq_done_of_behaviour? {o : Outcome} {m : Machine}
    (h : o.behaviour? = some (.ends m)) : o = .done m := by
  cases o with
  | done m' =>
    cases h
    rfl
  | stopped fault m' => cases h
  | unfinished todo m' => cases h

/-- A run that ends is over from some limit on. -/
theorem Behaves.exists_run_done {sink : Sink} {todo : List Stmt} {m m' : Machine}
    (h : Behaves sink todo m (.ends m')) : ∃ n, ∀ k, run sink (n + k) todo m = .done m' := by
  cases h with
  | settles h =>
    rename_i n
    exact ⟨n, fun k => Outcome.eq_done_of_behaviour? (behaviour?_run_add h k)⟩

/-! ## Statements behind others -/

/-- The step with more statements behind those that it leaves. -/
def Step.followedBy (rest : List Stmt) : Step → Step
  | .next todo m => .next (todo ++ rest) m
  | s => s

/-- A step that waits for a value is followed by what follows it for each value. -/
theorem Step.followedBy_after {α : Type} (rest : List Stmt) (m : Machine) (result : Except Fault α)
    (k : α → Step) :
    (Step.after m result k).followedBy rest =
      .after m result fun value => (k value).followedBy rest := by
  cases result with
  | error fault => rfl
  | ok value => rfl

theorem assignStep_append (letter : UInt8) (value : Int32) (todo rest : List Stmt) (m : Machine) :
    assignStep letter value (todo ++ rest) m = (assignStep letter value todo m).followedBy rest := by
  unfold assignStep
  cases m.store.assign letter value with
  | error cause => rfl
  | ok store => rfl

theorem write_append (sink : Sink) (value : Int32) (todo rest : List Stmt) (m : Machine) :
    write sink value (todo ++ rest) m = (write sink value todo m).followedBy rest := by
  unfold write
  cases sink.reply (m.writes + 1) with
  | none => rfl
  | some reason => rfl

/-- A step on the first of some statements leaves those behind them as they are. -/
theorem step_append (sink : Sink) (stmt : Stmt) (todo rest : List Stmt) (m : Machine) :
    step sink (stmt :: (todo ++ rest)) m = (step sink (stmt :: todo) m).followedBy rest := by
  cases stmt with
  | missing => rfl
  | assign target value bare =>
    rw [step_assign, step_assign, Step.followedBy_after]
    simp only [assignStep_append]
  | print value bare =>
    rw [step_print, step_print, Step.followedBy_after]
    simp only [write_append]
  | branch cond onTrue onFalse bare =>
    rw [step_branch, step_branch, Step.followedBy_after]
    simp only [Step.followedBy, List.append_assoc]
  | loopWhile cond body bare =>
    rw [step_loopWhile, step_loopWhile, Step.followedBy_after]
    congr 1
    funext holds
    cases holds with
    | true => simp [Step.followedBy]
    | false => rfl
  | loopUntil body cond bare =>
    rw [step_loopUntil, step_loopUntil]
    simp [Step.followedBy]

/-- A step that waits for a value is no halt when it is none for any value. -/
theorem Step.after_ne_halt {α : Type} {m m' : Machine} {k : α → Step} (result : Except Fault α)
    (hk : ∀ value, k value ≠ .halt m') : Step.after m result k ≠ .halt m' := by
  cases result with
  | error fault =>
    intro h
    cases h
  | ok value => exact hk value

/-- As long as there is a statement, the run is not over. -/
theorem step_cons_ne_halt (sink : Sink) (stmt : Stmt) (todo : List Stmt) (m m' : Machine) :
    step sink (stmt :: todo) m ≠ .halt m' := by
  cases stmt with
  | missing =>
    intro h
    cases h
  | assign target value bare =>
    rw [step_assign]
    apply Step.after_ne_halt
    intro v
    unfold assignStep
    split <;> simp
  | print value bare =>
    rw [step_print]
    apply Step.after_ne_halt
    intro v
    unfold write
    split <;> simp
  | branch cond onTrue onFalse bare =>
    rw [step_branch]
    apply Step.after_ne_halt
    simp
  | loopWhile cond body bare =>
    rw [step_loopWhile]
    apply Step.after_ne_halt
    simp
  | loopUntil body cond bare =>
    rw [step_loopUntil]
    simp

section Append

variable {sink : Sink} {todo rest : List Stmt} {m m' : Machine}

/-- Once the first statements are done, the run of all of them is a run of those behind. -/
theorem exists_run_append {n : Nat} (h : run sink n todo m = .done m') (rest : List Stmt) :
    ∃ j, ∀ k, run sink (j + k) (todo ++ rest) m = run sink k rest m' := by
  -- on the steps of the first run; its last step finds no statement left and is not made here
  induction n generalizing todo m with
  | zero => cases h
  | succ n ih =>
    rw [run] at h
    cases todo with
    | nil =>
      cases h
      refine ⟨0, ?_⟩
      intro k
      rw [Nat.zero_add, List.nil_append]
    | cons stmt todo =>
      cases hs : step sink (stmt :: todo) m with
      | halt m₁ => exact absurd hs (step_cons_ne_halt sink stmt todo m m₁)
      | stop fault m₁ =>
        rw [hs] at h
        cases h
      | next todo₁ m₁ =>
        rw [hs] at h
        obtain ⟨j, hj⟩ := ih h
        refine ⟨j + 1, ?_⟩
        intro k
        rw [Nat.add_right_comm, run, List.cons_append, step_append, hs]
        exact hj k

/-- Statements behind others go on where these end. -/
theorem Behaves.append {b : Behaviour} (h : Behaves sink todo m (.ends m'))
    (hrest : Behaves sink rest m' b) : Behaves sink (todo ++ rest) m b := by
  obtain ⟨n, hn⟩ := h.exists_run_done
  obtain ⟨j, hj⟩ := exists_run_append (hn 0) rest
  cases hrest with
  | settles hb =>
    rename_i k
    exact .settles (n := j + k) (by rw [hj, hb])
  | diverges hnone =>
    refine .diverges ?_
    intro n
    cases hb : (run sink n (todo ++ rest) m).behaviour? with
    | none => rfl
    | some b =>
      -- a run of all the statements that was over would be so with more steps too
      have hlater := behaviour?_run_add hb j
      rw [Nat.add_comm, hj, hnone] at hlater
      cases hlater

end Append

/-! ## Behind an output -/

/-- The second machine has the variables of the first, and printed `out` before what the first has
printed. -/
structure Machine.Behind (out : List Int32) (m m' : Machine) : Prop where
  store : m'.store = m.store
  printed : m'.printed.toList = out ++ m.printed.toList

section Behind

variable {out : List Int32} {todo : List Stmt} {m m' : Machine}

/-- A step does the same behind an output. -/
theorem step_behind (todo : List Stmt) (h : m.Behind out m') :
    Step.Alike Eq (Machine.Behind out) (step .always todo m) (step .always todo m') := by
  cases todo with
  | nil => exact .halt h
  | cons stmt todo =>
    cases stmt with
    | missing => exact .stop _ h
    | assign target value bare =>
      rw [step_assign, step_assign, h.store]
      apply Step.Alike.after h
      intro v
      unfold assignStep
      rw [h.store]
      cases m.store.assign target.letter v with
      | error cause => exact .stop _ h
      | ok store => exact .next rfl ⟨rfl, h.printed⟩
    | print value bare =>
      rw [step_print, step_print, h.store]
      apply Step.Alike.after h
      intro v
      refine .next rfl ⟨h.store, ?_⟩
      simp [h.printed]
    | branch cond onTrue onFalse bare =>
      rw [step_branch, step_branch, h.store]
      exact .after h _ fun holds => .next rfl h
    | loopWhile cond body bare =>
      rw [step_loopWhile, step_loopWhile, h.store]
      exact .after h _ fun holds => .next rfl h
    | loopUntil body cond bare =>
      rw [step_loopUntil, step_loopUntil]
      exact .next rfl h

/-- A run does the same behind an output, and what it prints stands behind it. -/
theorem run_behind (todo : List Stmt) (h : m.Behind out m') (n : Nat) :
    Outcome.Alike (Machine.Behind out) (run .always n todo m) (run .always n todo m') := by
  refine run_alike (T := Eq) ?_ rfl h n
  rintro todo _ m m' rfl h
  exact step_behind todo h

/-- A run that is done is done behind an output too. -/
theorem exists_run_done_behind (h : m.Behind out m') {n : Nat} {e : Machine}
    (hdone : run .always n todo m = .done e) :
    ∃ e', run .always n todo m' = .done e' ∧ e.Behind out e' := by
  have halike := run_behind todo h n
  rw [hdone] at halike
  generalize run .always n todo m' = o at halike
  cases halike with
  | done hbehind => exact ⟨_, rfl, hbehind⟩

end Behind

end MiniLua

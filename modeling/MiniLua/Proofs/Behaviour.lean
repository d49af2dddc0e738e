import MiniLua.Exec.Run

/-!
# Behaviours of runs

A run counts its steps, so one that was cut short does not say what would have come of it. The
behaviour of a run is what it does when it gets all the steps that it asks for: it ends by itself, a
fault stops it, or it goes on for ever. Every run has exactly one behaviour.

Two runs are compared step by step. When one step keeps two runs alike, they stay alike for any
number of steps, and then their behaviours are alike too and they print the same.

## Delivered

- `step_assign`, `step_print`, `step_branch`, `step_loopWhile`, `step_loopUntil`: the step of each
  statement; what a fault does is said once, in `Step.after`.
- `Behaviour`, `Behaves`, `Prints`: what a run does when its steps are not limited.
- `run_add`: a run goes on from where a shorter one was cut.
- `Behaves.unique`, `exists_behaves`: the behaviour of a run.
- `run_alike`: what one step keeps between two runs, whole runs keep.
- `Behaves.alike`, `prints_iff_of_alike`, `sameBehaviour_of_alike`: runs that are alike at every limit
  behave alike.
- `sameBehaviour_of_meeting`: so do runs that are alike at limits of their own.
- `run_keeps`, `run_keeps_machine`: what one step keeps, a whole run keeps.
- `countUp`: a program with a loop, an output and a crash.
-/

set_option autoImplicit false

namespace MiniLua

/-! ## The step of each statement -/

/-- Go on with a value, or stop at the fault that came in its place. -/
def Step.after {α : Type} (m : Machine) (result : Except Fault α) (k : α → Step) : Step :=
  match result with
  | .error fault => .stop fault m
  | .ok value => k value

/-- The step of an assignment whose value is known. -/
def assignStep (letter : UInt8) (value : Int32) (todo : List Stmt) (m : Machine) : Step :=
  match m.store.assign letter value with
  | .error cause => .stop (.misuse cause) m
  | .ok store => .next todo { m with store := store }

section Statements

variable (sink : Sink) (todo : List Stmt) (m : Machine) (bare : Bool)

theorem step_assign (target : Ident) (value : Expr) :
    step sink (.assign target value bare :: todo) m =
      .after m (value.eval m.store) fun v => assignStep target.letter v todo m := by
  rw [step]
  cases value.eval m.store with
  | error fault => rfl
  | ok v => rfl

theorem step_print (value : Expr) :
    step sink (.print value bare :: todo) m =
      .after m (value.eval m.store) fun v => write sink v todo m := by
  rw [step]
  cases value.eval m.store with
  | error fault => rfl
  | ok v => rfl

theorem step_branch (cond : Cond) (onTrue onFalse : Block) :
    step sink (.branch cond onTrue onFalse bare :: todo) m =
      .after m (cond.holds m.store) fun holds =>
        .next ((if holds then onTrue.stmts else onFalse.stmts) ++ todo) m := by
  rw [step]
  rcases cond.holds m.store with fault | holds
  · rfl
  · cases holds <;> rfl

theorem step_loopWhile (cond : Cond) (body : Block) :
    step sink (.loopWhile cond body bare :: todo) m =
      .after m (cond.holds m.store) fun holds =>
        .next (if holds then body.stmts ++ .loopWhile cond body bare :: todo else todo) m := by
  rw [step]
  rcases cond.holds m.store with fault | holds
  · rfl
  · cases holds <;> rfl

theorem step_loopUntil (body : Block) (cond : Cond) :
    step sink (.loopUntil body cond bare :: todo) m =
      .next (body.stmts ++ .branch cond (.seq []) (.seq [.loopUntil body cond bare]) :: todo) m :=
  rfl

end Statements

/-! ## Runs without a limit -/

/-- What a run does when its steps are not limited. -/
inductive Behaviour where
  /-- It ends by itself. -/
  | ends (m : Machine)
  /-- A fault stops it. -/
  | stops (fault : Fault) (m : Machine)
  /-- It never ends. -/
  | diverges

namespace Outcome

/-- The behaviour that an outcome shows; a run that was cut short shows none. -/
def behaviour? : Outcome → Option Behaviour
  | .done m => some (.ends m)
  | .stopped fault m => some (.stops fault m)
  | .unfinished _ _ => none

/-- At most `n` more steps for a run that was cut short. -/
def resume (sink : Sink) (n : Nat) : Outcome → Outcome
  | .unfinished todo m => run sink n todo m
  | o => o

end Outcome

/-- The run of the statements does this when its steps are not limited. -/
inductive Behaves (sink : Sink) (todo : List Stmt) (m : Machine) : Behaviour → Prop
  | settles {n : Nat} {b : Behaviour} (h : (run sink n todo m).behaviour? = some b) :
      Behaves sink todo m b
  | diverges (h : ∀ n, (run sink n todo m).behaviour? = none) : Behaves sink todo m .diverges

/-- At some moment the run has printed at least these numbers. A run that never ends is known by
them, as it has no last output. -/
def Prints (sink : Sink) (todo : List Stmt) (m : Machine) (out : List Int32) : Prop :=
  ∃ n, out <+: (run sink n todo m).machine.printed.toList

/-- Two lists of statements that cannot be told apart by running them. -/
structure SameBehaviour (sink : Sink) (todo todo' : List Stmt) (m : Machine) : Prop where
  behaves : ∀ b, Behaves sink todo m b ↔ Behaves sink todo' m b
  prints : ∀ out, Prints sink todo m out ↔ Prints sink todo' m out

section Limits

variable {sink : Sink} {todo todo' : List Stmt} {m m' : Machine}

/-- A run goes on from where a shorter one was cut. -/
theorem run_add (n k : Nat) :
    run sink (n + k) todo m = (run sink n todo m).resume sink k := by
  -- on the steps of the shorter run, whose end is where the statements and the machine have got to
  induction n generalizing todo m with
  | zero =>
    rw [Nat.zero_add]
    rfl
  | succ n ih =>
    rw [Nat.add_right_comm, run, run]
    cases step sink todo m with
    | halt m' => rfl
    | next todo' m' => exact ih
    | stop fault m' => rfl

/-- The step after a run that was cut short. -/
theorem run_succ_of_unfinished {n : Nat} (h : run sink n todo m = .unfinished todo' m') :
    run sink (n + 1) todo m = run sink 1 todo' m' := by
  rw [run_add, h]
  rfl

/-- Once a run is over, more steps change nothing. -/
theorem behaviour?_run_add {n : Nat} {b : Behaviour}
    (h : (run sink n todo m).behaviour? = some b) (k : Nat) :
    (run sink (n + k) todo m).behaviour? = some b := by
  rw [run_add]
  cases ho : run sink n todo m with
  | unfinished todo' m' =>
    rw [ho] at h
    cases h
  | _ =>
    rw [ho] at h
    exact h

/-- A run has one behaviour at most. -/
theorem Behaves.unique {b b' : Behaviour} (h : Behaves sink todo m b)
    (h' : Behaves sink todo m b') : b = b' := by
  cases h with
  | settles h =>
    rename_i n
    cases h' with
    | settles h' =>
      rename_i n'
      -- both limits are within their sum, where the run shows both behaviours
      have hn := behaviour?_run_add h n'
      have hn' := behaviour?_run_add h' n
      rw [Nat.add_comm, hn] at hn'
      exact Option.some.inj hn'
    | diverges h' =>
      rw [h' n] at h
      cases h
  | diverges h =>
    cases h' with
    | settles h' =>
      rename_i n'
      rw [h n'] at h'
      cases h'
    | diverges _ => rfl

/-- Every run has a behaviour. -/
theorem exists_behaves (sink : Sink) (todo : List Stmt) (m : Machine) :
    ∃ b, Behaves sink todo m b := by
  by_cases h : ∀ n, (run sink n todo m).behaviour? = none
  · exact ⟨.diverges, .diverges h⟩
  · obtain ⟨n, hn⟩ := Classical.not_forall.1 h
    obtain ⟨b, hb⟩ := Option.ne_none_iff_exists'.1 hn
    exact ⟨b, .settles hb⟩

end Limits

/-! ## Runs that are alike -/

/-- Two steps of one kind, with one fault, and related in what they lead to. -/
inductive Step.Alike (T : List Stmt → List Stmt → Prop) (R : Machine → Machine → Prop) :
    Step → Step → Prop
  | halt {m m' : Machine} (h : R m m') : Step.Alike T R (.halt m) (.halt m')
  | next {todo todo' : List Stmt} {m m' : Machine} (ht : T todo todo') (h : R m m') :
      Step.Alike T R (.next todo m) (.next todo' m')
  | stop {m m' : Machine} (fault : Fault) (h : R m m') :
      Step.Alike T R (.stop fault m) (.stop fault m')

/-- Steps that wait for the same value are alike when they are alike for each value. -/
theorem Step.Alike.after {T : List Stmt → List Stmt → Prop} {R : Machine → Machine → Prop}
    {α : Type} {m m' : Machine} {k k' : α → Step} (h : R m m') (result : Except Fault α)
    (hk : ∀ value, Step.Alike T R (k value) (k' value)) :
    Step.Alike T R (.after m result k) (.after m' result k') := by
  cases result with
  | error fault => exact .stop fault h
  | ok value => exact hk value

/-- Two outcomes of one kind, with one fault, on related machines. -/
inductive Outcome.Alike (R : Machine → Machine → Prop) : Outcome → Outcome → Prop
  | done {m m' : Machine} (h : R m m') : Outcome.Alike R (.done m) (.done m')
  | stopped {m m' : Machine} (fault : Fault) (h : R m m') :
      Outcome.Alike R (.stopped fault m) (.stopped fault m')
  | unfinished {m m' : Machine} (todo todo' : List Stmt) (h : R m m') :
      Outcome.Alike R (.unfinished todo m) (.unfinished todo' m')

/-- Two behaviours of one kind, with one fault, and with related machines at their ends. -/
inductive Behaviour.Alike (R : Machine → Machine → Prop) : Behaviour → Behaviour → Prop
  | ends {m m' : Machine} (h : R m m') : Behaviour.Alike R (.ends m) (.ends m')
  | stops {m m' : Machine} (fault : Fault) (h : R m m') :
      Behaviour.Alike R (.stops fault m) (.stops fault m')
  | diverges : Behaviour.Alike R .diverges .diverges

/-- Equal behaviours are those that are alike with the same machine. -/
theorem Behaviour.Alike.eq {b b' : Behaviour} (h : Behaviour.Alike Eq b b') : b = b' := by
  cases h with
  | ends h => rw [h]
  | stops fault h => rw [h]
  | diverges => rfl

/-- The machines of outcomes that are alike are related. -/
theorem Outcome.Alike.machine {R : Machine → Machine → Prop} {o o' : Outcome}
    (h : Outcome.Alike R o o') : R o.machine o'.machine := by
  cases h with
  | done h => exact h
  | stopped fault h => exact h
  | unfinished todo todo' h => exact h

/-- Outcomes that are alike show behaviours that are alike, or both show none. -/
theorem Outcome.Alike.behaviour? {R : Machine → Machine → Prop} {o o' : Outcome}
    (h : Outcome.Alike R o o') :
    (o.behaviour? = none ∧ o'.behaviour? = none) ∨
      ∃ b b', o.behaviour? = some b ∧ o'.behaviour? = some b' ∧ Behaviour.Alike R b b' := by
  cases h with
  | done h => exact .inr ⟨_, _, rfl, rfl, .ends h⟩
  | stopped fault h => exact .inr ⟨_, _, rfl, rfl, .stops fault h⟩
  | unfinished todo todo' h => exact .inl ⟨rfl, rfl⟩

section LockStep

variable {sink sink' : Sink} {T : List Stmt → List Stmt → Prop} {R : Machine → Machine → Prop}
  {todo todo' : List Stmt} {m m' : Machine}

/-- Two runs that every step keeps alike are alike after any number of steps. -/
theorem run_alike
    (hstep : ∀ {todo todo' m m'}, T todo todo' → R m m' →
      Step.Alike T R (step sink todo m) (step sink' todo' m'))
    (ht : T todo todo') (hm : R m m') (n : Nat) :
    Outcome.Alike R (run sink n todo m) (run sink' n todo' m') := by
  induction n generalizing todo todo' m m' with
  | zero => exact .unfinished todo todo' hm
  | succ n ih =>
    have h := hstep ht hm
    rw [run, run]
    generalize step sink todo m = s at h ⊢
    generalize step sink' todo' m' = s' at h ⊢
    cases h with
    | halt h => exact .done h
    | next ht h => exact ih ht h
    | stop fault h => exact .stopped fault h

/-- The behaviour of a run is alike that of every run that is alike at every limit. -/
theorem Behaves.alike (halike : ∀ n, Outcome.Alike R (run sink n todo m) (run sink' n todo' m'))
    {b : Behaviour} (h : Behaves sink todo m b) :
    ∃ b', Behaves sink' todo' m' b' ∧ Behaviour.Alike R b b' := by
  cases h with
  | settles h =>
    rename_i n
    rcases (halike n).behaviour? with ⟨hnone, -⟩ | ⟨c, b', hc, hb', hcb⟩
    · rw [hnone] at h
      cases h
    · rw [hc] at h
      cases h
      exact ⟨b', .settles hb', hcb⟩
  | diverges h =>
    -- a second run that settled would settle the first at the same limit
    refine ⟨.diverges, .diverges ?_, .diverges⟩
    intro n
    rcases (halike n).behaviour? with ⟨-, hnone⟩ | ⟨c, b', hc, -, -⟩
    · exact hnone
    · rw [h n] at hc
      cases hc

/-- Runs that are alike at every limit print the same, when related machines have printed the
same. -/
theorem prints_iff_of_alike (hprinted : ∀ {m m'}, R m m' → m.printed = m'.printed)
    (halike : ∀ n, Outcome.Alike R (run sink n todo m) (run sink' n todo' m'))
    (out : List Int32) : Prints sink todo m out ↔ Prints sink' todo' m' out := by
  have hsame : ∀ n, (run sink n todo m).machine.printed = (run sink' n todo' m').machine.printed :=
    fun n => hprinted (halike n).machine
  constructor
  · rintro ⟨n, h⟩
    refine ⟨n, ?_⟩
    rwa [← hsame n]
  · rintro ⟨n, h⟩
    refine ⟨n, ?_⟩
    rwa [hsame n]

/-- Runs that meet from every limit on have the same behaviour. -/
theorem sameBehaviour_of_meeting
    (hfirst : ∀ n, ∃ k, Outcome.Alike Eq (run sink n todo m) (run sink k todo' m))
    (hsecond : ∀ k, ∃ n, Outcome.Alike Eq (run sink n todo m) (run sink k todo' m)) :
    SameBehaviour sink todo todo' m := by
  have hbehaves {b : Behaviour} (h : Behaves sink todo m b) : Behaves sink todo' m b := by
    cases h with
    | settles h =>
      rename_i n
      obtain ⟨k, hk⟩ := hfirst n
      rcases hk.behaviour? with ⟨hnone, -⟩ | ⟨c, c', hc, hc', hcc'⟩
      · rw [hnone] at h
        cases h
      · rw [hc] at h
        cases h
        rw [hcc'.eq]
        exact .settles hc'
    | diverges h =>
      refine .diverges ?_
      intro k
      obtain ⟨n, hn⟩ := hsecond k
      rcases hn.behaviour? with ⟨-, hnone⟩ | ⟨c, c', hc, -, -⟩
      · exact hnone
      · rw [h n] at hc
        cases hc
  refine ⟨fun b => ⟨hbehaves, fun h => ?_⟩, fun out => ⟨?_, ?_⟩⟩
  -- backwards through the behaviour that the first run has at any rate
  · obtain ⟨c, hc⟩ := exists_behaves sink todo m
    rw [h.unique (hbehaves hc)]
    exact hc
  · rintro ⟨n, hout⟩
    obtain ⟨k, hk⟩ := hfirst n
    exact ⟨k, hk.machine ▸ hout⟩
  · rintro ⟨k, hout⟩
    obtain ⟨n, hn⟩ := hsecond k
    exact ⟨n, hn.machine.symm ▸ hout⟩

/-- Runs that stay on the same machine at every limit have the same behaviour. -/
theorem sameBehaviour_of_alike
    (halike : ∀ n, Outcome.Alike Eq (run sink n todo m) (run sink n todo' m)) :
    SameBehaviour sink todo todo' m :=
  sameBehaviour_of_meeting (fun n => ⟨n, halike n⟩) fun n => ⟨n, halike n⟩

end LockStep

/-! ## What a run keeps -/

/-- A step leads to statements and to a machine with these properties. -/
def Step.Keeps (T : List Stmt → Prop) (M : Machine → Prop) : Step → Prop
  | .halt m => M m
  | .next todo m => T todo ∧ M m
  | .stop _ m => M m

/-- The machine after a step. -/
def Step.machine : Step → Machine
  | .halt m => m
  | .next _ m => m
  | .stop _ m => m

/-- A step that waits for a value keeps what it keeps for each value. -/
theorem Step.Keeps.after {T : List Stmt → Prop} {M : Machine → Prop} {α : Type} {m : Machine}
    {result : Except Fault α} {k : α → Step} (hm : M m) (hk : ∀ value, (k value).Keeps T M) :
    (Step.after m result k).Keeps T M := by
  cases result with
  | error fault => exact hm
  | ok value => exact hk value

/-- What every step keeps, a whole run keeps. -/
theorem run_keeps {sink : Sink} {T : List Stmt → Prop} {M : Machine → Prop}
    (hstep : ∀ {todo m}, T todo → M m → (step sink todo m).Keeps T M)
    {todo : List Stmt} {m : Machine} (ht : T todo) (hm : M m) (n : Nat) :
    M (run sink n todo m).machine := by
  induction n generalizing todo m with
  | zero => exact hm
  | succ n ih =>
    have h := hstep ht hm
    rw [run]
    cases hs : step sink todo m with
    | halt m' => rwa [hs] at h
    | next todo' m' =>
      rw [hs] at h
      exact ih h.1 h.2
    | stop fault m' => rwa [hs] at h

/-- A property of machines that every step keeps, whatever the statements are. -/
theorem run_keeps_machine {sink : Sink} {M : Machine → Prop}
    (hstep : ∀ {todo m}, M m → M (step sink todo m).machine)
    {todo : List Stmt} {m : Machine} (hm : M m) (n : Nat) :
    M (run sink n todo m).machine := by
  -- nothing is asked of the statements, so `T` holds of all of them
  refine run_keeps (T := fun _ => True) ?_ trivial hm n
  intro todo m _ hm
  have h : M (step sink todo m).machine := hstep hm
  cases hs : step sink todo m with
  | halt m' => rwa [hs] at h
  | next todo' m' =>
    rw [hs] at h
    exact ⟨trivial, h⟩
  | stop fault m' => rwa [hs] at h

/-- The machine of a run of one step. -/
theorem machine_run_one (sink : Sink) (todo : List Stmt) (m : Machine) :
    (run sink 1 todo m).machine = (step sink todo m).machine := by
  rw [run]
  cases step sink todo m with
  | halt m' => rfl
  | next todo' m' => rfl
  | stop fault m' => rfl

/-! ## A program to look at -/

/-- A program without a name that counts from a negative literal up to zero, and then divides by
it. -/
def countUp : Program where
  name := none
  body := .seq [.assign ⟨120, false⟩ (.lit (-2)),
    .loopWhile (.compare .lt (.var ⟨120, false⟩) (.lit 0))
      (.seq [.print (.var ⟨120, false⟩),
        .assign ⟨120, false⟩ (.binary .sub (.var ⟨120, false⟩) (.lit (-1)))]),
    .print (.binary .div (.lit 1) (.var ⟨120, false⟩))]

end MiniLua

import MiniLua.Proofs.Behaviour

/-!
# What a run depends on and what it changes

A run reads the variables that occur in its expressions and conditions, and it changes those that its
assignments have as targets. Two stores that agree on all variables that are read therefore lead to
the same output, the same number of steps and the same end, and they agree afterwards wherever they
agreed before. A variable that is never a target keeps its value.

Both facts hold of every tree, well formed or not: a byte that names no variable is refused in every
store in the same way.

## Delivered

- `LetterUse`, `Stmt.letters`, `Block.letters`, `lettersAll`: the letters that statements use in a
  certain way; `Program.reads`, `Program.targets`: those that a program reads and assigns.
- `Expr.eval_congr`, `Cond.holds_congr`: values depend on the letters that are read.
- `Machine.AgreeOn`, `step_agreeOn`: one step on two stores.
- `step_unassigned`, `run_unassigned`: a letter that is no target.
-/

set_option autoImplicit false

namespace MiniLua

/-! ## The letters of a program -/

/-- The letters that a value depends on. -/
def Expr.reads : Expr → List UInt8
  | .missing => []
  | .var x => [x.letter]
  | .lit _ => []
  | .binary _ left right _ => left.reads ++ right.reads

/-- The letters that the truth of a condition depends on. -/
def Cond.reads : Cond → List UInt8
  | .missing => []
  | .compare _ left right _ => left.reads ++ right.reads

/-- Which letters count in the parts of a statement. -/
structure LetterUse where
  ofExpr : Expr → List UInt8
  ofCond : Cond → List UInt8
  ofTarget : Ident → List UInt8

/-- Letters in expressions and conditions. -/
def LetterUse.read : LetterUse :=
  ⟨Expr.reads, Cond.reads, fun _ => []⟩

/-- Letters that are assigned to. -/
def LetterUse.assigned : LetterUse :=
  ⟨fun _ => [], fun _ => [], fun target => [target.letter]⟩

mutual

/-- The letters that a statement uses. -/
def Stmt.letters (use : LetterUse) : Stmt → List UInt8
  | .missing => []
  | .assign target value _ => use.ofTarget target ++ use.ofExpr value
  | .print value _ => use.ofExpr value
  | .branch cond onTrue onFalse _ => use.ofCond cond ++ (onTrue.letters use ++ onFalse.letters use)
  | .loopWhile cond body _ => use.ofCond cond ++ body.letters use
  | .loopUntil body cond _ => use.ofCond cond ++ body.letters use

/-- The letters that a block uses. -/
def Block.letters (use : LetterUse) : Block → List UInt8
  | .missing => []
  | .seq stmts _ => lettersAll use stmts

/-- The letters that statements use. -/
def lettersAll (use : LetterUse) : List Stmt → List UInt8
  | [] => []
  | stmt :: stmts => stmt.letters use ++ lettersAll use stmts

end

/-- The letters that occur in an expression or a condition of the program. -/
def Program.reads (p : Program) : List UInt8 :=
  p.body.letters .read

/-- The letters that some assignment of the program has as its target. -/
def Program.targets (p : Program) : List UInt8 :=
  p.body.letters .assigned

/-- The letters of a block are those of its statements. -/
theorem Block.letters_eq (use : LetterUse) (b : Block) : b.letters use = lettersAll use b.stmts := by
  cases b with
  | missing => rw [Block.letters, Block.stmts, lettersAll]
  | seq stmts bare => rw [Block.letters, Block.stmts]

/-- The letters of two lists of statements. -/
theorem lettersAll_append (use : LetterUse) (stmts stmts' : List Stmt) :
    lettersAll use (stmts ++ stmts') = lettersAll use stmts ++ lettersAll use stmts' := by
  induction stmts with
  | nil => rw [List.nil_append, lettersAll, List.nil_append]
  | cons s stmts ih => rw [List.cons_append, lettersAll, lettersAll, ih, List.append_assoc]

/-- Every letter that the statements use is in `L`. -/
def Within (use : LetterUse) (L : UInt8 → Prop) (todo : List Stmt) : Prop :=
  ∀ c ∈ lettersAll use todo, L c

namespace Within

variable {use : LetterUse} {L : UInt8 → Prop} {stmt : Stmt} {todo todo' : List Stmt}

theorem cons_iff : Within use L (stmt :: todo) ↔
    (∀ c ∈ stmt.letters use, L c) ∧ Within use L todo := by
  unfold Within
  rw [lettersAll, List.forall_mem_append]

theorem append_iff : Within use L (todo ++ todo') ↔ Within use L todo ∧ Within use L todo' := by
  unfold Within
  rw [lettersAll_append, List.forall_mem_append]

theorem stmts_iff (b : Block) : Within use L b.stmts ↔ ∀ c ∈ b.letters use, L c := by
  rw [Block.letters_eq]
  rfl

/-- Either branch in front of what is left. -/
theorem branch {cond : Cond} {onTrue onFalse : Block} {bare : Bool}
    (h : Within use L (.branch cond onTrue onFalse bare :: todo)) (holds : Bool) :
    Within use L ((if holds then onTrue.stmts else onFalse.stmts) ++ todo) := by
  rw [cons_iff, Stmt.letters, List.forall_mem_append, List.forall_mem_append] at h
  obtain ⟨⟨-, htrue, hfalse⟩, htodo⟩ := h
  refine append_iff.2 ⟨?_, htodo⟩
  cases holds with
  | true => exact (stmts_iff onTrue).2 htrue
  | false => exact (stmts_iff onFalse).2 hfalse

/-- The body of a loop and the loop again, or what is left. -/
theorem loopWhile {cond : Cond} {body : Block} {bare : Bool}
    (h : Within use L (.loopWhile cond body bare :: todo)) (holds : Bool) :
    Within use L (if holds then body.stmts ++ .loopWhile cond body bare :: todo else todo) := by
  have hbody := (cons_iff.1 h).1
  rw [Stmt.letters, List.forall_mem_append] at hbody
  cases holds with
  | true => exact append_iff.2 ⟨(stmts_iff body).2 hbody.2, h⟩
  | false => exact (cons_iff.1 h).2

/-- The body of a loop and its test, behind which the loop may start again. -/
theorem loopUntil {body : Block} {cond : Cond} {bare : Bool}
    (h : Within use L (.loopUntil body cond bare :: todo)) :
    Within use L
      (body.stmts ++ .branch cond (.seq []) (.seq [.loopUntil body cond bare]) :: todo) := by
  obtain ⟨hloop, htodo⟩ := cons_iff.1 h
  have hparts := hloop
  rw [Stmt.letters, List.forall_mem_append] at hparts
  refine append_iff.2 ⟨(stmts_iff body).2 hparts.2, cons_iff.2 ⟨?_, htodo⟩⟩
  rw [Stmt.letters, List.forall_mem_append, List.forall_mem_append]
  refine ⟨hparts.1, ?_, ?_⟩
  -- when the test holds nothing is left of the loop, and else the whole loop is
  · simp [Block.letters, lettersAll]
  · rw [Block.letters, lettersAll, lettersAll, List.append_nil]
    exact hloop

end Within

/-! ## Two stores -/

/-- The value of an expression depends on the letters that it reads. -/
theorem Expr.eval_congr {s s' : Store} {e : Expr} (h : ∀ c ∈ e.reads, s.fetch c = s'.fetch c) :
    e.eval s = e.eval s' := by
  induction e with
  | missing => rfl
  | var x => rw [Expr.eval, Expr.eval, h x.letter (by simp [Expr.reads])]
  | lit value => rfl
  | binary op left right bare ihl ihr =>
    rw [Expr.reads, List.forall_mem_append] at h
    rw [Expr.eval, Expr.eval, ihl h.1, ihr h.2]

/-- The truth of a condition depends on the letters that it reads. -/
theorem Cond.holds_congr {s s' : Store} {cond : Cond}
    (h : ∀ c ∈ cond.reads, s.fetch c = s'.fetch c) : cond.holds s = cond.holds s' := by
  cases cond with
  | missing => rfl
  | compare op left right bare =>
    rw [Cond.reads, List.forall_mem_append] at h
    rw [Cond.holds, Cond.holds, Expr.eval_congr h.1, Expr.eval_congr h.2]

/-- Two machines with the same output, whose stores agree on the letters in `L`. -/
structure Machine.AgreeOn (L : UInt8 → Prop) (m m' : Machine) : Prop where
  printed : m.printed = m'.printed
  writes : m.writes = m'.writes
  fetch : ∀ c, L c → m.store.fetch c = m'.store.fetch c

/-- An expression that reads letters in `L` only has one value on such machines. -/
theorem Machine.AgreeOn.eval_eq {L : UInt8 → Prop} {m m' : Machine} (hm : m.AgreeOn L m') {e : Expr}
    (he : ∀ c ∈ e.reads, L c) : e.eval m.store = e.eval m'.store := by
  apply Expr.eval_congr
  intro c hc
  exact hm.fetch c (he c hc)

/-- A condition that reads letters in `L` only is true on both of such machines or on neither. -/
theorem Machine.AgreeOn.holds_eq {L : UInt8 → Prop} {m m' : Machine} (hm : m.AgreeOn L m')
    {cond : Cond} (hcond : ∀ c ∈ cond.reads, L c) : cond.holds m.store = cond.holds m'.store := by
  apply Cond.holds_congr
  intro c hc
  exact hm.fetch c (hcond c hc)

section TwoStores

variable (sink : Sink) {L : UInt8 → Prop} {todo : List Stmt} {m m' : Machine}

/-- The same statements are left, and what they read is in `L`. -/
def SameReading (L : UInt8 → Prop) (todo todo' : List Stmt) : Prop :=
  todo = todo' ∧ Within .read L todo

/-- The same value is assigned on both sides, so that the stores agree where they did. -/
theorem assignStep_agreeOn (letter : UInt8) (value : Int32) (ht : Within .read L todo)
    (hm : m.AgreeOn L m') :
    Step.Alike (SameReading L) (Machine.AgreeOn L) (assignStep letter value todo m)
      (assignStep letter value todo m') := by
  unfold assignStep
  -- whether the write is refused depends on the letter alone, so it is on both sides or on neither
  rcases Store.assign_cases letter value with ⟨cause, hcause⟩ | hassign
  · rw [hcause, hcause]
    exact .stop _ hm
  · obtain ⟨s, hs, hfetch⟩ := hassign m.store
    obtain ⟨s', hs', hfetch'⟩ := hassign m'.store
    rw [hs, hs']
    refine .next ⟨rfl, ht⟩ ⟨hm.printed, hm.writes, ?_⟩
    intro c hc
    show s.fetch c = s'.fetch c
    rw [hfetch c, hfetch' c, hm.fetch c hc]

/-- The sink is asked about the same write on both sides. -/
theorem write_agreeOn (value : Int32) (ht : Within .read L todo) (hm : m.AgreeOn L m') :
    Step.Alike (SameReading L) (Machine.AgreeOn L) (write sink value todo m)
      (write sink value todo m') := by
  unfold write
  rw [← hm.writes]
  cases sink.reply (m.writes + 1) with
  | none =>
    refine .next ⟨rfl, ht⟩ ⟨?_, rfl, hm.fetch⟩
    rw [hm.printed]
  | some reason => exact .stop _ ⟨hm.printed, rfl, hm.fetch⟩

/-- A step does the same in two stores that agree on what is read, and they agree afterwards where
they did. -/
theorem step_agreeOn (ht : Within .read L todo) (hm : m.AgreeOn L m') :
    Step.Alike (SameReading L) (Machine.AgreeOn L) (step sink todo m) (step sink todo m') := by
  cases todo with
  | nil => exact .halt hm
  | cons stmt todo =>
    obtain ⟨hstmt, htodo⟩ := Within.cons_iff.1 ht
    cases stmt with
    | missing => exact .stop _ hm
    | assign target value bare =>
      rw [Stmt.letters, List.forall_mem_append] at hstmt
      rw [step_assign, step_assign, hm.eval_eq hstmt.2]
      exact .after hm _ fun v => assignStep_agreeOn target.letter v htodo hm
    | print value bare =>
      rw [Stmt.letters] at hstmt
      rw [step_print, step_print, hm.eval_eq hstmt]
      exact .after hm _ fun v => write_agreeOn sink v htodo hm
    | branch cond onTrue onFalse bare =>
      rw [Stmt.letters, List.forall_mem_append] at hstmt
      rw [step_branch, step_branch, hm.holds_eq hstmt.1]
      exact .after hm _ fun holds => .next ⟨rfl, ht.branch holds⟩ hm
    | loopWhile cond body bare =>
      rw [Stmt.letters, List.forall_mem_append] at hstmt
      rw [step_loopWhile, step_loopWhile, hm.holds_eq hstmt.1]
      exact .after hm _ fun holds => .next ⟨rfl, ht.loopWhile holds⟩ hm
    | loopUntil body cond bare =>
      rw [step_loopUntil, step_loopUntil]
      exact .next ⟨rfl, ht.loopUntil⟩ hm

/-- Runs in two stores that agree on what is read. -/
theorem run_agreeOn (ht : Within .read L todo) (hm : m.AgreeOn L m') (n : Nat) :
    Outcome.Alike (Machine.AgreeOn L) (run sink n todo m) (run sink n todo m') := by
  refine run_alike (T := SameReading L) ?_ ⟨rfl, ht⟩ hm n
  rintro todo _ m m' ⟨rfl, ht⟩ hm
  exact step_agreeOn sink ht hm

end TwoStores

/-! ## A letter that is no target -/

section Unassigned

variable {sink : Sink} {letter : UInt8} {value : Except Misuse Int32} {todo : List Stmt}
  {m : Machine}

/-- A step does not change a letter that is no target of the statements. -/
theorem step_unassigned (ht : Within .assigned (· ≠ letter) todo)
    (hm : m.store.fetch letter = value) :
    (step sink todo m).Keeps (Within .assigned (· ≠ letter))
      (fun m => m.store.fetch letter = value) := by
  cases todo with
  | nil => exact hm
  | cons stmt todo =>
    obtain ⟨hstmt, htodo⟩ := Within.cons_iff.1 ht
    cases stmt with
    | missing => exact hm
    | assign target expr bare =>
      have hne : letter ≠ target.letter := by
        intro heq
        exact hstmt target.letter (by simp [Stmt.letters, LetterUse.assigned]) heq.symm
      rw [step_assign]
      refine .after hm fun v => ?_
      -- the only statement that could change the letter has another one as its target
      unfold assignStep
      rcases Store.assign_cases target.letter v with ⟨cause, hcause⟩ | hassign
      · rw [hcause]
        exact hm
      · obtain ⟨s, hs, hfetch⟩ := hassign m.store
        rw [hs]
        refine ⟨htodo, ?_⟩
        show s.fetch letter = value
        rw [hfetch, if_neg hne, hm]
    | print expr bare =>
      rw [step_print]
      refine .after hm fun v => ?_
      unfold write
      cases sink.reply (m.writes + 1) with
      | none => exact ⟨htodo, hm⟩
      | some reason => exact hm
    | branch cond onTrue onFalse bare =>
      rw [step_branch]
      exact .after hm fun holds => ⟨ht.branch holds, hm⟩
    | loopWhile cond body bare =>
      rw [step_loopWhile]
      exact .after hm fun holds => ⟨ht.loopWhile holds, hm⟩
    | loopUntil body cond bare =>
      rw [step_loopUntil]
      exact ⟨ht.loopUntil, hm⟩

/-- A run does not change a letter that is no target of the statements. -/
theorem run_unassigned (ht : letter ∉ lettersAll .assigned todo) (n : Nat) :
    (run sink n todo m).machine.store.fetch letter = m.store.fetch letter := by
  have hwithin : Within .assigned (· ≠ letter) todo := by
    intro c hc heq
    exact ht (heq ▸ hc)
  exact run_keeps (M := fun m' => m'.store.fetch letter = m.store.fetch letter)
    step_unassigned hwithin rfl n

end Unassigned

/-- Two runs of a program in stores that agree on the letters it reads behave alike on every sink:
they print the same, end, stop at the same fault or never end, and agree at the end on every letter
on which they agreed at the start. A letter that is no target of the program keeps its value in every
run, at every moment of it. -/
theorem Program.noninterference (p : Program) (sink : Sink) (m : Machine) {s s' : Store}
    (hreads : ∀ c ∈ p.reads, s.fetch c = s'.fetch c) :
    (∀ b, Behaves sink p.body.stmts { m with store := s } b →
      ∃ b', Behaves sink p.body.stmts { m with store := s' } b' ∧
        b.Alike (Machine.AgreeOn fun c => s.fetch c = s'.fetch c) b') ∧
    (∀ out, Prints sink p.body.stmts { m with store := s } out ↔
      Prints sink p.body.stmts { m with store := s' } out) ∧
    Outcome.Alike (Machine.AgreeOn fun c => s.fetch c = s'.fetch c)
      (p.execute sink { m with store := s }) (p.execute sink { m with store := s' }) ∧
    ∀ (t : Store) (c : UInt8), c ∉ p.targets → ∀ n,
      (run sink n p.body.stmts { m with store := t }).machine.store.fetch c = t.fetch c := by
  -- the invariant of both runs: they agree on every letter on which the stores agreed at the start,
  -- which is more than the letters that are read
  have hwithin : Within .read (fun c => s.fetch c = s'.fetch c) p.body.stmts :=
    (Within.stmts_iff p.body).2 hreads
  have hstart : Machine.AgreeOn (fun c => s.fetch c = s'.fetch c) { m with store := s }
      { m with store := s' } := ⟨rfl, rfl, fun c hc => hc⟩
  have halike := fun n => run_agreeOn sink hwithin hstart n
  refine ⟨fun b hb => hb.alike halike, prints_iff_of_alike (fun h => h.printed) halike,
    halike patience, ?_⟩
  intro t c hc n
  rw [Program.targets, Block.letters_eq] at hc
  exact run_unassigned (m := { m with store := t }) hc n

/-- The count reads one variable. With another value in a second variable it crashes in the same
way, after the same output, and leaves that variable as it was. -/
theorem Program.noninterference_countUp :
    ∃ s' : Store, s'.fetch 121 = .ok 7 ∧ (∀ c ∈ countUp.reads, Store.empty.fetch c = s'.fetch c) ∧
      (∃ m m', Behaves .always countUp.body.stmts { store := .empty } (.stops .divideByZero m) ∧
        Behaves .always countUp.body.stmts { store := s' } (.stops .divideByZero m') ∧
        m'.printed = m.printed) ∧
      ∀ n, (run .always n countUp.body.stmts { store := s' }).machine.store.fetch 121 = .ok 7 := by
  have hx : countUp.reads.all (· == 120) = true := rfl
  have hreads : ∀ c ∈ countUp.reads,
      Store.empty.fetch c = (Store.mk ((Vector.replicate 52 0).set 24 7)).fetch c := by
    intro c hc
    rw [eq_of_beq (List.all_eq_true.1 hx c hc)]
    rfl
  have hcrash : ∃ m, Behaves .always countUp.body.stmts { store := .empty }
      (.stops .divideByZero m) := ⟨_, .settles (n := 9) rfl⟩
  obtain ⟨hbehaves, -, -, hframe⟩ :=
    Program.noninterference countUp .always { store := .empty } hreads
  obtain ⟨m, hm⟩ := hcrash
  obtain ⟨b', hb', halike⟩ := hbehaves _ hm
  cases halike with
  | stops _ hagree =>
    refine ⟨_, rfl, hreads, ⟨m, _, hm, hb', hagree.printed.symm⟩, ?_⟩
    intro n
    exact hframe _ 121 (by decide) n

end MiniLua

import MiniLua.Batch
import MiniLua.Proofs.Safety
import MiniLua.Proofs.Sequencing

/-!
# Batches that complete

A batch of programs that were read, none of which crashes or runs on for ever, goes through to its
end. There is then a result for every unit, and the units that failed are those that were passed over.
Such a unit leaves a report and nothing else.

## Delivered

- `Batch.present`, `Batch.executed`, `Batch.programs`: the units of a batch, and those that run.
- `Trace.begun`, `Trace.snapshots`, `Trace.work`: what a trace shows beside results and output.
- `Program.Calm`, `Batch.Calm`: runs that neither crash nor go on for ever.
- `Batch.Completes`: batches in which every program that runs is done.
- `Batch.completes_of_calm`, `Batch.exists_limit_of_calm`: calm batches complete.
- `Batch.Accounted`, `Batch.Completes.accounted`: the results and the beginnings of such a batch.
- `Batch.runWithin_work`: what a batch does beside the reports of units that are passed over.
- `Outcome.cut?`, `LoadedUnit.Turn`: how a unit in its turn ends a batch, if it does.
- `Batch.Begins`, `Batch.begins_runWithin`: the units that begin to run, in a batch that may be cut
  short; `Batch.Begins.exists_last`: the unit in which such a batch stops.
-/

set_option autoImplicit false

namespace MiniLua

/-! ## The units of a batch -/

namespace Batch

/-- The units that are not left out. -/
def present (units : List (Option LoadedUnit)) : List LoadedUnit :=
  units.filterMap id

/-- The units that run. -/
def executed (units : List (Option LoadedUnit)) : List LoadedUnit :=
  (present units).filter fun u => u.runnable?.isSome

/-- The programs of the units that run. -/
def programs (units : List (Option LoadedUnit)) : List Program :=
  (present units).filterMap LoadedUnit.runnable?

section Units

variable {u : LoadedUnit} {units : List (Option LoadedUnit)} {p : Program}

@[simp] theorem present_cons_some : present (some u :: units) = u :: present units :=
  rfl

theorem executed_cons_of_skip (hu : u.runnable? = none) :
    executed (some u :: units) = executed units := by
  simp [executed, hu]

theorem programs_cons_of_skip (hu : u.runnable? = none) :
    programs (some u :: units) = programs units := by
  simp [programs, hu]

theorem executed_cons_of_ran (hu : u.runnable? = some p) :
    executed (some u :: units) = u :: executed units := by
  simp [executed, hu]

theorem programs_cons_of_ran (hu : u.runnable? = some p) :
    programs (some u :: units) = p :: programs units := by
  simp [programs, hu]

end Units

end Batch

/-! ## What a trace shows -/

/-- The event is the report of a unit that was passed over. -/
def BatchEvent.isSkip : BatchEvent → Bool
  | .result r => r.skipped
  | _ => false

namespace Trace

/-- The units that began to run, in order. -/
def begun (t : Trace) : List LoadedUnit :=
  t.events.filterMap fun
    | .before u => some u
    | _ => none

/-- The variables at the end of each unit that ran, in order. -/
def snapshots (t : Trace) : List (List (UInt8 × Int32)) :=
  t.results.filterMap UnitResult.snapshot

/-- The trace without the reports of units that were passed over. -/
def work (t : Trace) : Trace :=
  { t with events := t.events.filter fun e => !e.isSkip }

section After

variable (t : Trace) (u : LoadedUnit) (m : Machine) (r : UnitResult)

@[simp] theorem begun_after_result : (t.after [.result r]).begun = t.begun :=
  rfl

@[simp] theorem results_after_result : (t.after [.result r]).results = r :: t.results :=
  rfl

@[simp] theorem begun_after_started :
    (t.after (u.started m ++ [.result r])).begun = u :: t.begun := by
  simp [begun, after, LoadedUnit.started, List.filterMap_map]

@[simp] theorem begun_started (ending : Ending) : Trace.begun ⟨u.started m, ending⟩ = [u] := by
  simp [begun, LoadedUnit.started, List.filterMap_map]

@[simp] theorem results_after_started :
    (t.after (u.started m ++ [.result r])).results = r :: t.results := by
  simp [results, after, LoadedUnit.started, List.filterMap_map]

@[simp] theorem output_after_started :
    (t.after (u.started m ++ [.result r])).output = m.printed.toList ++ t.output := by
  have hstarted : Trace.output ⟨u.started m, t.ending⟩ = m.printed.toList := by
    change (m.printed.toList.map BatchEvent.printed).filterMap _ = _
    rw [List.filterMap_map]
    exact List.filterMap_some
  rw [← hstarted]
  simp [output, after]

end After

/-- Reports of units that were passed over have no part in the output. -/
@[simp] theorem output_work (t : Trace) : t.work.output = t.output := by
  unfold output work
  rw [List.filterMap_filter]
  congr 1
  funext e
  cases e <;> simp [BatchEvent.isSkip]

/-- Reports of units that were passed over have no variables. -/
@[simp] theorem snapshots_work (t : Trace) : t.work.snapshots = t.snapshots := by
  unfold snapshots results work
  rw [List.filterMap_filter, List.filterMap_filterMap, List.filterMap_filterMap]
  congr 1
  funext e
  cases e with
  | result r => cases hs : r.snapshot <;> simp [BatchEvent.isSkip, UnitResult.skipped, hs]
  | _ => rfl

/-- The work of a trace behind more events. -/
theorem work_after (events : List BatchEvent) (t : Trace) :
    (t.after events).work = t.work.after (events.filter fun e => !e.isSkip) := by
  simp [work, after]

end Trace

/-- A unit that has started shows no reports before its end. -/
theorem LoadedUnit.filter_started (u : LoadedUnit) (m : Machine) :
    ((u.started m).filter fun e => !e.isSkip) = u.started m := by
  apply List.filter_eq_self.2
  intro e he
  rcases List.mem_cons.1 he with rfl | he
  · rfl
  · obtain ⟨value, -, rfl⟩ := List.mem_map.1 he
    rfl

/-! ## Calm batches -/

/-- From this machine, and with every write taken, the program does not crash and does not run on for
ever. -/
structure Program.Calm (p : Program) (m : Machine) : Prop where
  finite : ¬ Behaves .always p.body.stmts m .diverges
  intact : ∀ {fault m'}, Behaves .always p.body.stmts m (.stops fault m') → fault.crashes = false

/-- A run of a calm program ends by itself. -/
theorem Program.Calm.ends_of_behaves {p : Program} {m : Machine} (h : p.Calm m)
    (hp : areWellFormed p.body.stmts = true) {b : Behaviour}
    (hb : Behaves .always p.body.stmts m b) : ∃ m', b = .ends m' := by
  cases unfailing_of_behaves hp hb with
  | ends m' => exact ⟨m', rfl⟩
  | diverges => exact absurd hb h.finite
  | refused hrun hvalue hreply => cases hreply
  | zeroDivisor hrun he hoccurs hzero => cases h.intact hb

/-- A calm program is done when it gets enough steps. -/
theorem Program.Calm.exists_limit {p : Program} {m : Machine} (h : p.Calm m)
    (hp : areWellFormed p.body.stmts = true) :
    ∃ m' limit, Behaves .always p.body.stmts m (.ends m') ∧
      ∀ n, limit ≤ n → run .always n p.body.stmts m = .done m' := by
  obtain ⟨b, hb⟩ := exists_behaves .always p.body.stmts m
  obtain ⟨m', rfl⟩ := h.ends_of_behaves hp hb
  obtain ⟨limit, hlimit⟩ := hb.exists_run_done
  refine ⟨m', limit, hb, ?_⟩
  intro n hn
  obtain ⟨k, rfl⟩ := Nat.exists_eq_add_of_le hn
  exact hlimit k

/-- A program whose run ends is calm. -/
theorem Program.Calm.of_ends {p : Program} {m m' : Machine}
    (h : Behaves .always p.body.stmts m (.ends m')) : p.Calm m where
  finite hb := by cases h.unique hb
  intact hb := by cases h.unique hb

namespace Batch

/-- The programs are calm, each from the machine on which its turn comes. -/
def Calm (shared : Bool) : List Program → Machine → Prop
  | [], _ => True
  | p :: ps, m => p.Calm (prepare shared m) ∧
      ∀ m', Behaves .always p.body.stmts (prepare shared m) (.ends m') → Calm shared ps m'

/-- A first program that ends, and calm programs behind it. -/
theorem Calm.cons_of_ends {shared : Bool} {p : Program} {ps : List Program} {m m' : Machine}
    (h : Behaves .always p.body.stmts (prepare shared m) (.ends m')) (hrest : Calm shared ps m') :
    Calm shared (p :: ps) m := by
  refine ⟨.of_ends h, ?_⟩
  intro m₁ h₁
  cases h.unique h₁
  exact hrest

/-! ## Batches that complete -/

/-- Every program that runs in the batch is done within `n` steps, and this is the trace. -/
inductive Completes (n : Nat) (shared : Bool) :
    List (Option LoadedUnit) → Machine → Trace → Prop
  | nil (m : Machine) : Completes n shared [] m ⟨[], .complete⟩
  | absent {units : List (Option LoadedUnit)} {m : Machine} {t : Trace}
      (hrest : Completes n shared units m t) : Completes n shared (none :: units) m t
  | skip {u : LoadedUnit} {units : List (Option LoadedUnit)} {m : Machine} {t : Trace}
      (hu : u.runnable? = none) (hrest : Completes n shared units m t) :
      Completes n shared (some u :: units) m (t.after [.result u.skip])
  | ran {u : LoadedUnit} {p : Program} {units : List (Option LoadedUnit)} {m m' : Machine}
      {t : Trace} (hu : u.runnable? = some p)
      (hrun : MiniLua.run .always n p.body.stmts (prepare shared m) = .done m')
      (hrest : Completes n shared units m' t) :
      Completes n shared (some u :: units) m (t.after (u.started m' ++ [.result (u.ran none m')]))

section Completes

variable {n : Nat} {shared : Bool} {units : List (Option LoadedUnit)} {m : Machine} {t : Trace}

/-- The trace of a batch that completes. -/
theorem Completes.runWithin_eq (h : Completes n shared units m t) :
    runWithin n .always shared units m = t := by
  induction h with
  | nil m => rfl
  | absent hrest ih => exact ih
  | skip hu hrest ih => rw [runWithin, hu, ih]
  | ran hu hrun hrest ih => simp only [runWithin, hu, hrun, ih]

/-- A calm batch completes, unless a program needs more steps. -/
theorem completes_of_calm (n : Nat)
    (hwf : ∀ p ∈ programs units, areWellFormed p.body.stmts = true)
    (hcalm : Calm shared (programs units) m) :
    (runWithin n .always shared units m).ending = .unfinished ∨
      Completes n shared units m (runWithin n .always shared units m) := by
  induction units generalizing m with
  | nil => exact .inr (.nil m)
  | cons unit units ih =>
    cases unit with
    | none =>
      rcases ih hwf hcalm with hcut | hdone
      · exact .inl hcut
      · exact .inr (.absent hdone)
    | some u =>
      rw [runWithin]
      cases hu : u.runnable? with
      | none =>
        rw [programs_cons_of_skip hu] at hwf hcalm
        rcases ih hwf hcalm with hcut | hdone
        · exact .inl hcut
        · exact .inr (.skip hu hdone)
      | some p =>
        rw [programs_cons_of_ran hu] at hwf hcalm
        obtain ⟨hp, hcalm⟩ := hcalm
        obtain ⟨hbody, hwf⟩ := List.forall_mem_cons.1 hwf
        dsimp only
        cases hrun : MiniLua.run .always n p.body.stmts (prepare shared m) with
        | unfinished todo m' => exact .inl rfl
        | stopped fault m' =>
          -- a calm program is not stopped
          obtain ⟨m₁, h₁⟩ := hp.ends_of_behaves hbody (.settles (n := n) (congrArg _ hrun))
          cases h₁
        | done m' =>
          rcases ih hwf (hcalm m' (.settles (n := n) (congrArg _ hrun))) with hcut | hdone
          · exact .inl hcut
          · exact .inr (.ran hu hrun hdone)

/-- A calm batch completes when the programs get enough steps. -/
theorem exists_limit_of_calm (hwf : ∀ p ∈ programs units, areWellFormed p.body.stmts = true)
    (hcalm : Calm shared (programs units) m) :
    ∃ limit, ∀ n, limit ≤ n → ∃ t, Completes n shared units m t := by
  induction units generalizing m with
  | nil => exact ⟨0, fun n _ => ⟨_, .nil m⟩⟩
  | cons unit units ih =>
    cases unit with
    | none =>
      obtain ⟨limit, hlimit⟩ := ih hwf hcalm
      refine ⟨limit, ?_⟩
      intro n hn
      obtain ⟨t, ht⟩ := hlimit n hn
      exact ⟨t, .absent ht⟩
    | some u =>
      cases hu : u.runnable? with
      | none =>
        rw [programs_cons_of_skip hu] at hwf hcalm
        obtain ⟨limit, hlimit⟩ := ih hwf hcalm
        refine ⟨limit, ?_⟩
        intro n hn
        obtain ⟨t, ht⟩ := hlimit n hn
        exact ⟨_, .skip hu ht⟩
      | some p =>
        rw [programs_cons_of_ran hu] at hwf hcalm
        obtain ⟨hp, hcalm⟩ := hcalm
        obtain ⟨hbody, hwf⟩ := List.forall_mem_cons.1 hwf
        obtain ⟨m', steps, hb, hsteps⟩ := hp.exists_limit hbody
        obtain ⟨limit, hlimit⟩ := ih hwf (hcalm m' hb)
        -- the sum is enough for this program and for all that follow
        refine ⟨steps + limit, ?_⟩
        intro n hn
        obtain ⟨t, ht⟩ := hlimit n (by omega)
        exact ⟨_, .ran hu (hsteps n (by omega)) ht⟩

end Completes

/-! ## Accounts -/

/-- The trace accounts for the units of a batch: it is complete, the units that can run began, and
there is a result for every unit, with its name, in order. The units that cannot run were passed over,
and these are the ones that failed. -/
structure Accounted (units : List (Option LoadedUnit)) (t : Trace) : Prop where
  complete : t.ending = .complete
  begun : t.begun = executed units
  named : (t.results.map fun r => (r.name, r.path)) = (present units).map fun u => (u.name, u.path)
  skipped : t.results.map UnitResult.skipped = (present units).map fun u => u.runnable?.isNone
  failed : t.results.map UnitResult.failed = (present units).map fun u => u.runnable?.isNone

section Accounts

variable {n : Nat} {shared : Bool} {units : List (Option LoadedUnit)} {m : Machine} {t : Trace}

/-- The trace of a batch that completes accounts for its units. -/
theorem Completes.accounted (h : Completes n shared units m t) : Accounted units t := by
  induction h with
  | nil m => exact ⟨rfl, rfl, rfl, rfl, rfl⟩
  | absent hrest ih => exact ⟨ih.complete, ih.begun, ih.named, ih.skipped, ih.failed⟩
  | skip hu hrest ih =>
    refine ⟨ih.complete, ?_, ?_, ?_, ?_⟩
    · rw [Trace.begun_after_result, executed_cons_of_skip hu, ih.begun]
    · simp [LoadedUnit.skip, ih.named]
    · simp [LoadedUnit.skip, UnitResult.skipped, hu, ih.skipped]
    · simp [LoadedUnit.skip, UnitResult.failed, hu, ih.failed]
  | ran hu hrun hrest ih =>
    refine ⟨ih.complete, ?_, ?_, ?_, ?_⟩
    · rw [Trace.begun_after_started, executed_cons_of_ran hu, ih.begun]
    · simp [LoadedUnit.ran, ih.named]
    · simp [LoadedUnit.ran, UnitResult.skipped, hu, ih.skipped]
    · simp [LoadedUnit.ran, UnitResult.failed, hu, ih.failed]

/-- A unit of the batch failed just when one was passed over. -/
theorem Accounted.anyFailed_iff (h : Accounted units t) :
    t.anyFailed = true ↔ ∃ u ∈ present units, u.runnable? = none := by
  have hany : t.anyFailed = (t.results.map UnitResult.failed).any id := by
    rw [List.any_map]
    rfl
  rw [hany, h.failed]
  simp

/-- A calm batch of programs that were read completes with enough steps, and with any number of steps
it completes or is cut short. -/
theorem completes_of_read (hread : ∀ p ∈ programs units, ∃ bytes, Program.ofBytes? bytes = .ok p)
    (hcalm : Calm shared (programs units) m) :
    (∃ limit, ∀ n, limit ≤ n → (runWithin n .always shared units m).ending = .complete) ∧
    ∀ n, (runWithin n .always shared units m).ending = .unfinished ∨
      Completes n shared units m (runWithin n .always shared units m) := by
  have hwf : ∀ p ∈ programs units, areWellFormed p.body.stmts = true := by
    intro p hp
    exact Program.areWellFormed_body (.inr (hread p hp))
  refine ⟨?_, fun n => completes_of_calm n hwf hcalm⟩
  obtain ⟨limit, hlimit⟩ := exists_limit_of_calm hwf hcalm
  refine ⟨limit, ?_⟩
  intro n hn
  obtain ⟨t, ht⟩ := hlimit n hn
  rw [ht.runWithin_eq, ht.accounted.complete]

/-- Beside the reports of units that are passed over, a batch does what it does without these
units. -/
theorem runWithin_work (n : Nat) (sink : Sink) (shared : Bool) (units : List (Option LoadedUnit))
    (m : Machine) :
    (runWithin n sink shared units m).work =
      runWithin n sink shared ((executed units).map some) m := by
  induction units generalizing m with
  | nil => rfl
  | cons unit units ih =>
    cases unit with
    | none => exact ih m
    | some u =>
      rw [runWithin]
      cases hu : u.runnable? with
      | none =>
        rw [executed_cons_of_skip hu, ← ih]
        rfl
      | some p =>
        rw [executed_cons_of_ran hu, List.map_cons, runWithin, hu]
        dsimp only
        -- the report of a unit that has run is no report of one that was passed over
        have hstarted : ∀ fault m' (t : Trace),
            (t.after (u.started m' ++ [.result (u.ran fault m')])).work =
              t.work.after (u.started m' ++ [.result (u.ran fault m')]) := by
          intro fault m' t
          rw [Trace.work_after, List.filter_append, u.filter_started]
          rfl
        cases MiniLua.run sink n p.body.stmts (prepare shared m) with
        | done m' => rw [hstarted, ih]
        | stopped fault m' =>
          dsimp only
          split
          · rw [Trace.work, u.filter_started]
          · rw [hstarted, ih]
        | unfinished todo m' => rw [Trace.work, u.filter_started]

end Accounts

end Batch

/-! ## Batches that may be cut short -/

/-- How an outcome ends a batch. With `none` the next unit gets its turn. -/
def Outcome.cut? : Outcome → Option Ending
  | .done _ => none
  | .stopped fault _ => if fault.crashes then some (.crashed fault) else none
  | .unfinished _ _ => some .unfinished

/-- Outcomes that are alike end a batch in the same way. -/
theorem Outcome.Alike.cut?_eq {R : Machine → Machine → Prop} {o o' : Outcome}
    (h : Outcome.Alike R o o') : o.cut? = o'.cut? := by
  cases h <;> rfl

/-- With every write taken, a well-formed program that lets the next one have its turn has ended by
itself. -/
theorem Program.exists_ends_of_cut? {p : Program} {n : Nat} {m : Machine}
    (hp : areWellFormed p.body.stmts = true)
    (h : (run .always n p.body.stmts m).cut? = none) :
    ∃ m', Behaves .always p.body.stmts m (.ends m') := by
  cases hrun : run .always n p.body.stmts m with
  | done m' => exact ⟨m', .settles (n := n) (congrArg _ hrun)⟩
  | stopped fault m' =>
    have hb : Behaves .always p.body.stmts m (.stops fault m') :=
      .settles (n := n) (congrArg _ hrun)
    -- the only fault left is a zero divisor, which ends the batch
    cases unfailing_of_behaves hp hb with
    | refused _ _ hreply => cases hreply
    | zeroDivisor _ _ _ _ =>
      rw [hrun] at h
      cases h
  | unfinished todo m' =>
    rw [hrun] at h
    cases h

/-- In its turn, on some machine, the unit ends a batch in this way. -/
def LoadedUnit.Turn (n : Nat) (sink : Sink) (shared : Bool) (u : LoadedUnit) (cut : Option Ending) :
    Prop :=
  ∃ p m, u.runnable? = some p ∧ (run sink n p.body.stmts (Batch.prepare shared m)).cut? = cut

namespace Batch

/-- Of those that are to have their turns one after the other, the second list begins: all of them, or
those up to the first whose turn brings an end to the batch. -/
inductive Begins {α : Type} (turn : α → Option Ending → Prop) : List α → List α → Ending → Prop
  | nil : Begins turn [] [] .complete
  | next {a : α} {rest begun : List α} {ending : Ending} (h : turn a none)
      (hrest : Begins turn rest begun ending) : Begins turn (a :: rest) (a :: begun) ending
  | last {a : α} {rest : List α} {ending : Ending} (h : turn a (some ending))
      (hcut : ending ≠ .complete) : Begins turn (a :: rest) [a] ending

section Begins

variable {α β : Type} {turn : α → Option Ending → Prop} {all begun : List α} {ending : Ending}

/-- Those that begin are the first ones. -/
theorem Begins.isPrefix (h : Begins turn all begun ending) : begun <+: all := by
  induction h with
  | nil => exact List.prefix_rfl
  | next _ _ ih => exact List.cons_prefix_cons.2 ⟨rfl, ih⟩
  | last _ _ => exact List.cons_prefix_cons.2 ⟨rfl, List.nil_prefix⟩

/-- In a complete batch all begin. -/
theorem Begins.eq_of_complete (h : Begins turn all begun ending) (hcomplete : ending = .complete) :
    begun = all := by
  induction h with
  | nil => rfl
  | next _ _ ih => rw [ih hcomplete]
  | last _ hcut => exact absurd hcomplete hcut

/-- A batch that is not complete stops in the turn of the one that began last. -/
theorem Begins.exists_last (h : Begins turn all begun ending) (hcut : ending ≠ .complete) :
    ∃ done a rest, all = done ++ a :: rest ∧ begun = done ++ [a] ∧ (∀ b ∈ done, turn b none) ∧
      turn a (some ending) := by
  induction h with
  | nil => exact absurd rfl hcut
  | @next b _ _ _ hb _ ih =>
    obtain ⟨done, a, rest, rfl, rfl, hdone, ha⟩ := ih hcut
    exact ⟨b :: done, a, rest, rfl, rfl, List.forall_mem_cons.2 ⟨hb, hdone⟩, ha⟩
  | last ha _ => exact ⟨[], _, _, rfl, rfl, by simp, ha⟩

/-- Where the first ones do not end the batch and the one behind them does, it stops there. -/
theorem Begins.stops {done : List α} {a : α} {rest : List α}
    (h : Begins turn (done ++ a :: rest) begun ending)
    (hdone : ∀ b ∈ done, ∀ e, ¬ turn b (some e)) (ha : ¬ turn a none) :
    begun = done ++ [a] ∧ turn a (some ending) := by
  induction done generalizing begun with
  | nil =>
    cases h with
    | next hnone _ => exact absurd hnone ha
    | last hlast _ => exact ⟨rfl, hlast⟩
  | cons b done ih =>
    obtain ⟨hb, hdone⟩ := List.forall_mem_cons.1 hdone
    cases h with
    | next _ hrest =>
      obtain ⟨rfl, hlast⟩ := ih hrest hdone
      exact ⟨rfl, hlast⟩
    | last hlast _ => exact absurd hlast (hb _)

/-- Turns under other names. -/
theorem Begins.map {turn' : β → Option Ending → Prop} {f : α → β}
    (h : Begins turn all begun ending) (hf : ∀ a ∈ all, ∀ cut, turn a cut → turn' (f a) cut) :
    Begins turn' (all.map f) (begun.map f) ending := by
  induction h with
  | nil => exact .nil
  | next ha _ ih =>
    obtain ⟨hfirst, hf⟩ := List.forall_mem_cons.1 hf
    exact .next (hfirst _ ha) (ih hf)
  | last ha hcut => exact .last (hf _ List.mem_cons_self _ ha) hcut

end Begins

/-- The units that begin to run in a batch are the first ones of those that can, up to one that ends
the batch. -/
theorem begins_runWithin (n : Nat) (sink : Sink) (shared : Bool) (units : List (Option LoadedUnit))
    (m : Machine) :
    Begins (LoadedUnit.Turn n sink shared) (executed units) (runWithin n sink shared units m).begun
      (runWithin n sink shared units m).ending := by
  induction units generalizing m with
  | nil => exact .nil
  | cons unit units ih =>
    cases unit with
    | none => exact ih m
    | some u =>
      rw [runWithin]
      cases hu : u.runnable? with
      | none =>
        rw [executed_cons_of_skip hu]
        exact ih m
      | some p =>
        rw [executed_cons_of_ran hu]
        have hturn : u.Turn n sink shared (MiniLua.run sink n p.body.stmts (prepare shared m)).cut? :=
          ⟨p, m, hu, rfl⟩
        dsimp only
        cases hrun : MiniLua.run sink n p.body.stmts (prepare shared m) with
        | done m' =>
          rw [hrun] at hturn
          rw [Trace.begun_after_started]
          exact .next hturn (ih m')
        | stopped fault m' =>
          rw [hrun, Outcome.cut?] at hturn
          dsimp only
          split
          · rename_i hcrash
            rw [if_pos hcrash] at hturn
            rw [Trace.begun_started]
            exact .last hturn (by simp)
          · rename_i hreported
            rw [if_neg hreported] at hturn
            rw [Trace.begun_after_started]
            exact .next hturn (ih m')
        | unfinished todo m' =>
          rw [hrun] at hturn
          rw [Trace.begun_started]
          exact .last hturn (by simp)

end Batch
end MiniLua

import MiniLua.Proofs.Batches

/-!
# Own and shared variables

What a batch does is known from runs of its programs. Units with variables of their own do what each
does alone, one after the other. Units that share their variables do what one program does that has
all their statements in a row.

## Delivered

- `Batch.alone`, `Batch.Completes.events_eq`: units with variables of their own, and each by itself.
- `Batch.Isolated`, `Batch.isolated_of_calm`: such units do not touch each other.
- `InTurn`, `InTurn.behaves_concat`: programs one after the other, and their statements in a row.
- `Batch.Sequential`, `Batch.sequential_of_calm`: units that share their variables are such programs.
-/

set_option autoImplicit false

namespace MiniLua
namespace Batch

/-! ## A batch to look at -/

/-- A program that counts one up and prints the count. -/
def tally : Program where
  name := some ⟨102, false⟩
  body := .seq [.assign ⟨120, false⟩ (.binary .add (.var ⟨120, false⟩) (.lit 1)),
    .print (.var ⟨120, false⟩)]

/-- The program twice, with a unit that could not be loaded, one without a program, and one that is
left out. -/
def tallyTwice : List (Option LoadedUnit) :=
  [some { name := "a", program := some tally, failure := some (.plain "unreadable") },
    some { name := "b", program := some tally }, none, some { name := "c" },
    some { name := "d", program := some tally }]

/-- The programs of the batch were read. -/
theorem exists_text_of_mem_tallyTwice :
    ∀ p ∈ programs tallyTwice, ∃ bytes, Program.ofBytes? bytes = .ok p := by
  have htokens : TokenQueue.tokens? (Text.encode "function f ( ) x = + x 1 print ( x ) end") = .ok
      [⟨.functionWord, "function", 1, 1⟩, ⟨.identifier, "f", 1, 10⟩, ⟨.leftParen, "(", 1, 12⟩,
        ⟨.rightParen, ")", 1, 14⟩, ⟨.identifier, "x", 1, 16⟩, ⟨.assign, "=", 1, 18⟩,
        ⟨.plus, "+", 1, 20⟩, ⟨.identifier, "x", 1, 22⟩, ⟨.integer, "1", 1, 24⟩,
        ⟨.printWord, "print", 1, 26⟩, ⟨.leftParen, "(", 1, 32⟩, ⟨.identifier, "x", 1, 34⟩,
        ⟨.rightParen, ")", 1, 36⟩, ⟨.endWord, "end", 1, 38⟩, ⟨.endOfStream, "EOS", 1, 1⟩] :=
    TokenQueue.eq_ok_of_toOption (by decide +kernel)
  have hread : Program.ofBytes? (Text.encode "function f ( ) x = + x 1 print ( x ) end") =
      .ok tally := by
    rw [Program.ofBytes?_eq_run htokens]
    rfl
  intro p hp
  have hp : p ∈ [tally, tally] := hp
  simp only [List.mem_cons, List.not_mem_nil, or_false, or_self] at hp
  rw [hp]
  exact ⟨_, hread⟩

/-! ## Units with variables of their own -/

/-- The trace of a unit in a batch of its own. -/
def alone (n : Nat) (u : LoadedUnit) : Trace :=
  runWithin n .always false [some u] .fresh

/-- The units of the batch do what each does alone, one after the other. Those that are passed over
leave a report, and the others do the same without them. -/
structure Isolated (n : Nat) (units : List (Option LoadedUnit)) (t : Trace) : Prop
    extends Accounted units t where
  alone : ∀ u ∈ present units, Accounted [some u] (Batch.alone n u)
  results : t.results = (present units).flatMap fun u => (Batch.alone n u).results
  output : t.output = (executed units).flatMap fun u => (Batch.alone n u).output
  report : ∀ u ∈ present units, u.runnable? = none → (Batch.alone n u).events = [.result u.skip]
  work : t.work = runWithin n .always false ((executed units).map some) .fresh
  anyFailed : t.anyFailed = true ↔ ∃ u ∈ present units, u.runnable? = none

section Alone

variable {n : Nat} {u : LoadedUnit} {p : Program} {units : List (Option LoadedUnit)}
  {m m' : Machine} {t : Trace}

theorem alone_of_skip (hu : u.runnable? = none) : alone n u = ⟨[.result u.skip], .complete⟩ := by
  rw [alone, runWithin, hu]
  rfl

/-- A unit that is done behind others does the same alone. -/
theorem completes_alone (hu : u.runnable? = some p)
    (hrun : MiniLua.run .always n p.body.stmts (prepare false m) = .done m') :
    Completes n false [some u] .fresh
      (Trace.after (u.started m' ++ [.result (u.ran none m')]) ⟨[], .complete⟩) := by
  have hbehind : (prepare false m).Behind [] (prepare false .fresh) := ⟨rfl, rfl⟩
  obtain ⟨e, he, hsame⟩ := exists_run_done_behind hbehind hrun
  have hstarted : u.started e = u.started m' := by
    rw [LoadedUnit.started, hsame.printed]
    rfl
  have hran : u.ran none e = u.ran none m' := by
    rw [LoadedUnit.ran, hsame.store]
    rfl
  have hcompletes := Completes.ran hu he (.nil e)
  rw [hstarted, hran] at hcompletes
  exact hcompletes

/-- The events of a batch of units with variables of their own are those of the units alone. -/
theorem Completes.events_eq (h : Completes n false units m t) :
    t.events = (present units).flatMap fun u => (alone n u).events := by
  induction h with
  | nil m => rfl
  | absent hrest ih => exact ih
  | skip hu hrest ih =>
    rw [present_cons_some, List.flatMap_cons, ← ih, alone_of_skip hu]
    rfl
  | ran hu hrun hrest ih =>
    rw [present_cons_some, List.flatMap_cons, ← ih, alone, (completes_alone hu hrun).runWithin_eq]
    simp [Trace.after]

/-- Each unit of a batch that completes completes alone. -/
theorem Completes.alone (h : Completes n false units m t) (hu : u ∈ present units) :
    Completes n false [some u] .fresh (Batch.alone n u) := by
  have hunit : ∀ {t}, Completes n false [some u] .fresh t →
      Completes n false [some u] .fresh (Batch.alone n u) := by
    intro t ht
    rwa [Batch.alone, ht.runWithin_eq]
  induction h with
  | nil m => cases hu
  | absent hrest ih => exact ih hu
  | skip hskip hrest ih =>
    rcases List.mem_cons.1 hu with rfl | hu
    · exact hunit (.skip hskip (.nil _))
    · exact ih hu
  | ran hran hrun hrest ih =>
    rcases List.mem_cons.1 hu with rfl | hu
    · exact hunit (completes_alone hran hrun)
    · exact ih hu

/-- Units that are passed over do not print. -/
theorem flatMap_output_executed (n : Nat) (units : List (Option LoadedUnit)) :
    ((present units).flatMap fun u => (Batch.alone n u).output) =
      (executed units).flatMap fun u => (Batch.alone n u).output := by
  induction units with
  | nil => rfl
  | cons unit units ih =>
    cases unit with
    | none => exact ih
    | some u =>
      rw [present_cons_some, List.flatMap_cons, ih]
      cases hu : u.runnable? with
      | none =>
        rw [executed_cons_of_skip hu, alone_of_skip hu]
        rfl
      | some p => rw [executed_cons_of_ran hu, List.flatMap_cons]

/-- A batch of units with variables of their own that completes keeps them apart. -/
theorem isolated_of_completes (h : Completes n false units .fresh t) : Isolated n units t where
  toAccounted := h.accounted
  alone u hu := (h.alone hu).accounted
  results := by
    rw [Trace.results, h.events_eq, List.filterMap_flatMap]
    rfl
  output := by
    rw [Trace.output, h.events_eq, List.filterMap_flatMap]
    exact flatMap_output_executed n units
  report u hu hskip := by rw [alone_of_skip hskip]
  work := by rw [← h.runWithin_eq, runWithin_work]
  anyFailed := h.accounted.anyFailed_iff

end Alone

/-- Units with variables of their own do not touch each other. In a batch of programs that were read,
none of which crashes or runs on for ever, every unit does what it does alone on a fresh machine,
whatever stands before it. With enough steps the batch completes; with any number of steps, that of
`Batch.run` among them, it is cut short or it is as said. -/
theorem isolated_of_calm {units : List (Option LoadedUnit)}
    (hread : ∀ p ∈ programs units, ∃ bytes, Program.ofBytes? bytes = .ok p)
    (hcalm : Calm false (programs units) .fresh) :
    (∃ limit, ∀ n, limit ≤ n →
      (runWithin n .always false units .fresh).ending = .complete) ∧
    ∀ n, (runWithin n .always false units .fresh).ending = .unfinished ∨
      Isolated n units (runWithin n .always false units .fresh) := by
  obtain ⟨henough, hcompletes⟩ := completes_of_read hread hcalm
  refine ⟨henough, ?_⟩
  intro n
  rcases hcompletes n with hcut | hdone
  · exact .inl hcut
  · exact .inr (isolated_of_completes hdone)

/-- With variables of their own, both counts are one. -/
theorem isolated_tallyTwice :
    (runWithin 3 .always false tallyTwice .fresh).output = [1, 1] ∧
    Isolated 3 tallyTwice (runWithin 3 .always false tallyTwice .fresh) := by
  have hcalm : Calm false (programs tallyTwice) .fresh :=
    .cons_of_ends (.settles (n := 3) rfl) (.cons_of_ends (.settles (n := 3) rfl) trivial)
  refine ⟨rfl, ?_⟩
  rcases (isolated_of_calm exists_text_of_mem_tallyTwice hcalm).2 3 with hcut | hisolated
  · cases hcut
  · exact hisolated

/-! ## Units that share their variables -/

end Batch

/-- The program with all the statements of the programs in a row. -/
def Program.concat (ps : List Program) : Program where
  name := none
  body := .seq (ps.flatMap fun p => p.body.stmts)

/-- The programs run one after the other, each on the machine that the one before it left, and these
are the machines that they leave. -/
inductive InTurn : List Program → Machine → List Machine → Prop
  | nil (m : Machine) : InTurn [] m []
  | cons {p : Program} {ps : List Program} {m m' : Machine} {ms : List Machine}
      (hfirst : Behaves .always p.body.stmts m (.ends m')) (hrest : InTurn ps m' ms) :
      InTurn (p :: ps) m (m' :: ms)

namespace InTurn

variable {ps : List Program} {m : Machine} {ms : List Machine}

theorem length_eq (h : InTurn ps m ms) : ms.length = ps.length := by
  induction h with
  | nil m => rfl
  | cons hfirst hrest ih => rw [List.length_cons, List.length_cons, ih]

/-- The first few of the programs. -/
theorem take (h : InTurn ps m ms) (i : Nat) : InTurn (ps.take i) m (ms.take i) := by
  induction h generalizing i with
  | nil m =>
    rw [List.take_nil, List.take_nil]
    exact .nil m
  | cons hfirst hrest ih =>
    cases i with
    | zero => exact .nil _
    | succ i => exact .cons hfirst (ih i)

/-- One program with all the statements ends where the last of the programs does. -/
theorem behaves_concat (h : InTurn ps m ms) :
    Behaves .always (Program.concat ps).body.stmts m (.ends (ms.getLastD m)) := by
  induction h with
  | nil m => exact .settles (n := 1) rfl
  | cons hfirst hrest ih =>
    rw [List.getLastD_cons]
    exact hfirst.append ih

end InTurn

namespace Batch

/-- The units of the batch do what one program does that has all their statements in a row: it prints
the same and ends on the variables of the last unit, and so do the first few of the units. Units that
do not run have no part in this. -/
structure Sequential (n : Nat) (units : List (Option LoadedUnit)) (t : Trace) : Prop
    extends Accounted units t where
  whole : ∃ e, Behaves .always (Program.concat (programs units)).body.stmts .fresh (.ends e) ∧
    t.output = e.printed.toList ∧
    ∀ snapshot, t.snapshots.getLast? = some snapshot → snapshot = e.store.snapshot
  each : ∀ i, i < (programs units).length → ∃ e,
    Behaves .always (Program.concat ((programs units).take (i + 1))).body.stmts .fresh (.ends e) ∧
      t.snapshots[i]? = some e.store.snapshot
  length_snapshots : t.snapshots.length = (programs units).length
  others : ∀ units', executed units' = executed units →
    (runWithin n .always true units' .fresh).ending = t.ending ∧
      (runWithin n .always true units' .fresh).output = t.output ∧
      (runWithin n .always true units' .fresh).snapshots = t.snapshots

section Shared

variable {n : Nat} {units units' : List (Option LoadedUnit)} {m m' : Machine} {t : Trace}

/-- In a batch with shared variables, the programs run in turn, here from a machine on which more was
printed before. -/
theorem Completes.exists_inTurn (h : Completes n true units m t) (hstore : m'.store = m.store) :
    ∃ ms, InTurn (programs units) m' ms ∧ t.snapshots = (ms.map fun e => e.store.snapshot) ∧
      m'.printed.toList ++ t.output = (ms.getLastD m').printed.toList := by
  induction h generalizing m' with
  | nil m => exact ⟨[], .nil m', rfl, List.append_nil _⟩
  | absent hrest ih => exact ih hstore
  | skip hu hrest ih =>
    rw [programs_cons_of_skip hu]
    exact ih hstore
  | @ran u p units m e t hu hrun hrest ih =>
    -- the program starts with an empty output in the batch, and behind the output so far in the chain
    have hbehind : (prepare true m).Behind m'.printed.toList m' :=
      ⟨hstore, (List.append_nil _).symm⟩
    obtain ⟨e', he', hsame⟩ := exists_run_done_behind hbehind hrun
    obtain ⟨ms, hturn, hsnapshots, hprinted⟩ := ih hsame.store
    refine ⟨e' :: ms, ?_, ?_, ?_⟩
    · rw [programs_cons_of_ran hu]
      exact .cons (.settles (n := n) (congrArg _ he')) hturn
    · rw [List.map_cons, ← hsnapshots, hsame.store]
      simp [Trace.snapshots, LoadedUnit.ran]
    · rw [List.getLastD_cons, ← hprinted, hsame.printed, Trace.output_after_started,
        List.append_assoc]

/-- A batch with shared variables that completes is a run of all its statements. -/
theorem sequential_of_completes (h : Completes n true units .fresh t) : Sequential n units t := by
  obtain ⟨ms, hturn, hsnapshots, hprinted⟩ := h.exists_inTurn (rfl : Machine.fresh.store = _)
  refine { toAccounted := h.accounted, whole := ?_, each := ?_, length_snapshots := ?_, others := ?_ }
  · refine ⟨_, hturn.behaves_concat, hprinted, ?_⟩
    intro snapshot hlast
    rw [hsnapshots, List.getLast?_map, Option.map_eq_some_iff] at hlast
    obtain ⟨e, he, rfl⟩ := hlast
    rw [List.getLastD_eq_getLast?, he]
    rfl
  · intro i hi
    rw [← hturn.length_eq] at hi
    -- the machine on which the first few programs end is the one that the last of them leaves
    have hlast : (ms.take (i + 1)).getLastD .fresh = ms[i] := by
      rw [List.take_succ_eq_append_getElem hi, List.getLastD_concat]
    refine ⟨_, (hturn.take (i + 1)).behaves_concat, ?_⟩
    rw [hlast, hsnapshots, List.getElem?_map, List.getElem?_eq_getElem hi]
    rfl
  · rw [hsnapshots, List.length_map, hturn.length_eq]
  · intro units' heq
    have hwork : (runWithin n .always true units' .fresh).work = t.work := by
      rw [runWithin_work, heq, ← runWithin_work, h.runWithin_eq]
    have hending : (runWithin n .always true units' .fresh).work.ending = t.work.ending := by
      rw [hwork]
    refine ⟨hending, ?_, ?_⟩
    · rw [← Trace.output_work, hwork, Trace.output_work]
    · rw [← Trace.snapshots_work, hwork, Trace.snapshots_work]

end Shared

/-- Units that share their variables are one program in parts. In a batch of programs that were read,
none of which crashes or runs on for ever when its turn comes, the output and the variables at the end
are those of the program with all the statements in a row, from a fresh machine, and the variables at
the end of each unit are those of the program with the statements up to there. With enough steps the
batch completes; with any number of steps, that of `Batch.run` among them, it is cut short or it is as
said. -/
theorem sequential_of_calm {units : List (Option LoadedUnit)}
    (hread : ∀ p ∈ programs units, ∃ bytes, Program.ofBytes? bytes = .ok p)
    (hcalm : Calm true (programs units) .fresh) :
    (∃ limit, ∀ n, limit ≤ n →
      (runWithin n .always true units .fresh).ending = .complete) ∧
    ∀ n, (runWithin n .always true units .fresh).ending = .unfinished ∨
      Sequential n units (runWithin n .always true units .fresh) := by
  obtain ⟨henough, hcompletes⟩ := completes_of_read hread hcalm
  refine ⟨henough, ?_⟩
  intro n
  rcases hcompletes n with hcut | hdone
  · exact .inl hcut
  · exact .inr (sequential_of_completes hdone)

/-- With shared variables, the second count goes on from the first. -/
theorem sequential_tallyTwice :
    (runWithin 3 .always true tallyTwice .fresh).output = [1, 2] ∧
    Sequential 3 tallyTwice (runWithin 3 .always true tallyTwice .fresh) := by
  have hcalm : Calm true (programs tallyTwice) .fresh :=
    .cons_of_ends (.settles (n := 3) rfl) (.cons_of_ends (.settles (n := 3) rfl) trivial)
  refine ⟨rfl, ?_⟩
  rcases (sequential_of_calm exists_text_of_mem_tallyTwice hcalm).2 3 with hcut | hsequential
  · cases hcut
  · exact hsequential

end Batch
end MiniLua

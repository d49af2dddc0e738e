import MiniLua.Proofs.Invocation
import MiniLua.Proofs.Sharing

/-!
# What running files writes

Files that are run one after the other are reported one after the other: a file that is a program
writes what its program prints by itself on fresh variables, and a file that cannot be read, or that is
no program, writes one line of diagnosis and disturbs no other file. The status tells whether there was
such a line.

The report is that of the files in the order in which they are named, whatever programs were found in
the cache and in whatever order the loads took their steps.

## Delivered

- `CommandLine.runUnits_uncached`: a report does not show where a program came from.
- `CommandLine.FileAnswer`, `CommandLine.RunAnswer`, `CommandLine.Answered`: what files write, and the
  report that consists of it.
- `Batch.calm_of_fresh`: programs that are calm by themselves are calm in their turn.
- `CommandLine.completes_of_calmFiles`: files that are calm run to the end of the last one.
- `CommandLine.answered_run`: the report of a run of files.
-/

set_option autoImplicit false

namespace MiniLua

/-! ## Where a program came from -/

/-- The event without the mark that says whether a program came from a cache. -/
def BatchEvent.uncached : BatchEvent → BatchEvent
  | .before u => .before u.uncached
  | e => e

/-- The trace without these marks. -/
def Trace.uncached (t : Trace) : Trace :=
  { t with events := t.events.map BatchEvent.uncached }

theorem LoadedUnit.started_uncached (u : LoadedUnit) (m : Machine) :
    u.uncached.started m = (u.started m).map BatchEvent.uncached := by
  simp [LoadedUnit.started, BatchEvent.uncached, Function.comp_def]

theorem Trace.uncached_after (events : List BatchEvent) (t : Trace) :
    (t.after events).uncached = t.uncached.after (events.map BatchEvent.uncached) := by
  simp [Trace.uncached, Trace.after]

theorem Trace.anyFailed_uncached (t : Trace) : t.uncached.anyFailed = t.anyFailed := by
  have hresults : t.uncached.results = t.results := by
    unfold results uncached
    rw [List.filterMap_map]
    congr 1
    funext e
    cases e <;> rfl
  rw [anyFailed, hresults, anyFailed]

theorem Trace.begun_uncached (t : Trace) : t.uncached.begun = t.begun.map LoadedUnit.uncached := by
  unfold begun uncached
  rw [List.filterMap_map, List.map_filterMap]
  congr 1
  funext e
  cases e <;> rfl

/-- A batch does the same whether its programs came from a cache or not. -/
theorem Batch.runWithin_uncached (limit : Nat) (sink : Sink) (shared : Bool)
    (units : List LoadedUnit) (m : Machine) :
    runWithin limit sink shared ((units.map LoadedUnit.uncached).map some) m =
      (runWithin limit sink shared (units.map some) m).uncached := by
  induction units generalizing m with
  | nil => rfl
  | cons u units ih =>
    have hu : u.uncached.runnable? = u.runnable? := rfl
    simp only [List.map_cons, runWithin, hu]
    cases u.runnable? with
    | none =>
      rw [ih, Trace.uncached_after]
      rfl
    | some p =>
      dsimp only
      -- what a unit leaves behind its beginning has no mark
      have hstarted : ∀ fault m' (t : Trace),
          t.uncached.after (u.uncached.started m' ++ [.result (u.uncached.ran fault m')]) =
            (t.after (u.started m' ++ [.result (u.ran fault m')])).uncached := by
        intro fault m' t
        rw [Trace.uncached_after, List.map_append, u.started_uncached]
        rfl
      cases MiniLua.run sink limit p.body.stmts (prepare shared m) with
      | done m' =>
        dsimp only
        rw [ih, hstarted]
      | stopped fault m' =>
        dsimp only
        split
        · rw [Trace.uncached, u.started_uncached]
        · rw [ih, hstarted]
      | unfinished todo m' =>
        dsimp only
        rw [Trace.uncached, u.started_uncached]

namespace CommandLine

/-- A report does not show where a program came from. -/
theorem runUnits_uncached (limit : Nat) (o : Options) (shared : Bool) (units : List LoadedUnit) :
    runUnits limit o shared (units.map LoadedUnit.uncached) = runUnits limit o shared units := by
  have htexts : ∀ t : Trace, t.uncached.events.map (eventText o) = t.events.map (eventText o) := by
    intro t
    rw [Trace.uncached, List.map_map]
    congr 1
    funext e
    cases e <;> rfl
  rw [runUnits, Batch.runWithin_uncached, runUnits, traceReport, traceReport, htexts,
    Trace.anyFailed_uncached]
  rfl

/-- A report of units has nothing left to be written. -/
theorem closed_runUnits (limit : Nat) (o : Options) (shared : Bool) (units : List LoadedUnit)
    (colored : Bool) :
    (runUnits limit o shared units).closed colored = runUnits limit o shared units := by
  rw [runUnits, traceReport, Report.closed]
  cases (Batch.runWithin limit .always shared (units.map some) .fresh).ending with
  | crashed fault => rfl
  | unfinished => rfl
  | complete =>
    dsimp only
    split <;> rename_i heq
    · split at heq <;> cases heq
    · split at heq <;> cases heq
    · rfl

/-! ## What files write -/

/-- What the file writes to the two streams by itself. -/
inductive FileAnswer (w : World) (path : String) : String → String → Prop
  /-- A file that cannot be read is diagnosed. -/
  | unreadable {e : FileError} (hfile : w.file path = .error e) :
      FileAnswer w path "" (((Failure.load path (.wrap ("read " ++ path) (e.failure path))).diagnostic
        path).describe ++ "\n")
  /-- So is a text that is no program. -/
  | refused {text : Bytes} {e : SourceError} (hfile : w.file path = .ok text)
      (hread : Program.ofBytes? text = .error e) :
      FileAnswer w path "" ((e.failure.diagnostic path).describe ++ "\n")
  /-- A program writes what it prints on fresh variables. -/
  | ran {text : Bytes} {p : Program} {m : Machine} (hfile : w.file path = .ok text)
      (hread : Program.ofBytes? text = .ok p)
      (hrun : Behaves .always p.body.stmts .fresh (.ends m)) :
      FileAnswer w path (printedText m.printed) ""

/-- What files write to the two streams, one after the other. -/
inductive RunAnswer (w : World) : List String → String → String → Prop
  | nil : RunAnswer w [] "" ""
  | cons {path out err outs errs : String} {files : List String} (hfirst : FileAnswer w path out err)
      (hrest : RunAnswer w files outs errs) : RunAnswer w (path :: files) (out ++ outs) (err ++ errs)

/-- The report is what the files write, and its status tells whether one of them was diagnosed. -/
structure Answered (w : World) (files : List String) (r : Report) : Prop where
  texts : RunAnswer w files r.out r.err
  status : r.status? = some (if r.err = "" then 0 else 1)

/-- What events write to the first stream. -/
def outText (events : List BatchEvent) : String :=
  String.join ((events.map (eventText {})).map Prod.fst)

/-- What events write to the second stream. -/
def errText (events : List BatchEvent) : String :=
  String.join ((events.map (eventText {})).map Prod.snd)

theorem outText_append (xs ys : List BatchEvent) : outText (xs ++ ys) = outText xs ++ outText ys := by
  simp [outText]

theorem errText_append (xs ys : List BatchEvent) : errText (xs ++ ys) = errText xs ++ errText ys := by
  simp [errText]

/-- Printing writes to the first stream only. -/
theorem errText_printed (values : List Int32) : errText (values.map .printed) = "" := by
  induction values with
  | nil => rfl
  | cons value values ih =>
    rw [List.map_cons, ← List.singleton_append, errText_append, ih]
    rfl

/-- A unit that is done writes what its program has printed. -/
theorem outText_ran (u : LoadedUnit) (m : Machine) :
    outText (u.started m ++ [.result (u.ran none m)]) = printedText m.printed := by
  simp [outText, LoadedUnit.started, LoadedUnit.ran, eventText, UnitResult.diagnostic?, printedText,
    Function.comp_def]

theorem errText_ran (u : LoadedUnit) (m : Machine) :
    errText (u.started m ++ [.result (u.ran none m)]) = "" := by
  rw [LoadedUnit.started, ← List.singleton_append, errText_append, errText_append, errText_printed]
  rfl

/-- A unit that is passed over writes its diagnosis. -/
theorem errText_skip {u : LoadedUnit} {f : Failure} (hf : u.failure = some f) :
    errText [.result u.skip] = (f.diagnostic u.path).describe ++ "\n" := by
  simp [errText, eventText, LoadedUnit.skip, UnitResult.diagnostic?, LoadedUnit.skipFailure, hf,
    diagnosticLine, paint]

theorem outText_skip (u : LoadedUnit) : outText [.result u.skip] = "" := by
  simp [outText, eventText, LoadedUnit.skip, UnitResult.diagnostic?]

theorem errText_skip_ne (u : LoadedUnit) : errText [.result u.skip] ≠ "" := by
  simp [errText, eventText, LoadedUnit.skip, UnitResult.diagnostic?, diagnosticLine, paint]

section Answers

variable {w : World} {n : Nat} {path : String} {files : List String} {m m' : Machine} {t : Trace}

/-- A file whose unit is passed over is diagnosed. -/
theorem fileAnswer_of_skip (hu : (fileUnit w path).runnable? = none) :
    FileAnswer w path "" (errText [.result (fileUnit w path).skip]) := by
  rcases file_cases w path with ⟨e, hfile⟩ | ⟨text, e, hfile, hread⟩ | ⟨text, p, hfile, hread⟩
  · have hunit := fileUnit_of_unreadable hfile
    rw [errText_skip (congrArg LoadedUnit.failure hunit), hunit]
    exact .unreadable hfile
  · have hunit := fileUnit_of_refused hfile hread
    rw [errText_skip (congrArg LoadedUnit.failure hunit), hunit]
    exact .refused hfile hread
  · rw [fileUnit_of_program hfile hread] at hu
    cases hu

/-- A file whose program is done after others writes what it prints by itself. -/
theorem fileAnswer_of_ran {p : Program} (hu : (fileUnit w path).runnable? = some p)
    (hrun : MiniLua.run .always n p.body.stmts (Batch.prepare false m) = .done m') :
    FileAnswer w path (printedText m'.printed) "" := by
  -- variables and output start afresh, and the count of earlier writes does not matter
  have hbehind : (Batch.prepare false m).Behind [] .fresh := ⟨rfl, rfl⟩
  obtain ⟨e, he, hsame⟩ := exists_run_done_behind hbehind hrun
  have hprinted : m'.printed = e.printed := Array.toList_inj.1 hsame.printed.symm
  obtain ⟨text, hfile, hread⟩ := exists_text_of_runnable? hu
  rw [hprinted]
  exact .ran hfile hread (.settles (n := n) (congrArg _ he))

/-- The trace of files that completes writes what the files write, and something failed just when the
second stream is not empty. -/
theorem answer_of_completes
    (h : Batch.Completes n false ((files.map (fileUnit w)).map some) m t) :
    RunAnswer w files (outText t.events) (errText t.events) ∧
      (t.anyFailed = true ↔ errText t.events ≠ "") := by
  induction files generalizing m t with
  | nil =>
    cases h
    exact ⟨.nil, by simp [Trace.anyFailed, Trace.results, errText]⟩
  | cons path files ih =>
    rw [List.map_cons, List.map_cons] at h
    cases h with
    | @skip _ _ _ t hu hrest =>
      have hanswer := RunAnswer.cons (fileAnswer_of_skip hu) (ih hrest).1
      have hfailed : (t.after [.result (fileUnit w path).skip]).anyFailed = true := by
        rw [Trace.anyFailed, Trace.results_after_result, List.any_cons]
        rfl
      -- a diagnosis is never empty, so the second stream is not
      have hline := errText_skip_ne (fileUnit w path)
      rw [hfailed, Trace.after, outText_append, errText_append, outText_skip]
      exact ⟨hanswer, by simp [hline]⟩
    | @ran _ p _ _ m' t hu hrun hrest =>
      have hanswer := RunAnswer.cons (fileAnswer_of_ran hu hrun) (ih hrest).1
      have hfailed : (t.after ((fileUnit w path).started m' ++
          [.result ((fileUnit w path).ran none m')])).anyFailed = t.anyFailed := by
        rw [Trace.anyFailed, Trace.results_after_started, List.any_cons]
        rfl
      rw [hfailed, Trace.after, outText_append, errText_append, outText_ran, errText_ran]
      exact ⟨hanswer, by rw [String.empty_append, (ih hrest).2]⟩

/-- The ending of the report of a complete batch tells whether something failed. -/
theorem ending_traceReport (o : Options) (h : t.ending = .complete) :
    (traceReport o t).ending = if t.anyFailed then .reported else .done := by
  rw [traceReport, h]

/-- The report of files whose batch completes. -/
theorem answered_of_completes
    (h : Batch.Completes n false ((files.map (fileUnit w)).map some) .fresh t) :
    Answered w files (traceReport {} t) := by
  obtain ⟨hanswer, hfailed⟩ := answer_of_completes h
  refine ⟨hanswer, ?_⟩
  have herr : (traceReport {} t).err = errText t.events := rfl
  rw [Report.status?, ending_traceReport {} h.accounted.complete, herr]
  by_cases hempty : errText t.events = ""
  · have hdone : t.anyFailed = false := by
      rw [Bool.eq_false_iff]
      exact fun hany => hfailed.1 hany hempty
    rw [hdone, if_pos hempty]
    rfl
  · rw [hfailed.2 hempty, if_neg hempty]
    rfl

end Answers

end CommandLine

/-! ## Calm programs -/

/-- A program that is calm by itself is calm in its turn: what was written before has no part in
it. -/
theorem Program.Calm.prepare {p : Program} (h : p.Calm .fresh) (m : Machine) :
    p.Calm (Batch.prepare false m) := by
  have hbehind : (Batch.prepare false m).Behind [] .fresh := ⟨rfl, rfl⟩
  have halike := run_behind p.body.stmts hbehind
  constructor
  · intro hdiverges
    obtain ⟨b, hb, hsame⟩ := hdiverges.alike halike
    cases hsame with
    | diverges => exact h.finite hb
  · intro fault m' hstops
    obtain ⟨b, hb, hsame⟩ := hstops.alike halike
    cases hsame with
    | stops _ hm => exact h.intact hb

/-- Programs that are calm by themselves are calm one after the other. -/
theorem Batch.calm_of_fresh {ps : List Program} (h : ∀ p ∈ ps, p.Calm .fresh) (m : Machine) :
    Calm false ps m := by
  induction ps generalizing m with
  | nil => trivial
  | cons p ps ih =>
    obtain ⟨hp, hps⟩ := List.forall_mem_cons.1 h
    exact ⟨hp.prepare m, fun m' _ => ih hps m'⟩

namespace CommandLine

section Run

variable {w : World} {files : List String}

/-- The programs of files are read from their texts. -/
theorem exists_file_of_mem_programs {p : Program}
    (hp : p ∈ Batch.programs ((files.map (fileUnit w)).map some)) :
    ∃ path ∈ files, ∃ text, w.file path = .ok text ∧ Program.ofBytes? text = .ok p := by
  obtain ⟨u, hu, hrunnable⟩ := List.mem_filterMap.1 hp
  have hmem : u ∈ files.map (fileUnit w) := by
    simpa [Batch.present] using hu
  obtain ⟨path, hpath, rfl⟩ := List.mem_map.1 hmem
  exact ⟨path, hpath, exists_text_of_runnable? hrunnable⟩

/-- The files that are programs are calm, each by itself on fresh variables. -/
def CalmFiles (w : World) (files : List String) : Prop :=
  ∀ path ∈ files, ∀ text p, w.file path = .ok text → Program.ofBytes? text = .ok p → p.Calm .fresh

/-- Calm files complete with enough steps, and with any number of steps they complete or are cut
short. -/
theorem completes_of_calmFiles (hcalm : CalmFiles w files) :
    (∃ limit, ∀ n, limit ≤ n →
      (Batch.runWithin n .always false ((files.map (fileUnit w)).map some) .fresh).ending =
        .complete) ∧
    ∀ n, (Batch.runWithin n .always false ((files.map (fileUnit w)).map some) .fresh).ending =
        .unfinished ∨
      Batch.Completes n false ((files.map (fileUnit w)).map some) .fresh
        (Batch.runWithin n .always false ((files.map (fileUnit w)).map some) .fresh) := by
  apply Batch.completes_of_read
  · intro p hp
    obtain ⟨path, -, text, -, hread⟩ := exists_file_of_mem_programs hp
    exact ⟨text, hread⟩
  · apply Batch.calm_of_fresh
    intro p hp
    obtain ⟨path, hpath, text, hfile, hread⟩ := exists_file_of_mem_programs hp
    exact hcalm path hpath text p hfile hread

/-- A run of files is a batch of the units that the files give by themselves. -/
theorem executeWithin_run (hne : files ≠ []) (hplain : ∀ path ∈ files, IsPlain path)
    (hdigest : DigestsDiffer (FileTexts w files)) (n : Nat) :
    executeWithin n w false ("run" :: files) = runUnits n {} false (files.map (fileUnit w)) := by
  have hcommand := executeWithin_command n w false .run hplain
  -- what the cache hands out is what each file gives by itself
  have hload := map_uncached_load hdigest ProgramCache.defaultCapacity
  refine hcommand.trans ?_
  rw [perform, runPrograms, sourcesOf_files _ hne]
  change (runUnits n {} false _).closed false = _
  rw [closed_runUnits, ← hload, runUnits_uncached, fileSources, List.map_map]
  rfl

end Run

/-! ## A shelf with two files -/

/-- A program that prints a number, a text that is no program, and no other file. -/
def shelf : World where
  directory := "/"
  file := fun path =>
    if path = "a" then .ok (Text.encode "function f ( ) print ( 7 ) end")
    else if path = "b" then .ok (Text.encode "end")
    else .error .missing
  repository := fun _ => none

namespace Shelf

theorem ofBytes?_program : Program.ofBytes? (Text.encode "function f ( ) print ( 7 ) end") =
    .ok ⟨some ⟨102, false⟩, .seq [.print (.lit 7)], false⟩ := by
  have htokens : TokenQueue.tokens? (Text.encode "function f ( ) print ( 7 ) end") = .ok
      [⟨.functionWord, "function", 1, 1⟩, ⟨.identifier, "f", 1, 10⟩, ⟨.leftParen, "(", 1, 12⟩,
        ⟨.rightParen, ")", 1, 14⟩, ⟨.printWord, "print", 1, 16⟩, ⟨.leftParen, "(", 1, 22⟩,
        ⟨.integer, "7", 1, 24⟩, ⟨.rightParen, ")", 1, 26⟩, ⟨.endWord, "end", 1, 28⟩,
        ⟨.endOfStream, "EOS", 1, 1⟩] :=
    TokenQueue.eq_ok_of_toOption (by decide +kernel)
  exact Program.ofBytes?_eq_run htokens

theorem ofBytes?_end : ∃ e, Program.ofBytes? (Text.encode "end") = .error e := by
  have htokens : TokenQueue.tokens? (Text.encode "end") =
      .ok [⟨.endWord, "end", 1, 1⟩, ⟨.endOfStream, "EOS", 1, 1⟩] :=
    TokenQueue.eq_ok_of_toOption (by decide +kernel)
  exact ⟨_, Program.ofBytes?_eq_run htokens⟩

theorem eq_of_fileTexts {files : List String} {text : Bytes} (h : FileTexts shelf files text) :
    text = Text.encode "function f ( ) print ( 7 ) end" ∨ text = Text.encode "end" := by
  obtain ⟨path, -, hfile⟩ := h
  simp only [shelf] at hfile
  split at hfile
  · cases hfile
    exact .inl rfl
  · split at hfile
    · cases hfile
      exact .inr rfl
    · cases hfile

theorem digestsDiffer (files : List String) : DigestsDiffer (FileTexts shelf files) := by
  apply DigestsDiffer.of_nodup [Text.encode "function f ( ) print ( 7 ) end", Text.encode "end"]
  · intro text h
    rcases eq_of_fileTexts h with rfl | rfl <;> simp
  · decide +kernel

theorem calmFiles (files : List String) : CalmFiles shelf files := by
  intro path hpath text p hfile hread
  rcases eq_of_fileTexts ⟨path, hpath, hfile⟩ with rfl | rfl
  · rw [ofBytes?_program] at hread
    cases hread
    exact .of_ends (.settles (n := 2) rfl)
  · obtain ⟨e, he⟩ := ofBytes?_end
    rw [he] at hread
    cases hread

theorem report_run :
    (executeWithin 2 shelf false ["run", "a", "b", "c", "a"]).out = "7\n7\n" ∧
      (executeWithin 2 shelf false ["run", "a", "b", "c", "a"]).status? = some 1 := by
  rw [executeWithin_run (by decide) (by decide) (digestsDiffer _)]
  decide +kernel

end Shelf

/-! ## The report of a run -/

/-- A run of files, none of which starts like a flag or holds a program that crashes or runs on for
ever; digests tell their texts apart. With enough steps for each program, the first stream has what
each program prints by itself on fresh variables, in the order of the files, the second has a line for
each file that cannot be read or is no program, in their order, and the status is one just when there
is such a line. With any number of steps, that of `execute` among them, the run is cut short or it is
as said. The report does not depend on the order in which the loads of the files take their steps. -/
theorem answered_run {w : World} {files : List String} (hne : files ≠ [])
    (hplain : ∀ path ∈ files, IsPlain path) (hdigest : DigestsDiffer (FileTexts w files))
    (hcalm : CalmFiles w files) :
    (∃ limit, ∀ n, limit ≤ n → Answered w files (executeWithin n w false ("run" :: files))) ∧
    (∀ n, (executeWithin n w false ("run" :: files)).ending = .unfinished ∨
      Answered w files (executeWithin n w false ("run" :: files))) ∧
    ∀ n cache loadings units,
      Reached (FileTexts w files) ProgramCache.defaultCapacity cache loadings →
      (loadings.map Loading.request = (fileSources files).map fun source => ⟨w, false, source⟩) →
      loadings.map Loading.stage = units.map LoadStage.done →
      runUnits n {} false units = executeWithin n w false ("run" :: files) := by
  obtain ⟨⟨limit, hlimit⟩, hall⟩ := completes_of_calmFiles hcalm
  have hrun := executeWithin_run hne hplain hdigest
  refine ⟨⟨limit, ?_⟩, ?_, ?_⟩
  · intro n hn
    rw [hrun]
    rcases hall n with hcut | hdone
    · rw [hlimit n hn] at hcut
      cases hcut
    · exact answered_of_completes hdone
  · intro n
    rw [hrun]
    rcases hall n with hcut | hdone
    · left
      rw [runUnits, traceReport, hcut]
    · right
      exact answered_of_completes hdone
  · intro n cache loadings units hreached hrequests hdone
    rw [hrun, ← map_uncached_loaded hdigest hreached hrequests hdone, runUnits_uncached]

/-- The program is named twice, before and behind a file that is none and one that is missing. -/
theorem answered_run_shelf :
    (executeWithin 2 shelf false ["run", "a", "b", "c", "a"]).out = "7\n7\n" ∧
    (executeWithin 2 shelf false ["run", "a", "b", "c", "a"]).status? = some 1 ∧
    Answered shelf ["a", "b", "c", "a"] (executeWithin 2 shelf false ["run", "a", "b", "c", "a"]) := by
  have hplain : ∀ path ∈ ["a", "b", "c", "a"], IsPlain path := by decide
  obtain ⟨hout, hstatus⟩ := Shelf.report_run
  refine ⟨hout, hstatus, ?_⟩
  have hrun := answered_run (by decide) hplain (Shelf.digestsDiffer _) (Shelf.calmFiles _)
  rcases hrun.2.1 2 with hcut | hanswered
  · rw [Report.status?, hcut] at hstatus
    cases hstatus
  · exact hanswered

end CommandLine
end MiniLua

import MiniLua.Proofs.Reports

/-!
# Checking files and running them

Checking files accepts those that are programs and diagnoses the others, file by file. Running the same
files begins with the programs that the check accepts, in the same order, and says of the other files
what the check says. It goes through all of them, or up to the first program that crashes or runs on for
ever.

## Delivered

- `CommandLine.holdsProgram`, `CommandLine.diagnosis`: the files that are programs, and the line for the
  others.
- `CommandLine.CheckAnswer`, `CommandLine.checkAnswer_executeWithin`: what checking files writes.
- `CommandLine.FileTurn`, `CommandLine.begins_runTrace`: the files whose programs begin to run.
- `CommandLine.RunAgrees`, `CommandLine.runAgrees`: the programs that are accepted are those that run, up
  to one that stops the run; `CommandLine.exists_limit_of_not_calm`: which one that is.
- `CommandLine.report_agrees`: the diagnoses and the status of a check and of a run.
-/

set_option autoImplicit false

namespace MiniLua

namespace CommandLine

/-! ## Programs and diagnoses -/

/-- The file can be read, and its text is a program. -/
def holdsProgram (w : World) (path : String) : Bool :=
  (w.file path).toOption.any fun text => (Program.ofBytes? text).toOption.isSome

/-- The line of diagnosis of a file that cannot be read, or whose text is no program. -/
def diagnosis (w : World) (path : String) : String :=
  String.join ((fileUnit w path).failure.toList.map fun f => (f.diagnostic path).describe ++ "\n")

/-- The line for a file that is a program. -/
def okLine (path : String) : String :=
  "ok " ++ path ++ "\n"

section Files

variable {w : World} {path : String} {text : Bytes}

theorem holdsProgram_of_unreadable {e : FileError} (h : w.file path = .error e) :
    holdsProgram w path = false := by
  rw [holdsProgram, h]
  rfl

theorem holdsProgram_of_refused (h : w.file path = .ok text) {e : SourceError}
    (hread : Program.ofBytes? text = .error e) : holdsProgram w path = false := by
  rw [holdsProgram, h, Except.toOption, Option.any_some, hread]
  rfl

theorem holdsProgram_of_program (h : w.file path = .ok text) {p : Program}
    (hread : Program.ofBytes? text = .ok p) : holdsProgram w path = true := by
  rw [holdsProgram, h, Except.toOption, Option.any_some, hread]
  rfl

theorem diagnosis_of_unreadable {e : FileError} (h : w.file path = .error e) :
    diagnosis w path = ((Failure.load path (.wrap ("read " ++ path) (e.failure path))).diagnostic
      path).describe ++ "\n" := by
  simp [diagnosis, fileUnit_of_unreadable h]

theorem diagnosis_of_refused (h : w.file path = .ok text) {e : SourceError}
    (hread : Program.ofBytes? text = .error e) :
    diagnosis w path = (e.failure.diagnostic path).describe ++ "\n" := by
  simp [diagnosis, fileUnit_of_refused h hread]

theorem diagnosis_of_program (h : w.file path = .ok text) {p : Program}
    (hread : Program.ofBytes? text = .ok p) : diagnosis w path = "" := by
  simp [diagnosis, fileUnit_of_program h hread]

/-- The unit of a file tells whether it is a program: then the unit can run and has no diagnosis, and
else it has failed and is diagnosed. -/
structure UnitTells (w : World) (path : String) : Prop where
  path_eq : (fileUnit w path).path = path
  runnable : (fileUnit w path).runnable?.isSome = holdsProgram w path
  failed : (fileUnit w path).failure.isSome = !holdsProgram w path
  diagnosed : diagnosis w path = "" ↔ holdsProgram w path = true

theorem unitTells (w : World) (path : String) : UnitTells w path := by
  rcases file_cases w path with ⟨e, hfile⟩ | ⟨text, e, hfile, hread⟩ | ⟨text, p, hfile, hread⟩
  · have hunit := fileUnit_of_unreadable hfile
    have hholds := holdsProgram_of_unreadable hfile
    constructor
    · rw [hunit]
    · rw [hunit, hholds]
      rfl
    · rw [hunit, hholds]
      rfl
    · simp [hholds, diagnosis_of_unreadable hfile]
  · have hunit := fileUnit_of_refused hfile hread
    have hholds := holdsProgram_of_refused hfile hread
    constructor
    · rw [hunit]
    · rw [hunit, hholds]
      rfl
    · rw [hunit, hholds]
      rfl
    · simp [hholds, diagnosis_of_refused hfile hread]
  · have hunit := fileUnit_of_program hfile hread
    have hholds := holdsProgram_of_program hfile hread
    constructor
    · rw [hunit]
    · rw [hunit, hholds]
      rfl
    · rw [hunit, hholds]
      rfl
    · simp [hholds, diagnosis_of_program hfile hread]

/-- What checking a file writes. -/
theorem checkText_fileUnit (w : World) (path : String) :
    checkText {} (fileUnit w path) =
      (if holdsProgram w path then okLine path else "", diagnosis w path) := by
  rcases file_cases w path with ⟨e, hfile⟩ | ⟨text, e, hfile, hread⟩ | ⟨text, p, hfile, hread⟩
  · rw [fileUnit_of_unreadable hfile, holdsProgram_of_unreadable hfile, diagnosis_of_unreadable hfile]
    simp [checkText, diagnosticLine, paint]
  · rw [fileUnit_of_refused hfile hread, holdsProgram_of_refused hfile hread,
      diagnosis_of_refused hfile hread]
    simp [checkText, diagnosticLine, paint]
  · rw [fileUnit_of_program hfile hread, holdsProgram_of_program hfile hread,
      diagnosis_of_program hfile hread]
    simp [checkText, okLine]

end Files

/-! ## Checking files -/

/-- What checking files writes: a line for each program to the first stream and a line for each other
file to the second, both in the order of the files. The status tells whether all are programs. -/
structure CheckAnswer (w : World) (files : List String) (r : Report) : Prop where
  out : r.out = String.join ((files.filter (holdsProgram w)).map okLine)
  err : r.err = String.join ((files.filter fun path => !holdsProgram w path).map (diagnosis w))
  status : r.status? = some (if files.all (holdsProgram w) then 0 else 1)

section Check

variable {w : World} {files : List String}

theorem join_diagnosis (w : World) (files : List String) :
    String.join ((files.filter fun path => !holdsProgram w path).map (diagnosis w)) =
      String.join (files.map (diagnosis w)) := by
  induction files with
  | nil => rfl
  | cons path files ih =>
    rw [List.map_cons, String.join_cons, ← ih]
    cases hpath : holdsProgram w path with
    -- a program is left out of the list, and its diagnosis is empty
    | true =>
      rw [List.filter_cons_of_neg (by simp [hpath]), (unitTells w path).diagnosed.2 hpath,
        String.empty_append]
    | false => rw [List.filter_cons_of_pos (by simp [hpath]), List.map_cons, String.join_cons]

/-- Sources that are loaded without a cache give the units that each gives by itself. -/
theorem loadAll_without_cache (w : World) (cancelled : Bool) (sources : List (Option Source)) :
    loadAll w cancelled none sources =
      (sources.map fun source => LoadRequest.alone ⟨w, cancelled, source⟩, none) := by
  induction sources with
  | nil => rfl
  | cons source sources ih =>
    cases source with
    | none => rw [loadAll, ih, List.map_cons, LoadRequest.alone]
    | some s =>
      -- there is still no cache behind the first source
      have hload : s.load w cancelled none = ((s.load w cancelled none).1, none) := by
        rw [Source.load]
        cases s.read w cancelled with
        | error cause => rfl
        | ok text =>
          simp only [Source.unitOf, Option.bind_none]
          cases Program.ofBytes? text <;> rfl
      rw [loadAll, hload, List.map_cons, LoadRequest.alone]
      simp only [ih]

theorem join_okLine (w : World) (files : List String) :
    String.join (files.map fun path => if holdsProgram w path then okLine path else "") =
      String.join ((files.filter (holdsProgram w)).map okLine) := by
  induction files with
  | nil => rfl
  | cons path files ih =>
    rw [List.map_cons, String.join_cons, ih]
    cases hpath : holdsProgram w path with
    | true => rw [List.filter_cons_of_pos hpath, List.map_cons, String.join_cons, if_pos rfl]
    | false => rw [List.filter_cons_of_neg (by simp [hpath]), if_neg (by decide), String.empty_append]

/-- The report on files that are checked, file by file. -/
theorem checkPrograms_files (hne : files ≠ []) :
    checkPrograms w {} files =
      { out := String.join (files.map fun path => if holdsProgram w path then okLine path else "")
        err := String.join (files.map (diagnosis w))
        ending := if files.all (holdsProgram w) then .done else .reported } := by
  have hsources : (files.map fun path => Source.file { path := path }).map some =
      fileSources files := by
    rw [fileSources, List.map_map]
    rfl
  have hload : (loadAll w false none (fileSources files)).1 = files.map (fileUnit w) := by
    rw [loadAll_without_cache, fileSources, List.map_map]
    rfl
  have htexts : (files.map (fileUnit w)).map (checkText {}) =
      files.map fun path => (if holdsProgram w path then okLine path else "", diagnosis w path) := by
    rw [List.map_map]
    apply List.map_congr_left
    intro path _
    exact checkText_fileUnit w path
  have hfailed : (files.map (fileUnit w)).any (fun u => u.failure.isSome) =
      !files.all (holdsProgram w) := by
    rw [List.any_map, List.not_all_eq_any_not]
    congr 1
    funext path
    exact (unitTells w path).failed
  rw [checkPrograms, sourcesOf_files _ hne]
  simp only [hsources, hload, htexts, hfailed, List.map_map]
  cases files.all (holdsProgram w) <;> rfl

/-- What checking files writes. -/
theorem checkAnswer_executeWithin (hne : files ≠ []) (hplain : ∀ path ∈ files, IsPlain path)
    (n : Nat) : CheckAnswer w files (executeWithin n w false ("check" :: files)) := by
  have hreport : executeWithin n w false ("check" :: files) =
      (checkPrograms w {} files).closed false := executeWithin_command n w false .check hplain
  rw [hreport, checkPrograms_files hne, join_okLine, ← join_diagnosis]
  -- nothing is left to be written, whether or not a file was diagnosed
  cases hall : files.all (holdsProgram w) with
  | true => exact ⟨rfl, rfl, by rw [hall]; rfl⟩
  | false => exact ⟨rfl, rfl, by rw [hall]; rfl⟩

end Check

/-! ## Running files -/

/-- The trace of a run of files, each program of which gets at most `limit` steps. -/
def runTrace (limit : Nat) (w : World) (files : List String) : Trace :=
  Batch.runWithin limit .always false
    ((loadAll w false (some (.make ProgramCache.defaultCapacity)) (fileSources files)).1.map some)
    .fresh

/-- By itself on fresh variables, the program of the file ends a run of files in this way when it gets
`n` steps. With `none` the next file has its turn. -/
def FileTurn (w : World) (n : Nat) (path : String) (cut : Option MiniLua.Ending) : Prop :=
  ∃ text p, w.file path = .ok text ∧ Program.ofBytes? text = .ok p ∧
    (MiniLua.run .always n p.body.stmts .fresh).cut? = cut

/-- What running files has in common with checking them: the files that begin to run are the first ones
of those that are programs, and all of them when the run is complete. Otherwise the run stops in the
program that began last, which crashes or is not over after its steps, and all programs before it are
over. -/
structure RunAgrees (w : World) (files : List String) (n : Nat) : Prop where
  report : executeWithin n w false ("run" :: files) = traceReport {} (runTrace n w files)
  begun : (runTrace n w files).begun.map LoadedUnit.path <+: files.filter (holdsProgram w)
  complete : (runTrace n w files).ending = .complete →
    (runTrace n w files).begun.map LoadedUnit.path = files.filter (holdsProgram w)
  stops : (runTrace n w files).ending ≠ .complete → ∃ done last rest,
    files.filter (holdsProgram w) = done ++ last :: rest ∧
    (runTrace n w files).begun.map LoadedUnit.path = done ++ [last] ∧
    (∀ path ∈ done, FileTurn w n path none) ∧
    FileTurn w n last (some (runTrace n w files).ending)

section Run

variable {w : World} {files : List String}

/-- The trace of a run is that of the units that the files give by themselves, but for the marks of
what came from the cache. -/
theorem uncached_runTrace (hdigest : DigestsDiffer (FileTexts w files)) (n : Nat) :
    (runTrace n w files).uncached =
      Batch.runWithin n .always false ((files.map (fileUnit w)).map some) .fresh := by
  rw [runTrace, ← Batch.runWithin_uncached, map_uncached_load hdigest]

/-- The units that can run are those of the files that are programs. -/
theorem map_path_executed (w : World) (files : List String) :
    (Batch.executed ((files.map (fileUnit w)).map some)).map LoadedUnit.path =
      files.filter (holdsProgram w) := by
  induction files with
  | nil => rfl
  | cons path files ih =>
    have hrunnable := (unitTells w path).runnable
    cases hu : (fileUnit w path).runnable? with
    | none =>
      rw [hu] at hrunnable
      rw [List.map_cons, List.map_cons, Batch.executed_cons_of_skip hu, ih,
        List.filter_cons_of_neg (by simp [← hrunnable])]
    | some p =>
      rw [hu] at hrunnable
      rw [List.map_cons, List.map_cons, Batch.executed_cons_of_ran hu, List.map_cons, ih,
        (unitTells w path).path_eq, List.filter_cons_of_pos hrunnable.symm]

theorem ending_runTrace (hdigest : DigestsDiffer (FileTexts w files)) (n : Nat) :
    (runTrace n w files).ending =
      (Batch.runWithin n .always false ((files.map (fileUnit w)).map some) .fresh).ending := by
  rw [← uncached_runTrace hdigest]
  rfl

/-- The turn of the unit of a file is that of its program by itself. -/
theorem fileTurn_of_turn {path : String} {n : Nat} {cut : Option MiniLua.Ending}
    (h : (fileUnit w path).Turn n .always false cut) : FileTurn w n path cut := by
  obtain ⟨p, m, hu, hcut⟩ := h
  obtain ⟨text, hfile, hread⟩ := exists_text_of_runnable? hu
  -- variables and output start afresh, and the count of earlier writes does not matter
  have hbehind : (Batch.prepare false m).Behind [] .fresh := ⟨rfl, rfl⟩
  rw [(run_behind p.body.stmts hbehind n).cut?_eq] at hcut
  exact ⟨text, p, hfile, hread, hcut⟩

/-- The files that begin to run are the first ones of those that are programs, up to one that stops the
run. -/
theorem begins_runTrace (hdigest : DigestsDiffer (FileTexts w files)) (n : Nat) :
    Batch.Begins (FileTurn w n) (files.filter (holdsProgram w))
      ((runTrace n w files).begun.map LoadedUnit.path) (runTrace n w files).ending := by
  have hbegins := Batch.begins_runWithin n .always false ((files.map (fileUnit w)).map some) .fresh
  have hpaths : (runTrace n w files).begun.map LoadedUnit.path =
      (Batch.runWithin n .always false ((files.map (fileUnit w)).map some) .fresh).begun.map
        LoadedUnit.path := by
    rw [← uncached_runTrace hdigest, Trace.begun_uncached, List.map_map]
    rfl
  rw [hpaths, ending_runTrace hdigest, ← map_path_executed]
  refine hbegins.map ?_
  intro u hu cut hturn
  have hmem : u ∈ files.map (fileUnit w) := by
    simpa [Batch.present] using (List.mem_filter.1 hu).1
  obtain ⟨path, -, rfl⟩ := List.mem_map.1 hmem
  rw [(unitTells w path).path_eq]
  exact fileTurn_of_turn hturn

theorem runAgrees (hne : files ≠ []) (hplain : ∀ path ∈ files, IsPlain path)
    (hdigest : DigestsDiffer (FileTexts w files)) (n : Nat) : RunAgrees w files n := by
  have hbegins := begins_runTrace hdigest n
  constructor
  case report =>
    -- the report does not show where a program came from, so the units may be those of the cache
    have hload := map_uncached_load hdigest ProgramCache.defaultCapacity
    rw [executeWithin_run hne hplain hdigest, ← hload, runUnits_uncached]
    rfl
  case begun => exact hbegins.isPrefix
  case complete => exact hbegins.eq_of_complete
  case stops => exact hbegins.exists_last

/-- A file has one turn. -/
theorem FileTurn.cut?_eq {path : String} {n : Nat} {cut : Option MiniLua.Ending}
    (h : FileTurn w n path cut) {text : Bytes} {p : Program} (hfile : w.file path = .ok text)
    (hread : Program.ofBytes? text = .ok p) :
    (MiniLua.run .always n p.body.stmts .fresh).cut? = cut := by
  obtain ⟨text', p', hfile', hread', hcut⟩ := h
  cases hfile.symm.trans hfile'
  cases hread.symm.trans hread'
  exact hcut

/-- A file that is over in its turn is calm. -/
theorem FileTurn.calm {path : String} {n : Nat} (h : FileTurn w n path none) :
    CalmFiles w [path] := by
  intro path' hpath' text p hfile hread
  obtain rfl := List.mem_singleton.1 hpath'
  have hp : areWellFormed p.body.stmts = true := Program.areWellFormed_body (.inr ⟨text, hread⟩)
  obtain ⟨m, hends⟩ := Program.exists_ends_of_cut? hp (h.cut?_eq hfile hread)
  exact .of_ends hends

/-- From some number of steps on, a calm file does not stop a run. -/
theorem exists_limit_of_calm_file {path : String} (h : CalmFiles w [path]) :
    ∃ limit, ∀ n, limit ≤ n → ∀ ending, ¬ FileTurn w n path (some ending) := by
  by_cases hprogram : ∃ text p, w.file path = .ok text ∧ Program.ofBytes? text = .ok p
  · obtain ⟨text, p, hfile, hread⟩ := hprogram
    have hcalm := h path List.mem_cons_self text p hfile hread
    obtain ⟨m, limit, -, hlimit⟩ := hcalm.exists_limit (Program.areWellFormed_body (.inr ⟨text, hread⟩))
    refine ⟨limit, ?_⟩
    intro n hn ending hturn
    have hcut := hturn.cut?_eq hfile hread
    rw [hlimit n hn] at hcut
    cases hcut
  · refine ⟨0, ?_⟩
    rintro n - ending ⟨text, p, hfile, hread, -⟩
    exact hprogram ⟨text, p, hfile, hread⟩

/-- From some number of steps on, no calm file stops a run. -/
theorem exists_limit_of_calm (h : CalmFiles w files) :
    ∃ limit, ∀ n, limit ≤ n → ∀ path ∈ files, ∀ ending, ¬ FileTurn w n path (some ending) := by
  induction files with
  | nil => exact ⟨0, by simp⟩
  | cons path files ih =>
    obtain ⟨hpath, hfiles⟩ := List.forall_mem_cons.1 h
    obtain ⟨limit, hlimit⟩ := exists_limit_of_calm_file (List.forall_mem_singleton.2 hpath)
    obtain ⟨limit', hlimit'⟩ := ih hfiles
    refine ⟨limit + limit', ?_⟩
    intro n hn
    exact List.forall_mem_cons.2 ⟨hlimit n (by omega), hlimit' n (by omega)⟩

/-- With enough steps a run stops in the first program that is not calm. -/
theorem exists_limit_of_not_calm (hdigest : DigestsDiffer (FileTexts w files)) {done rest : List String}
    {last : String} (hsplit : files.filter (holdsProgram w) = done ++ last :: rest)
    (hdone : CalmFiles w done) (hlast : ¬ CalmFiles w [last]) :
    ∃ limit, ∀ n, limit ≤ n →
      (runTrace n w files).begun.map LoadedUnit.path = done ++ [last] ∧
      FileTurn w n last (some (runTrace n w files).ending) := by
  obtain ⟨limit, hlimit⟩ := exists_limit_of_calm hdone
  refine ⟨limit, ?_⟩
  intro n hn
  have hbegins := begins_runTrace hdigest n
  rw [hsplit] at hbegins
  exact hbegins.stops (hlimit n hn) fun hover => hlast hover.calm

/-- What a file writes to the second stream in a run is its diagnosis. -/
theorem FileAnswer.err_eq {path out err : String} (h : FileAnswer w path out err) :
    err = diagnosis w path := by
  cases h with
  | unreadable hfile => exact (diagnosis_of_unreadable hfile).symm
  | refused hfile hread => exact (diagnosis_of_refused hfile hread).symm
  | ran hfile hread hrun => exact (diagnosis_of_program hfile hread).symm

theorem RunAnswer.err_eq {out err : String} (h : RunAnswer w files out err) :
    err = String.join (files.map (diagnosis w)) := by
  induction h with
  | nil => rfl
  | cons hfirst hrest ih => rw [hfirst.err_eq, ih, List.map_cons, String.join_cons]

/-- No file is diagnosed just when all of them are programs. -/
theorem join_diagnosis_eq_empty_iff (w : World) (files : List String) :
    String.join (files.map (diagnosis w)) = "" ↔ files.all (holdsProgram w) = true := by
  induction files with
  | nil => simp
  | cons path files ih =>
    rw [List.map_cons, String.join_cons, List.all_cons, Bool.and_eq_true, ← ih,
      ← (unitTells w path).diagnosed]
    simp

/-- Calm files that are run and checked are diagnosed alike, with the same status. -/
theorem report_agrees (hne : files ≠ []) (hplain : ∀ path ∈ files, IsPlain path)
    (hdigest : DigestsDiffer (FileTexts w files)) (hcalm : CalmFiles w files) {check : Report}
    (hcheck : CheckAnswer w files check) :
    (∃ limit, ∀ n, limit ≤ n → (runTrace n w files).ending = .complete) ∧
    ∀ n, (runTrace n w files).ending = .unfinished ∨
      ((runTrace n w files).ending = .complete ∧
        (executeWithin n w false ("run" :: files)).err = check.err ∧
        (executeWithin n w false ("run" :: files)).status? = check.status?) := by
  obtain ⟨⟨limit, hlimit⟩, hall⟩ := completes_of_calmFiles hcalm
  refine ⟨⟨limit, ?_⟩, ?_⟩
  · intro n hn
    rw [ending_runTrace hdigest, hlimit n hn]
  · intro n
    rw [ending_runTrace hdigest]
    rcases hall n with hcut | hdone
    · exact .inl hcut
    · right
      have hanswer : Answered w files (executeWithin n w false ("run" :: files)) := by
        rw [executeWithin_run hne hplain hdigest]
        exact answered_of_completes hdone
      have herr : (executeWithin n w false ("run" :: files)).err =
          String.join (files.map (diagnosis w)) := hanswer.texts.err_eq
      refine ⟨hdone.accounted.complete, ?_, ?_⟩
      · rw [herr, hcheck.err, join_diagnosis]
      -- both statuses tell whether there is a diagnosis
      · rw [hanswer.status, hcheck.status, herr]
        simp only [join_diagnosis_eq_empty_iff]

end Run

end CommandLine
end MiniLua

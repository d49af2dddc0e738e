import MiniLua.CommandLine.Run
import MiniLua.Proofs.Loading

/-!
# Commands on files

A command whose arguments do not start with a hyphen gets all of them, in order: no flag is read, no
option changes its value, and the command is performed on the files that they name. These files are
the sources, and what is loaded of them does not depend on the cache.

## Delivered

- `CommandLine.IsPlain`: an argument that is no flag.
- `CommandLine.executeWithin_command`: a command on files.
- `fileUnit`: what comes of loading a file by itself.
- `CommandLine.FileTexts`, `CommandLine.map_uncached_load`, `CommandLine.map_uncached_loaded`: the units
  of files, loaded one after the other or in any order of steps.
-/

set_option autoImplicit false

namespace MiniLua

namespace CommandLine

/-! ## Arguments that are no flags -/

/-- The argument does not start with a hyphen. -/
def IsPlain (arg : String) : Prop :=
  arg.toList.head? ≠ some '-'

instance (arg : String) : Decidable (IsPlain arg) :=
  inferInstanceAs (Decidable (_ ≠ _))

section Plain

variable {arg : String} {args : List String}

theorem IsPlain.ofText_eq (h : IsPlain arg) : Argument.ofText arg = .plain := by
  unfold IsPlain at h
  unfold Argument.ofText
  split
  · rename_i heq
    exact absurd (by rw [heq]; rfl) h
  · rename_i heq
    exact absurd (by rw [heq]; rfl) h
  · rename_i heq
    exact absurd (by rw [heq]; rfl) h
  · rfl

theorem IsPlain.ne_terminator (h : IsPlain arg) : arg ≠ "--" := by
  rintro rfl
  exact absurd h (by decide)

theorem IsPlain.looksLikeFlag_eq (h : IsPlain arg) : looksLikeFlag arg = false := by
  unfold IsPlain at h
  simp [looksLikeFlag, h]

/-- Reading flags stops at a plain argument. -/
theorem readFlags_of_isPlain (h : ∀ arg ∈ args, IsPlain arg) (flags : List Flag)
    (values : FlagValues) : readFlags flags values args = (values, .ok args) := by
  cases args with
  | nil => rfl
  | cons arg args => rw [readFlags, (h arg List.mem_cons_self).ofText_eq]

/-- Plain arguments keep their order. -/
theorem flagsFirst_of_isPlain (h : ∀ arg ∈ args, IsPlain arg) : flagsFirst args = args := by
  -- all of them stand before a terminator, and before a flag
  have hkept : ∀ p : String → Bool, (∀ arg ∈ args, p arg = true) → args.takeWhile p = args := by
    intro p hp
    have happend : (args ++ []).takeWhile p = args ++ [].takeWhile p :=
      List.takeWhile_append_of_pos hp
    simpa using happend
  have hfront := hkept (fun arg => decide (arg ≠ "--")) fun arg harg => by
    simpa using (h arg harg).ne_terminator
  have hplain := hkept (fun arg => !looksLikeFlag arg) fun arg harg => by
    simp [(h arg harg).looksLikeFlag_eq]
  rw [flagsFirst, hfront, hplain, List.drop_length, List.nil_append, List.append_nil]

end Plain

/-! ## Commands -/

theorem isPlain_name (c : Command) : IsPlain c.name := by
  cases c <;> decide

theorem findCommand?_name (c : Command) : findCommand? c.name = some c := by
  cases c <;> decide

/-- A command behind no flags, with arguments that are none. -/
theorem executeWithin_command (limit : Nat) (w : World) (colored : Bool) (c : Command)
    {files : List String} (hfiles : ∀ path ∈ files, IsPlain path) :
    executeWithin limit w colored (c.name :: files) =
      (perform limit w { colored := colored } files c).closed colored := by
  have hplain : ∀ arg ∈ c.name :: files, IsPlain arg := by
    intro arg harg
    rcases List.mem_cons.1 harg with rfl | harg
    · exact isPlain_name c
    · exact hfiles arg harg
  have hoptions : optionsOf colored [] = { colored := colored } := by cases colored <;> rfl
  have hrun : runCommand limit w { colored := colored } c files =
      perform limit w { colored := colored } files c := by
    rw [runCommand, flagsFirst_of_isPlain hfiles, readFlags_of_isPlain hfiles]
    rfl
  have hdispatch : dispatch limit w { colored := colored } (c.name :: files) =
      perform limit w { colored := colored } files c := by
    simp only [dispatch, List.head?_cons, Option.bind_some, findCommand?_name, List.drop_succ_cons,
      List.drop_zero, hrun]
  have hinterpret : interpret limit w colored (c.name :: files) =
      (perform limit w { colored := colored } files c, colored) := by
    rw [interpret, readFlags_of_isPlain hplain]
    change (dispatch limit w (optionsOf colored []) (c.name :: files),
      (optionsOf colored []).colored) = _
    rw [hoptions, hdispatch]
  rw [executeWithin, hinterpret]

end CommandLine

/-! ## Files -/

/-- What comes of loading a file by itself. -/
def fileUnit (w : World) (path : String) : LoadedUnit :=
  LoadRequest.alone ⟨w, false, some (.file { path := path })⟩

section Files

variable {w : World} {path : String} {text : Bytes}

theorem fileUnit_of_unreadable {e : FileError} (h : w.file path = .error e) :
    fileUnit w path =
      { name := Path.stem path, path := path
        failure := some (.load path (.wrap ("read " ++ path) (e.failure path))) } := by
  simp only [fileUnit, LoadRequest.alone, Source.load, Source.read, h]
  rfl

theorem fileUnit_of_refused (h : w.file path = .ok text) {e : SourceError}
    (hp : Program.ofBytes? text = .error e) :
    fileUnit w path =
      { name := Path.stem path, path := path, text := text, failure := some e.failure } := by
  simp only [fileUnit, LoadRequest.alone, Source.load, Source.read, h, Bool.false_eq_true, if_false,
    Source.unitOf, Option.bind_none, hp]
  rfl

theorem fileUnit_of_program (h : w.file path = .ok text) {p : Program}
    (hp : Program.ofBytes? text = .ok p) :
    fileUnit w path = { name := Path.stem path, path := path, text := text, program := some p } := by
  simp only [fileUnit, LoadRequest.alone, Source.load, Source.read, h, Bool.false_eq_true, if_false,
    Source.unitOf, Option.bind_none, hp]
  rfl

/-- A file cannot be read, or its text is no program, or it is one. -/
theorem file_cases (w : World) (path : String) :
    (∃ e, w.file path = .error e) ∨
      (∃ text e, w.file path = .ok text ∧ Program.ofBytes? text = .error e) ∨
      ∃ text p, w.file path = .ok text ∧ Program.ofBytes? text = .ok p := by
  cases h : w.file path with
  | error e => exact .inl ⟨e, rfl⟩
  | ok text =>
    cases hp : Program.ofBytes? text with
    | error e => exact .inr (.inl ⟨text, e, rfl, hp⟩)
    | ok p => exact .inr (.inr ⟨text, p, rfl, hp⟩)

/-- The program that the unit of a file can run is read from the text of the file. -/
theorem exists_text_of_runnable? {p : Program} (h : (fileUnit w path).runnable? = some p) :
    ∃ text, w.file path = .ok text ∧ Program.ofBytes? text = .ok p := by
  rcases file_cases w path with ⟨_, hfile⟩ | ⟨text, _, hfile, hread⟩ | ⟨text, q, hfile, hread⟩
  · rw [fileUnit_of_unreadable hfile] at h
    cases h
  · rw [fileUnit_of_refused hfile hread] at h
    cases h
  · rw [fileUnit_of_program hfile hread] at h
    cases h
    exact ⟨text, hfile, hread⟩

end Files

namespace CommandLine

/-- The sources of files. -/
def fileSources (files : List String) : List (Option Source) :=
  files.map fun path => some (.file { path := path })

/-- The texts that are read from the files. -/
def FileTexts (w : World) (files : List String) (text : Bytes) : Prop :=
  ∃ path ∈ files, w.file path = .ok text

section Loading

variable {w : World} {files : List String}

theorem sourcesOf_files (o : Options) (h : files ≠ []) :
    sourcesOf w o files = .ok (files.map fun path => .file { path := path }, false) := by
  rw [sourcesOf, if_neg (by simpa using h)]

theorem readsWithin_fileTexts {path : String} (h : path ∈ files) :
    LoadRequest.ReadsWithin (FileTexts w files) ⟨w, false, some (.file { path := path })⟩ := by
  rintro _ text ⟨rfl⟩ hread
  simp only [Source.read, Bool.false_eq_true, if_false] at hread
  cases hfile : w.file path with
  | error e =>
    rw [hfile] at hread
    cases hread
  | ok content =>
    rw [hfile] at hread
    cases hread
    exact ⟨path, h, hfile⟩

/-- Files that are loaded one after the other give the units that each gives by itself. -/
theorem map_uncached_load (hdigest : DigestsDiffer (FileTexts w files)) (bound : Int) :
    (loadAll w false (some (.make bound)) (fileSources files)).1.map LoadedUnit.uncached =
      files.map (fileUnit w) := by
  have hsources : ∀ source ∈ fileSources files,
      LoadRequest.ReadsWithin (FileTexts w files) ⟨w, false, source⟩ := by
    intro source hsource
    obtain ⟨path, hpath, rfl⟩ := List.mem_map.1 hsource
    exact readsWithin_fileTexts hpath
  rw [Reached.start.uncached_loadAll hdigest hsources, fileSources, List.map_map]
  rfl

/-- So do files whose loads take their steps in any order. -/
theorem map_uncached_loaded (hdigest : DigestsDiffer (FileTexts w files)) {bound : Int}
    {cache : ProgramCache} {loadings : List Loading} {units : List LoadedUnit}
    (hreached : Reached (FileTexts w files) bound cache loadings)
    (hrequests : loadings.map Loading.request =
      (fileSources files).map fun source => ⟨w, false, source⟩)
    (hdone : loadings.map Loading.stage = units.map LoadStage.done) :
    units.map LoadedUnit.uncached = files.map (fileUnit w) := by
  have hsound : ∀ l ∈ loadings, l.request.Sound l.stage :=
    fun l hl => ((hreached.sound hdigest).2 l hl).2
  have halone : (loadings.map fun l => l.request.alone) =
      (loadings.map Loading.request).map LoadRequest.alone := by
    rw [List.map_map]
    rfl
  rw [map_uncached_of_loaded hsound hdone, halone, hrequests, fileSources, List.map_map, List.map_map]
  rfl

end Loading

end CommandLine
end MiniLua

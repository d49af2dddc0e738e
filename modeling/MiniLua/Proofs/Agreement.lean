import MiniLua.Proofs.Checking
import MiniLua.Proofs.Defects
import MiniLua.Proofs.Nesting

/-!
# The commands agree on what a program is

Four commands read program texts: one runs the programs, one only checks them, one prints the canonical
layout and one prints the tree. A file is a program for all of them or for none, and a text that is none
gets the same line of diagnosis from each.

The one difference is in the printed tree, which has a bounded depth: the tree of a program that is
nested deeper is not printed, and the command says so.

## Delivered

- `CommandLine.isLine_diagnosis`: a text that is no program is diagnosed in one line.
- `CommandLine.ShowAgrees`, `CommandLine.showAgrees`: what checking a file has in common with printing
  its layout and its tree.
- `CommandLine.commands_agree`: the agreement of the four commands.
- `CommandLine.tree_of_nested_file`: a program whose tree is not printed.
-/

set_option autoImplicit false

namespace MiniLua

/-! ## Diagnoses in one line -/

/-- Trimming adds no character. -/
theorem Text.mem_of_mem_trim {c : Char} {s : String} (h : c ∈ (trim s).toList) : c ∈ s.toList := by
  rw [trim, String.toList_ofList, trimmed, List.mem_reverse] at h
  have hfront := (List.dropWhile_sublist _).subset h
  exact (List.dropWhile_sublist _).subset (List.mem_reverse.1 hfront)

theorem Text.newline_not_mem_decimalText (n : Int) : '\n' ∉ (decimalText n).toList := by
  have hdigits : ∀ k, '\n' ∉ Nat.toDigits 10 k := by
    intro k h
    exact absurd (isDigit_of_mem_toDigits h) (by decide)
  rw [decimalText, String.toList_ofList]
  cases n with
  | ofNat k => exact hdigits k
  | negSucc k =>
    rw [decimal, List.mem_cons, not_or]
    exact ⟨by decide, hdigits (k + 1)⟩

/-- A location has a line break only in its path. -/
theorem Location.newline_of_mem_text {l : Location} (h : '\n' ∈ l.text.toList) :
    '\n' ∈ l.path.toList := by
  apply Text.mem_of_mem_trim
  have hline := Text.newline_not_mem_decimalText l.line
  have hcolumn := Text.newline_not_mem_decimalText l.column
  unfold text at h
  dsimp only at h
  split at h
  · split at h
    · split at h
      · simpa [hline, hcolumn] using h
      · simpa [hline] using h
    · exact h
  · split at h
    · split at h
      · simp [hline, hcolumn] at h
      · simp [hline] at h
    · simp at h

/-- A diagnosis has a line break only in the word for its stage, in its path or in its message. -/
theorem Diagnostic.newline_of_mem_describe {d : Diagnostic} (h : '\n' ∈ d.describe.toList) :
    '\n' ∈ d.stage.name.toList ∨ '\n' ∈ d.place.path.toList ∨ '\n' ∈ d.message.toList := by
  have hmessage : '\n' ∈ d.bareMessage.toList → '\n' ∈ d.message.toList := by
    intro hbare
    apply Text.mem_of_mem_trim
    unfold bareMessage at hbare
    dsimp only at hbare
    split at hbare
    · have hrest := Text.mem_of_mem_trim hbare
      rw [String.toList_ofList] at hrest
      exact List.mem_of_mem_drop hrest
    · exact hbare
  unfold describe at h
  dsimp only at h
  split at h
  · simp at h
    rcases h with hname | hbare
    · exact .inl hname
    · exact .inr (.inr (hmessage hbare))
  · simp at h
    rcases h with hname | hplace | hbare
    · exact .inl hname
    · exact .inr (.inl (Location.newline_of_mem_text hplace))
    · exact .inr (.inr (hmessage hbare))

namespace CommandLine

/-- The text is one line; it has no further line break unless the path has one. -/
def IsLine (path text : String) : Prop :=
  ∃ line : String, text = line ++ "\n" ∧ ('\n' ∈ line.toList → '\n' ∈ path.toList)

/-- A text that is no program is diagnosed in one line. -/
theorem isLine_diagnosis {w : World} {path : String} {text : Bytes} (hfile : w.file path = .ok text)
    {e : SourceError} (hread : Program.ofBytes? text = .error e) : IsLine path (diagnosis w path) := by
  refine ⟨_, diagnosis_of_refused hfile hread, ?_⟩
  intro h
  have hlexical : ∀ message ∈ LexError.messages, '\n' ∉ message.toList := by decide
  have hgrammar : ∀ message ∈ SyntaxError.messages, '\n' ∉ message.toList := by decide
  -- the failure is a defect of the text, so its message is one of a few
  obtain ⟨line, column, hdefect⟩ := Program.exists_isDefect_of_error hread
  generalize e.failure = f at h hdefect
  cases hdefect with
  | lexical hmessage hrun =>
    rcases Diagnostic.newline_of_mem_describe h with hname | hpath | hbreak
    · exact absurd (show '\n' ∈ "lexer".toList from hname) (by decide)
    · exact hpath
    · exact absurd hbreak (hlexical _ hmessage)
  | lexeme hmessage _ | ending hmessage _ _ =>
    rcases Diagnostic.newline_of_mem_describe h with hname | hpath | hbreak
    · exact absurd (show '\n' ∈ "parser".toList from hname) (by decide)
    · exact hpath
    · exact absurd hbreak (hgrammar _ hmessage)

/-! ## Printing a file -/

/-- The two reports write the same and end with the same status. -/
structure Report.Alike (r s : Report) : Prop where
  out : r.out = s.out
  err : r.err = s.err
  status : r.status? = s.status?

/-- What checking a file with a text has in common with printing its layout and its tree. -/
structure ShowAgrees (path : String) (text : Bytes) (check layout tree : Report) : Prop where
  /-- A text that is no program is diagnosed by all three in the same single line. -/
  refused : check.status? ≠ some 0 →
    check.out = "" ∧ IsLine path check.err ∧ check.status? = some 1 ∧ layout.Alike check ∧
      tree.Alike check
  /-- The layout of every program can be printed, and of nothing else. -/
  layout_iff : layout.status? = some 0 ↔ check.status? = some 0
  /-- The tree of every program that is not nested too deep can be printed, and of nothing else. -/
  tree_iff : tree.status? = some 0 ↔
    check.status? = some 0 ∧ ∀ p, Program.ofBytes? text = .ok p → p.json.depth ≤ maxDepth
  /-- Of a program that is nested deeper, this is said in one line. -/
  tree_deep : ∀ p, Program.ofBytes? text = .ok p → maxDepth < p.json.depth →
    tree.out = "" ∧ tree.status? = some 1 ∧
      ∃ problem ∈ Program.depthProblems,
        tree.err = "error: " ++ (path ++ ": encode ast: " ++ problem) ++ "\n"

section Show

variable {w : World} {path : String} {text : Bytes}

theorem executeWithin_fmt (hplain : IsPlain path) (n : Nat) (colored : Bool) :
    executeWithin n w colored ["fmt", path] =
      (showLayout w { colored := colored } path).closed colored := by
  have hfiles : ∀ arg ∈ [path], IsPlain arg := by simpa using hplain
  exact executeWithin_command n w colored .fmt hfiles

theorem executeWithin_ast (hplain : IsPlain path) (n : Nat) :
    executeWithin n w false ["ast", path] = (showTree w {} path).closed false := by
  have hfiles : ∀ arg ∈ [path], IsPlain arg := by simpa using hplain
  exact executeWithin_command n w false .ast hfiles

/-- Whatever is to be printed of a program, a text that is none is refused in the same way. -/
theorem showProgram_of_refused (render : String → Program → Report) (hfile : w.file path = .ok text)
    {e : SourceError} (hread : Program.ofBytes? text = .error e) :
    (showProgram render w {} path).closed false =
      { err := diagnosis w path, ending := .reported } := by
  rw [showProgram, hfile]
  dsimp only
  rw [hread, diagnosis_of_refused hfile hread]
  simp [Report.closed, reportFailure, diagnosticLine, paint]

theorem showProgram_of_program (render : String → Program → Report) (hfile : w.file path = .ok text)
    {p : Program} (hread : Program.ofBytes? text = .ok p) :
    showProgram render w {} path = render path p := by
  rw [showProgram, hfile]
  dsimp only
  rw [hread]

/-- The report on the tree of a program. -/
theorem closed_showTree (hfile : w.file path = .ok text) {p : Program}
    (hread : Program.ofBytes? text = .ok p) :
    (p.json.depth ≤ maxDepth ∧
      (showTree w {} path).closed false = { out := p.json.indented ++ "\n" }) ∨
    (maxDepth < p.json.depth ∧ ∃ problem ∈ Program.depthProblems,
      ((showTree w {} path).closed false).out = "" ∧
      ((showTree w {} path).closed false).status? = some 1 ∧
      ((showTree w {} path).closed false).err =
        "error: " ++ (path ++ ": encode ast: " ++ problem) ++ "\n") := by
  rw [showTree, showProgram_of_program _ hfile hread]
  by_cases hdepth : p.json.depth ≤ maxDepth
  · rw [Program.dump?_of_depth_le hdepth]
    exact .inl ⟨hdepth, rfl⟩
  · obtain ⟨problem, hproblem, hdump⟩ := Program.exists_dump?_eq_error (Nat.not_le.1 hdepth)
    rw [hdump]
    refine .inr ⟨Nat.not_le.1 hdepth, problem, hproblem, rfl, rfl, ?_⟩
    simp [Report.closed, errorLine, paint]

theorem showAgrees_of_refused (hfile : w.file path = .ok text) {e : SourceError}
    (hread : Program.ofBytes? text = .error e) {check : Report} (hcheck : CheckAnswer w [path] check) :
    ShowAgrees path text check ((showLayout w {} path).closed false)
      ((showTree w {} path).closed false) := by
  have hholds := holdsProgram_of_refused hfile hread
  have hout : check.out = "" := by simp [hcheck.out, hholds]
  have herr : check.err = diagnosis w path := by simp [hcheck.err, hholds]
  have hstatus : check.status? = some 1 := by simp [hcheck.status, hholds]
  -- what is to be printed has no part in a refusal
  have hshow : ∀ render : String → Program → Report,
      ((showProgram render w {} path).closed false).Alike check := by
    intro render
    rw [showProgram_of_refused render hfile hread]
    exact ⟨hout.symm, herr.symm, hstatus.symm⟩
  constructor
  case refused =>
    intro _
    have hline := isLine_diagnosis hfile hread
    rw [← herr] at hline
    exact ⟨hout, hline, hstatus, hshow _, hshow _⟩
  case layout_iff => rw [showLayout, (hshow _).status]
  case tree_iff =>
    rw [showTree, (hshow _).status, hstatus]
    simp
  case tree_deep =>
    intro p hp
    rw [hread] at hp
    cases hp

theorem showAgrees_of_program (hfile : w.file path = .ok text) {p : Program}
    (hread : Program.ofBytes? text = .ok p) {check : Report} (hcheck : CheckAnswer w [path] check) :
    ShowAgrees path text check ((showLayout w {} path).closed false)
      ((showTree w {} path).closed false) := by
  have hholds := holdsProgram_of_program hfile hread
  have hzero : check.status? = some 0 := by simp [hcheck.status, hholds]
  have hsame : ∀ q, Program.ofBytes? text = .ok q → q = p := by
    intro q hq
    rw [hread] at hq
    cases hq
    rfl
  constructor
  case refused =>
    intro hne
    exact absurd hzero hne
  case layout_iff =>
    rw [showLayout, showProgram_of_program _ hfile hread, hzero]
    exact iff_of_true rfl rfl
  case tree_iff =>
    rcases closed_showTree hfile hread with ⟨hdepth, htree⟩ | ⟨hdeep, problem, -, -, htree, -⟩
    · rw [htree]
      refine iff_of_true rfl ⟨hzero, ?_⟩
      intro q hq
      rw [hsame q hq]
      exact hdepth
    · rw [htree]
      refine iff_of_false (by decide) ?_
      rintro ⟨-, hall⟩
      exact absurd (hall p hread) (Nat.not_le.2 hdeep)
  case tree_deep =>
    intro q hq hdeep
    rw [hsame q hq] at hdeep
    rcases closed_showTree hfile hread with ⟨hdepth, -⟩ | ⟨-, problem, hproblem, hout, hstatus, herr⟩
    · exact absurd hdepth (Nat.not_le.2 hdeep)
    · exact ⟨hout, hstatus, problem, hproblem, herr⟩

theorem showAgrees (hplain : IsPlain path) (hfile : w.file path = .ok text) (n : Nat) :
    ShowAgrees path text (executeWithin n w false ["check", path])
      (executeWithin n w false ["fmt", path]) (executeWithin n w false ["ast", path]) := by
  have hcheck : CheckAnswer w [path] (executeWithin n w false ["check", path]) :=
    checkAnswer_executeWithin (List.cons_ne_nil path []) (by simpa using hplain) n
  rw [executeWithin_fmt hplain, executeWithin_ast hplain]
  cases hread : Program.ofBytes? text with
  | error e => exact showAgrees_of_refused hfile hread hcheck
  | ok p => exact showAgrees_of_program hfile hread hcheck

end Show

/-! ## The agreement -/

/-- The commands agree on what a program is. Checking files accepts those that are programs, in order,
and these are the files that running them begins with, all of them when the run is complete, and else
those up to the program in which it stops. When no program crashes or runs on for ever, the run is
complete with enough steps, and its diagnoses and its status are those of the check; when one does, the
run stops in the first such program with enough steps. For a single file that can be read, the layout is
printed just when the check succeeds, and so is the tree unless the program is nested too deep; else all
three give the same line. -/
theorem commands_agree (w : World) :
    (∀ files, files ≠ [] → (∀ path ∈ files, IsPlain path) →
      CheckAnswer w files (execute w false ("check" :: files)) ∧
      (DigestsDiffer (FileTexts w files) → (∀ n, RunAgrees w files n) ∧
        (CalmFiles w files →
          (∃ limit, ∀ n, limit ≤ n → (runTrace n w files).ending = .complete) ∧
          ∀ n, (runTrace n w files).ending = .unfinished ∨
            ((runTrace n w files).ending = .complete ∧
              (executeWithin n w false ("run" :: files)).err =
                (execute w false ("check" :: files)).err ∧
              (executeWithin n w false ("run" :: files)).status? =
                (execute w false ("check" :: files)).status?)) ∧
        ∀ done last rest, files.filter (holdsProgram w) = done ++ last :: rest →
          CalmFiles w done → ¬ CalmFiles w [last] →
          ∃ limit, ∀ n, limit ≤ n →
            (runTrace n w files).begun.map LoadedUnit.path = done ++ [last] ∧
            FileTurn w n last (some (runTrace n w files).ending))) ∧
    ∀ path text, IsPlain path → w.file path = .ok text →
      ShowAgrees path text (execute w false ["check", path]) (execute w false ["fmt", path])
        (execute w false ["ast", path]) := by
  refine ⟨?_, ?_⟩
  · intro files hne hplain
    have hcheck : CheckAnswer w files (execute w false ("check" :: files)) :=
      checkAnswer_executeWithin hne hplain patience
    refine ⟨hcheck, ?_⟩
    intro hdigest
    refine ⟨runAgrees hne hplain hdigest, ?_, ?_⟩
    · intro hcalm
      exact report_agrees hne hplain hdigest hcalm hcheck
    · intro done last rest hsplit hdone hlast
      exact exists_limit_of_not_calm hdigest hsplit hdone hlast
  · intro path text hplain hfile
    exact showAgrees hplain hfile patience

/-- The program of the shelf, and one that divides by zero. -/
def crackedShelf : World where
  directory := "/"
  file := fun path =>
    if path = "a" then .ok (Text.encode "function f ( ) print ( 7 ) end")
    else if path = "d" then .ok (Text.encode "function f ( ) print ( / 1 0 ) end")
    else .error .missing
  repository := fun _ => none

namespace CrackedShelf

theorem ofBytes?_divider : Program.ofBytes? (Text.encode "function f ( ) print ( / 1 0 ) end") =
    .ok ⟨some ⟨102, false⟩, .seq [.print (.binary .div (.lit 1) (.lit 0))], false⟩ := by
  have htokens : TokenQueue.tokens? (Text.encode "function f ( ) print ( / 1 0 ) end") = .ok
      [⟨.functionWord, "function", 1, 1⟩, ⟨.identifier, "f", 1, 10⟩, ⟨.leftParen, "(", 1, 12⟩,
        ⟨.rightParen, ")", 1, 14⟩, ⟨.printWord, "print", 1, 16⟩, ⟨.leftParen, "(", 1, 22⟩,
        ⟨.divide, "/", 1, 24⟩, ⟨.integer, "1", 1, 26⟩, ⟨.integer, "0", 1, 28⟩,
        ⟨.rightParen, ")", 1, 30⟩, ⟨.endWord, "end", 1, 32⟩, ⟨.endOfStream, "EOS", 1, 1⟩] :=
    TokenQueue.eq_ok_of_toOption (by decide +kernel)
  exact Program.ofBytes?_eq_run htokens

theorem digestsDiffer (files : List String) : DigestsDiffer (FileTexts crackedShelf files) := by
  apply DigestsDiffer.of_nodup [Text.encode "function f ( ) print ( 7 ) end",
    Text.encode "function f ( ) print ( / 1 0 ) end"]
  · rintro text ⟨path, -, hfile⟩
    simp only [crackedShelf] at hfile
    split at hfile
    · cases hfile
      simp
    · split at hfile
      · cases hfile
        simp
      · cases hfile
  · decide +kernel

/-- The first file is calm. -/
theorem calmFiles_first : CalmFiles crackedShelf ["a"] :=
  FileTurn.calm (n := 2) ⟨_, _, rfl, Shelf.ofBytes?_program, rfl⟩

/-- The second file divides by zero. -/
theorem not_calmFiles_second : ¬ CalmFiles crackedShelf ["d"] := by
  intro hcalm
  have hdivider := hcalm "d" List.mem_cons_self _ _ rfl ofBytes?_divider
  exact absurd (hdivider.intact (.settles (n := 1) rfl)) (by decide)

end CrackedShelf

/-- A file that is a program is named twice, and a text that is none and a missing file stand between;
then the program and the other text by themselves. Where a file that divides by zero stands between, the
run stops there. -/
theorem commands_agree_shelf :
    (execute shelf false ["check", "a", "b", "c", "a"]).out = "ok a\nok a\n" ∧
    (runTrace 2 shelf ["a", "b", "c", "a"]).begun.map LoadedUnit.path = ["a", "a"] ∧
    (executeWithin 2 shelf false ["run", "a", "b", "c", "a"]).err =
      (execute shelf false ["check", "a", "b", "c", "a"]).err ∧
    (execute shelf false ["fmt", "a"]).status? = some 0 ∧
    (execute shelf false ["ast", "a"]).status? = some 0 ∧
    (execute shelf false ["ast", "b"]).Alike (execute shelf false ["check", "b"]) ∧
    ∃ limit, ∀ n, limit ≤ n →
      (runTrace n crackedShelf ["a", "d", "c", "a"]).begun.map LoadedUnit.path = ["a", "d"] := by
  have hplain : ∀ path ∈ ["a", "b", "c", "a"], IsPlain path := by decide
  obtain ⟨hfiles, hone⟩ := commands_agree shelf
  -- the four files
  obtain ⟨hcheck, hrun⟩ := hfiles ["a", "b", "c", "a"] (by decide) hplain
  obtain ⟨hagrees, hcalm, -⟩ := hrun (Shelf.digestsDiffer _)
  have hreport := (hagrees 2).report
  have hok : (execute shelf false ["check", "a", "b", "c", "a"]).out = "ok a\nok a\n" := by
    rw [hcheck.out]
    decide +kernel
  have hprograms : ["a", "b", "c", "a"].filter (holdsProgram shelf) = ["a", "a"] := by
    decide +kernel
  rcases (hcalm (Shelf.calmFiles _)).2 2 with hcut | ⟨hcomplete, herr, -⟩
  · have hstatus := Shelf.report_run.2
    rw [hreport, Report.status?, traceReport, hcut] at hstatus
    cases hstatus
  have hbegun := (hagrees 2).complete hcomplete
  rw [hprograms] at hbegun
  -- one file each
  have ha := hone "a" _ (by decide) rfl
  have hb := hone "b" _ (by decide) rfl
  have hza : (execute shelf false ["check", "a"]).status? = some 0 := by
    rw [(hfiles ["a"] (by decide) (by decide)).1.status]
    decide +kernel
  have hzb : (execute shelf false ["check", "b"]).status? ≠ some 0 := by
    rw [(hfiles ["b"] (by decide) (by decide)).1.status]
    decide +kernel
  have hdepth : ∀ p, Program.ofBytes? (Text.encode "function f ( ) print ( 7 ) end") = .ok p →
      p.json.depth ≤ maxDepth := by
    intro p hp
    rw [Shelf.ofBytes?_program] at hp
    cases hp
    decide
  -- a program that divides by zero between the others
  obtain ⟨-, hstops⟩ := (commands_agree crackedShelf).1 ["a", "d", "c", "a"] (by decide) (by decide)
  have hsplit : ["a", "d", "c", "a"].filter (holdsProgram crackedShelf) = ["a"] ++ "d" :: ["a"] := by
    decide +kernel
  obtain ⟨limit, hlimit⟩ := (hstops (CrackedShelf.digestsDiffer _)).2.2 ["a"] "d" ["a"] hsplit
    CrackedShelf.calmFiles_first CrackedShelf.not_calmFiles_second
  exact ⟨hok, hbegun, herr, ha.layout_iff.2 hza, ha.tree_iff.2 ⟨hza, hdepth⟩,
    (hb.refused hzb).2.2.2.2, limit, fun n hn => (hlimit n hn).1⟩

/-- One file, with a program that is nested too deep. -/
def nestedFile : World where
  directory := "/"
  file := fun path =>
    if path = "a.lua" then .ok (Text.encode (Program.nestedText 9997)) else .error .missing
  repository := fun _ => none

/-- The check accepts the file and its layout is printed, but its tree is not. -/
theorem tree_of_nested_file :
    IsPlain "a.lua" ∧
    nestedFile.file "a.lua" = .ok (Text.encode (Program.nestedText 9997)) ∧
    (execute nestedFile false ["check", "a.lua"]).status? = some 0 ∧
    (execute nestedFile false ["fmt", "a.lua"]).status? = some 0 ∧
    (execute nestedFile false ["ast", "a.lua"]).status? = some 1 ∧
    (execute nestedFile false ["ast", "a.lua"]).out = "" ∧
    ¬ ((execute nestedFile false ["ast", "a.lua"]).status? = some 0 ↔
      (execute nestedFile false ["check", "a.lua"]).status? = some 0) := by
  have hplain : IsPlain "a.lua" := by decide
  have hfile : nestedFile.file "a.lua" = .ok (Text.encode (Program.nestedText 9997)) := by
    simp only [nestedFile, if_true]
  have hread := Program.ofBytes?_nestedText 9997
  have hdeep : maxDepth < (Program.nested 9997).json.depth := by
    rw [Program.depth_json_nested]
    decide
  have hshow : ShowAgrees "a.lua" (Text.encode (Program.nestedText 9997))
      (execute nestedFile false ["check", "a.lua"]) (execute nestedFile false ["fmt", "a.lua"])
      (execute nestedFile false ["ast", "a.lua"]) := showAgrees hplain hfile patience
  have hcheck : (execute nestedFile false ["check", "a.lua"]).status? = some 0 := by
    have hanswer : CheckAnswer nestedFile ["a.lua"] (execute nestedFile false ["check", "a.lua"]) :=
      checkAnswer_executeWithin (by decide) (by decide) patience
    have hholds := holdsProgram_of_program hfile hread
    simp [hanswer.status, hholds]
  -- the text is read as the nested program, whose depth is over the limit
  obtain ⟨hout, hstatus, -⟩ := hshow.tree_deep _ hread hdeep
  refine ⟨hplain, hfile, hcheck, hshow.layout_iff.2 hcheck, hstatus, hout, ?_⟩
  intro hiff
  rw [hstatus] at hiff
  exact absurd (hiff.2 hcheck) (by decide)

end CommandLine
end MiniLua

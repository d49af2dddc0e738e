import MiniLua.Proofs.Agreement
import MiniLua.Proofs.RoundTrip

/-!
# Laying out twice

A tree with negative literals or without a name is not the tree that its text spells. The two are laid
out alike all the same: a negative literal has the words of the subtraction that it is spelled as, in
every expression and at every depth, and a program without a name has the words of one named `f`. So
the canonical layout of a program is a fixed point: reading it and laying it out again changes no
character, and neither does the command that does both with a file.

## Delivered

- `Expr.words_desugar`, `Cond.words_desugar`, `Stmt.layout_desugar`, `Program.text_desugar`: a tree and
  what its text spells are laid out alike.
- `CommandLine.showLayout_text`: the layout of a file that holds a layout.
- `Program.layout_stable`: the canonical layout is a fixed point.
-/

set_option autoImplicit false

namespace MiniLua

/-! ## Spelled trees have the same layout -/

/-- The expression that a literal is spelled as has the words of the literal. -/
theorem literalTree_words (value : Int32) (rest : List String) :
    (literalTree value).words rest = literalWords value ++ rest := by
  have hbound := value.le_toInt
  have hzero : literalWords 0 = ["0"] := by decide
  by_cases hpos : 0 ≤ value.toInt
  · simp [literalTree, hpos, Expr.words]
  · by_cases hmin : value.toInt = -2147483648
    · simp only [literalTree, literalWords, hmin, if_true]
      rfl
    · -- the opposite of any other negative value is a value again, and not a negative one
      have hneg : (-value).toInt = -value.toInt := by
        rw [Int32.toInt_neg]
        exact Int.bmod_eq_of_le (by omega) (by omega)
      have hwords : literalWords (-value) = [numeral (-value.toInt).toNat] := by
        rw [literalWords, hneg]
        exact if_pos (by omega)
      simp only [literalTree, hpos, hmin, if_false, Expr.words, hzero, hwords]
      simp [literalWords, hpos, hmin, ArithOp.text]

theorem Expr.words_desugar (e : Expr) (rest : List String) : e.desugar.words rest = e.words rest := by
  induction e generalizing rest with
  | missing => rfl
  | var x => rfl
  | lit value => exact literalTree_words value rest
  | binary op left right bare ihl ihr => simp only [Expr.desugar, Expr.words, ihl, ihr]

theorem Cond.words_desugar (c : Cond) (rest : List String) : c.desugar.words rest = c.words rest := by
  cases c with
  | missing => rfl
  | compare op left right bare => simp only [Cond.desugar, Cond.words, Expr.words_desugar]

mutual

/-- A statement is laid out as what its text spells, at every depth. -/
theorem Stmt.layout_desugar (s : Stmt) (depth : Nat) (rest : List Line) :
    s.desugar.layout depth rest = s.layout depth rest := by
  cases s with
  | missing => rfl
  | assign target value bare => simp only [Stmt.desugar, Stmt.layout, Expr.words_desugar]
  | print value bare => simp only [Stmt.desugar, Stmt.layout, Expr.words_desugar]
  | branch cond onTrue onFalse bare =>
    simp only [Stmt.desugar, Stmt.layout, Cond.words_desugar]
    rw [Block.layout_desugar onTrue, Block.layout_desugar onFalse]
  | loopWhile cond body bare =>
    simp only [Stmt.desugar, Stmt.layout, Cond.words_desugar]
    rw [Block.layout_desugar body]
  | loopUntil body cond bare =>
    simp only [Stmt.desugar, Stmt.layout, Cond.words_desugar]
    rw [Block.layout_desugar body]

theorem Block.layout_desugar (b : Block) (depth : Nat) (rest : List Line) :
    b.desugar.layout depth rest = b.layout depth rest := by
  cases b with
  | missing => rfl
  | seq stmts bare =>
    simp only [Block.desugar, Block.layout]
    exact layoutAll_desugar stmts depth rest

theorem layoutAll_desugar (stmts : List Stmt) (depth : Nat) (rest : List Line) :
    layoutAll (desugarAll stmts) depth rest = layoutAll stmts depth rest := by
  cases stmts with
  | nil => rfl
  | cons s stmts =>
    simp only [desugarAll, layoutAll]
    rw [layoutAll_desugar stmts, Stmt.layout_desugar s]

end

/-- A program has the text of what its text spells. -/
theorem Program.text_desugar (p : Program) : p.desugar.text = p.text := by
  have htitle : p.desugar.title = p.title := by
    obtain ⟨name, body, bare⟩ := p
    cases name with
    | none => rfl
    | some x => rfl
  rw [Program.text, Program.text, Program.layout, Program.layout, htitle]
  exact congrArg layoutText (congrArg (_ :: ·) (Block.layout_desugar p.body 1 _))

/-- Reading the text of a well-formed program and writing it again gives the same text. -/
theorem Program.exists_ofBytes?_text {p : Program} (h : p.isWellFormed = true) :
    ∃ q, Program.ofBytes? (Text.encode p.text) = .ok q ∧ q.text = p.text :=
  ⟨p.desugar, Program.ofBytes?_text_of_isWellFormed h, p.text_desugar⟩

/-! ## Files that hold a layout -/

namespace CommandLine

variable {w : World} {path : String}

/-- A layout is printed of a file with a program, and of nothing else. -/
theorem exists_program_of_showLayout {o : Options}
    (h : ((showLayout w o path).closed o.colored).status? = some 0) :
    ∃ text p, Program.ofBytes? text = .ok p ∧ showLayout w o path = { out := p.text } := by
  unfold showLayout showProgram at h ⊢
  cases hfile : w.file path with
  | error e =>
    rw [hfile] at h
    cases h
  | ok text =>
    rw [hfile] at h
    dsimp only at h ⊢
    cases hread : Program.ofBytes? text with
    | error e =>
      rw [hread] at h
      cases h
    | ok p => exact ⟨text, p, hread, rfl⟩

/-- The layout of a file that holds the text of a program which was read. -/
theorem showLayout_text {o : Options} {bytes : Bytes} {p : Program}
    (h : Program.ofBytes? bytes = .ok p) (hfile : w.file path = .ok (Text.encode p.text)) :
    showLayout w o path = { out := p.text } := by
  obtain ⟨ts, lines, -, hclass, hspelled⟩ := Program.exists_spelled_of_ofBytes? h
  obtain ⟨q, hread, htext⟩ := Program.exists_ofBytes?_text (hspelled.isWellFormed hclass)
  rw [showLayout, showProgram, hfile]
  dsimp only
  rw [hread]
  exact congrArg (fun text => ({ out := text } : Report)) htext

end CommandLine

/-! ## The fixed point -/

open CommandLine in
/-- The canonical layout is a fixed point. Every program that the constructors build has a text that is
read as a program with the same text, whether or not it is the same program. And what the command
writes for a file with a program, it writes again, without a complaint, for every file that holds
it. -/
theorem Program.layout_stable :
    (∀ p : Program, p.Built →
      ∃ q, Program.ofBytes? (Text.encode p.text) = .ok q ∧ q.text = p.text) ∧
    ∀ (w : World) (path : String) (colored : Bool) (n : Nat) (first : Report), IsPlain path →
      executeWithin n w colored ["fmt", path] = first → first.status? = some 0 →
      ∀ (w' : World) (path' : String) (colored' : Bool) (n' : Nat), IsPlain path' →
        w'.file path' = .ok (Text.encode first.out) →
        executeWithin n' w' colored' ["fmt", path'] = { out := first.out, ending := .done } := by
  refine ⟨?_, ?_⟩
  · intro p hbuilt
    exact Program.exists_ofBytes?_text (Program.built_iff_isWellFormed.1 hbuilt)
  · intro w path colored n first hplain hfirst hstatus w' path' colored' n' hplain' hfile
    rw [executeWithin_fmt hplain] at hfirst
    rw [← hfirst] at hstatus
    obtain ⟨text, p, hread, hlayout⟩ := exists_program_of_showLayout hstatus
    have hout : first = { out := p.text } := by
      rw [← hfirst, hlayout]
      rfl
    rw [hout] at hfile ⊢
    rw [executeWithin_fmt hplain', showLayout_text hread hfile]
    rfl

open CommandLine in
/-- The least literal in a program without a name, and a program on a single line of a file. -/
theorem Program.layout_stable_least :
    (∃ p q : Program, p.Built ∧ p.name = none ∧ p.body = .seq [.print (.lit (-2147483648))] ∧
      Program.ofBytes? (Text.encode p.text) = .ok q ∧ q.name = some standInName ∧
      q.text = p.text) ∧
    ∃ (w : World) (text : String), text = "function f ( )\n  print ( 7 )\nend\n" ∧
      executeWithin 0 shelf true ["fmt", "a"] = { out := text } ∧
      w.file "b" = .ok (Text.encode text) ∧
      executeWithin 0 w false ["fmt", "b"] = { out := text, ending := .done } := by
  obtain ⟨htrees, hfiles⟩ := Program.layout_stable
  refine ⟨?_, ?_⟩
  · have hwell : Program.isWellFormed ⟨none, .seq [.print (.lit (-2147483648))], false⟩ = true := rfl
    have hbuilt := Program.built_iff_isWellFormed.2 hwell
    obtain ⟨q, hread, htext⟩ := htrees _ hbuilt
    have hname : q.name = some standInName := by
      rw [Program.ofBytes?_text_of_isWellFormed hwell] at hread
      cases hread
      rfl
    exact ⟨_, q, hbuilt, rfl, rfl, hread, hname, htext⟩
  · have hfirst : executeWithin 0 shelf true ["fmt", "a"] =
        { out := "function f ( )\n  print ( 7 )\nend\n" } := by
      have hlayout : Program.text ⟨some ⟨102, false⟩, .seq [.print (.lit 7)], false⟩ =
          "function f ( )\n  print ( 7 )\nend\n" := by decide +kernel
      have hfile : shelf.file "a" = .ok (Text.encode "function f ( ) print ( 7 ) end") := rfl
      rw [executeWithin_fmt (by decide), showLayout, showProgram, hfile]
      dsimp only
      rw [Shelf.ofBytes?_program, ← hlayout]
      rfl
    let w : World :=
      { directory := "/"
        file := fun _ => .ok (Text.encode "function f ( )\n  print ( 7 )\nend\n")
        repository := fun _ => none }
    refine ⟨w, _, rfl, hfirst, rfl, ?_⟩
    exact hfiles shelf "a" true 0 _ (by decide) hfirst rfl w "b" false 0 (by decide) rfl

end MiniLua

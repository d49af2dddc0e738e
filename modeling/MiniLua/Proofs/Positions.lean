import MiniLua.Proofs.Scanning
import MiniLua.Syntax.Descent

/-!
# Where lexemes stand

The scan gives every lexeme with the line and the column of its first character: the line is one of
the lines of the text, and in that line the characters of the lexeme stand at that column, with a
delimiter or an end of the line on both sides. So a lexeme has characters, and its place counts from
one, which is all that the checked constructor of tokens asks for.

## Delivered

- `Text.StandsAt`, `Text.RunAt`: a run of characters at a place of a line and of a text.
- `TokenQueue.runAt_of_mem_lexemes`: the lexemes of a text stand where the scan says.
- `TokenQueue.checked?_eq`: checking each token that is made changes nothing.
-/

set_option autoImplicit false

namespace MiniLua

/-! ## Runs at places -/

/-- The run stands in the line at the column: no character of it is a delimiter, and on both sides of
it is a delimiter or an end of the line. -/
structure Text.StandsAt (run line : List Char) (column : Nat) : Prop where
  ne_nil : run ≠ []
  solid : ∀ c ∈ run, isDelimiter c = false
  split : ∃ before after, line = before ++ run ++ after ∧ column = before.length + 1 ∧
    (∀ c ∈ before.getLast?, isDelimiter c = true) ∧ ∀ c ∈ after.head?, isDelimiter c = true

/-- The run stands in the text at the line and the column, both counted from one. -/
structure Text.RunAt (lines : List (List Char)) (run : List Char) (line column : Nat) : Prop where
  one_le_line : 1 ≤ line
  standsAt : ∃ chars, lines[line - 1]? = some chars ∧ StandsAt run chars column

theorem Text.RunAt.line_le {lines : List (List Char)} {run : List Char} {line column : Nat}
    (h : RunAt lines run line column) : line ≤ lines.length := by
  obtain ⟨chars, hline, -⟩ := h.standsAt
  obtain ⟨hlt, -⟩ := List.getElem?_eq_some_iff.1 hline
  have hpos := h.one_le_line
  omega

theorem Text.RunAt.one_le_column {lines : List (List Char)} {run : List Char} {line column : Nat}
    (h : RunAt lines run line column) : 1 ≤ column := by
  obtain ⟨chars, -, -, -, before, after, -, rfl, -⟩ := h.standsAt
  exact Nat.le_add_left 1 _

theorem Text.RunAt.ne_nil {lines : List (List Char)} {run : List Char} {line column : Nat}
    (h : RunAt lines run line column) : run ≠ [] := by
  obtain ⟨chars, -, hstands⟩ := h.standsAt
  exact hstands.ne_nil

/-! ## The scan -/

namespace Lexeme

variable {line cs : List Char}

/-- A run that is closed stands behind what came before it. -/
theorem standsAt_of_mem_close {before current : List Char} {found : List Lexeme}
    (hline : line = before ++ current.reverse ++ cs)
    (hbefore : ∀ c ∈ before.getLast?, Text.isDelimiter c = true)
    (hcurrent : ∀ c ∈ current, Text.isDelimiter c = false)
    (hcs : ∀ c ∈ cs.head?, Text.isDelimiter c = true)
    (hfound : ∀ x ∈ found, Text.StandsAt x.chars line x.column) {x : Lexeme}
    (hx : x ∈ close current (before.length + current.length + 1) found) :
    Text.StandsAt x.chars line x.column := by
  unfold close at hx
  split at hx
  · exact hfound x hx
  · rename_i hne
    rcases List.mem_cons.1 hx with rfl | hx
    · refine ⟨by simpa using hne, fun c hc => hcurrent c (List.mem_reverse.1 hc), before, cs, hline,
        ?_, hbefore, hcs⟩
      dsimp only
      omega
    · exact hfound x hx

/-- The lexemes that a scan finds stand in the line, when those found before do, and when the
unfinished run stands behind a delimiter or at the start of the line. -/
theorem standsAt_of_mem_scan (before current : List Char) (found : List Lexeme)
    (hline : line = before ++ current.reverse ++ cs)
    (hbefore : ∀ c ∈ before.getLast?, Text.isDelimiter c = true)
    (hcurrent : ∀ c ∈ current, Text.isDelimiter c = false)
    (hfound : ∀ x ∈ found, Text.StandsAt x.chars line x.column) {x : Lexeme}
    (hx : x ∈ scan cs (before.length + current.length + 1) current found) :
    Text.StandsAt x.chars line x.column := by
  -- on the characters to come; `before` and the unfinished run are those that are gone
  induction cs generalizing before current found with
  | nil =>
    rw [scan, List.mem_reverse] at hx
    exact standsAt_of_mem_close hline hbefore hcurrent (by simp) hfound hx
  | cons c cs ih =>
    rw [scan] at hx
    split at hx
    -- a delimiter closes the unfinished run, and any other character makes it longer
    · rename_i hc
      refine ih (before ++ current.reverse ++ [c]) [] _ ?_ ?_ (by simp) ?_ (by
        simpa [Nat.add_assoc] using hx)
      · simp [hline]
      · simpa using hc
      · intro y hy
        exact standsAt_of_mem_close hline hbefore hcurrent (by simpa using hc) hfound hy
    · rename_i hc
      refine ih before (c :: current) found (by simp [hline]) hbefore ?_ hfound (by
        simpa [Nat.add_assoc] using hx)
      intro d hd
      rcases List.mem_cons.1 hd with rfl | hd
      · simpa using hc
      · exact hcurrent d hd

/-- The lexemes of a line stand in it. -/
theorem standsAt_of_mem_ofLine {x : Lexeme} (hx : x ∈ ofLine line) :
    Text.StandsAt x.chars line x.column :=
  standsAt_of_mem_scan [] [] [] rfl (by simp) (by simp) (by simp) hx

end Lexeme

namespace TokenQueue

/-- The lexemes of a text stand in it. -/
theorem runAt_of_mem_lexemes {lines : List (List Char)} {x : Nat × Lexeme} (hx : x ∈ lexemes lines) :
    Text.RunAt lines x.2.chars x.1 x.2.column := by
  obtain ⟨⟨chars, row⟩, hrow, hx⟩ := List.mem_flatMap.1 hx
  obtain ⟨lexeme, hlexeme, rfl⟩ := List.mem_map.1 hx
  obtain ⟨hpos, hline⟩ := List.mem_zipIdx_iff_le_and_getElem?_sub.1 hrow
  exact ⟨hpos, chars, hline, Lexeme.standsAt_of_mem_ofLine hlexeme⟩

/-! ## Checked tokens -/

/-- Two walks over a list give the same results, and errors that belong together, when they do so for
each element. -/
theorem mapM_mapError {ε δ α β : Type} {f : α → Except ε β} {g : α → Except δ β} {report : ε → δ}
    {xs : List α} (h : ∀ x ∈ xs, g x = (f x).mapError report) :
    xs.mapM g = (xs.mapM f).mapError report := by
  induction xs with
  | nil => rfl
  | cons x xs ih =>
    obtain ⟨hx, hxs⟩ := List.forall_mem_cons.1 h
    rw [List.mapM_cons, List.mapM_cons, hx, ih hxs]
    cases f x with
    | error e => rfl
    | ok y => cases xs.mapM f <;> rfl

/-- A token with characters, a line and a column passes its check. -/
theorem make?_eq_ok (kind : Kind) {lexeme : String} {line column : Nat} (hlexeme : lexeme ≠ "")
    (hline : 1 ≤ line) (hcolumn : 1 ≤ column) :
    Token.make? kind.code lexeme line column = .ok ⟨kind, lexeme, line, column⟩ := by
  have hline' : ¬ (line : Int) ≤ 0 := by omega
  have hcolumn' : ¬ (column : Int) ≤ 0 := by omega
  simp only [Token.make?, Kind.ofCode?_code, if_neg hlexeme, if_neg hline', if_neg hcolumn',
    Int.toNat_natCast]

/-- The check of a token refuses no lexeme that stands in a text. -/
theorem checkedToken_eq {lines : List (List Char)} {x : Nat × Lexeme}
    (h : Text.RunAt lines x.2.chars x.1 x.2.column) :
    checkedToken x = (classify x).mapError LexError.failure := by
  obtain ⟨row, chars, column⟩ := x
  have hlexeme : String.ofList chars ≠ "" := by
    intro hempty
    have hnil := congrArg String.toList hempty
    exact h.ne_nil (by simpa using hnil)
  -- a run has characters, and its line and its column are counted from one
  have hchars : ¬ chars.isEmpty = true := by simpa using h.ne_nil
  simp only [checkedToken, checkedKind, if_neg hchars, classify]
  cases Lexeme.classify chars with
  | error fault => rfl
  | ok kind =>
    change built (Token.make? kind.code (String.ofList chars) row column) = _
    rw [make?_eq_ok kind hlexeme h.one_le_line h.one_le_column]
    rfl

/-- The checks refuse no token of a text. -/
theorem checked?_eq (bytes : Bytes) : checked? bytes = (tokens? bytes).mapError LexError.failure := by
  have hlast (n : Nat) : Token.make? Kind.endOfStream.code "EOS" (max 1 n : Nat) (1 : Nat) =
      .ok (endToken n) :=
    make?_eq_ok .endOfStream (by decide) (Nat.le_max_left 1 n) (Nat.le_refl 1)
  have htokens : (lexemes ((Text.lines bytes).map Text.decode)).mapM checkedToken = _ :=
    mapM_mapError fun x hx => checkedToken_eq (runAt_of_mem_lexemes hx)
  simp only [checked?, tokens?, ofBytes, ofLines, htokens]
  cases (lexemes ((Text.lines bytes).map Text.decode)).mapM classify with
  | error e => rfl
  | ok tokens =>
    change built (Token.make? Kind.endOfStream.code "EOS" (max 1 _ : Nat) (1 : Nat)) >>= _ = _
    rw [hlast]
    rfl

end TokenQueue
end MiniLua

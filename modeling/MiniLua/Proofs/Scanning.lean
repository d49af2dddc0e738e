import MiniLua.Proofs.Numeral
import MiniLua.Token.Queue

/-!
# Words and tokens of a text

The lexemes of a text are found by a scan with positions; its words are the maximal runs without a
delimiter, which need no scan to be described. The two agree line by line, so a text has tokens
exactly when each of its words is classified, and then it has one token for each word, in order,
and one more for the end of the stream.

## Delivered

- `Text.runs`, `Text.words`: the runs of a line and the words of a text.
- `Lexeme.ofLine_map_chars`: the lexemes of a line are its runs.
- `Lexeme.classify_eq_ok_iff`: the four classes of words.
- `Lexeme.IsWord`, `Lexeme.IsWord.ascii`: words, and the characters in them.
- `Token.IsClassified`, `Token.origin`: the kind of a token is the class of its lexeme, and its place
  is that of the lexeme.
- `TokenQueue.tokens?_spec`, `TokenQueue.exists_tokens?`: the tokens of a text and its words.
-/

set_option autoImplicit false

namespace MiniLua

/-! ## Runs -/

namespace Text

/-- The maximal runs of characters without a delimiter. -/
def runs (cs : List Char) : List (List Char) :=
  (cs.splitOnP isDelimiter).filter fun run => !run.isEmpty

theorem runs_nil : runs [] = [] := by
  simp [runs]

/-- A delimiter divides the runs before it from the runs after it. -/
theorem runs_append_cons {c : Char} (hc : isDelimiter c = true) (xs ys : List Char) :
    runs (xs ++ c :: ys) = runs xs ++ runs ys := by
  rw [runs, List.splitOnP_append_cons xs ys hc, List.filter_append]
  rfl

/-- A delimiter in front adds no run. -/
theorem runs_cons {c : Char} (hc : isDelimiter c = true) (cs : List Char) :
    runs (c :: cs) = runs cs := by
  have h := runs_append_cons hc [] cs
  rwa [runs_nil, List.nil_append, List.nil_append] at h

/-- Characters without a delimiter are one run. -/
theorem runs_eq_singleton {w : List Char} (hne : w ≠ []) (hw : ∀ c ∈ w, isDelimiter c = false) :
    runs w = [w] := by
  rw [runs, List.splitOnP_eq_singleton hw]
  simp [hne]

/-- The words of a text, line by line. -/
def words (bytes : Bytes) : List (List Char) :=
  (lines bytes).flatMap fun line => runs (decode line)

end Text

namespace Lexeme

/-- Closing a run adds it to the runs that were found, unless it is empty. -/
theorem close_map_chars (current : List Char) (column : Nat) (found : List Lexeme) :
    (close current column found).reverse.map chars =
      found.reverse.map chars ++ [current.reverse].filter fun run => !run.isEmpty := by
  cases current with
  | nil => simp [close]
  | cons c current => simp [close]

/-- The scan gives what was found before, then the pieces of what is left, the first of them after
the characters of the unfinished run. -/
theorem scan_map_chars (cs : List Char) (column : Nat) (current : List Char)
    (found : List Lexeme) :
    (scan cs column current found).map chars =
      found.reverse.map chars ++
        (cs.splitOnPPrepend Text.isDelimiter current).filter fun run => !run.isEmpty := by
  induction cs generalizing column current found with
  | nil => exact close_map_chars current column found
  | cons c cs ih =>
    rw [scan]
    split
    -- a delimiter closes the unfinished run, and any other character makes it longer
    · rename_i hc
      rw [ih, close_map_chars, List.splitOnPPrepend_cons_pos hc, List.append_assoc,
        ← List.filter_append]
      rfl
    · rename_i hc
      rw [ih, List.splitOnPPrepend_cons_neg (by simpa using hc)]

/-- The lexemes of a line are its runs. -/
theorem ofLine_map_chars (line : List Char) : (ofLine line).map chars = Text.runs line :=
  scan_map_chars line 1 [] []

/-! ## Classes of words -/

/-- A word with a name of its own is that of a keyword or of a symbol. -/
theorem classify_name {k : Kind} (hk : k ∈ Kind.keywords ++ Kind.symbols) :
    classify k.name.toList = .ok k := by
  cases k
  case endOfStream | identifier | integer => exact absurd hk (by decide)
  all_goals rfl

/-- A word that is looked up by its name is that name. -/
theorem eq_name_of_find? {kinds : List Kind} {cs : List Char} {k : Kind}
    (h : kinds.find? (fun k => k.name = String.ofList cs) = some k) : cs = k.name.toList := by
  have hname : k.name = String.ofList cs := by simpa using List.find?_some h
  rw [hname, String.toList_ofList]

/-- The codes of letters. -/
theorem isLetter_iff {c : Char} :
    isLetter c = true ↔ (97 ≤ c.toNat ∧ c.toNat ≤ 122) ∨ (65 ≤ c.toNat ∧ c.toNat ≤ 90) := by
  simp only [isLetter, Bool.or_eq_true, Bool.and_eq_true, decide_eq_true_eq, Char.le_def,
    UInt32.le_iff_toNat_le]
  rfl

/-- No letter is a digit. -/
theorem isDigit_of_isLetter {c : Char} (h : isLetter c = true) : Text.isDigit c = false := by
  have hletter := isLetter_iff.1 h
  rw [← Bool.not_eq_true, Text.isDigit_iff]
  omega

/-- The four classes of words: digits, letters, keywords and symbols. -/
theorem classify_eq_ok_iff {cs : List Char} {k : Kind} :
    classify cs = .ok k ↔
      (k = .integer ∧ cs ≠ [] ∧ ∀ c ∈ cs, Text.isDigit c = true) ∨
      (k = .identifier ∧ ∃ c, cs = [c] ∧ isLetter c = true) ∨
      (k ∈ Kind.keywords ++ Kind.symbols ∧ cs = k.name.toList) := by
  constructor
  -- the first character decides which of the classes can apply
  · intro h
    unfold classify at h
    split at h
    · cases h
    · rename_i first rest
      split at h
      · rename_i hfirst
        split at h
        · rename_i hrest
          cases h
          refine .inl ⟨rfl, by simp, ?_⟩
          simpa [hfirst] using hrest
        · cases h
      · split at h
        · rename_i hfirst
          split at h
          · rename_i hrest
            cases h
            refine .inr (.inl ⟨rfl, first, ?_, hfirst⟩)
            rw [List.isEmpty_iff.1 hrest]
          · split at h
            · rename_i kind hkind
              cases h
              exact .inr (.inr ⟨List.mem_append_left _ (List.mem_of_find?_eq_some hkind),
                eq_name_of_find? hkind⟩)
            · cases h
        · split at h
          · rename_i kind hkind
            cases h
            exact .inr (.inr ⟨List.mem_append_right _ (List.mem_of_find?_eq_some hkind),
              eq_name_of_find? hkind⟩)
          · cases h
  · rintro (⟨rfl, hne, hcs⟩ | ⟨rfl, c, rfl, hc⟩ | ⟨hk, rfl⟩)
    · cases cs with
      | nil => exact absurd rfl hne
      | cons c cs =>
        have hc : Text.isDigit c = true := hcs c List.mem_cons_self
        have hrest : cs.all Text.isDigit = true := by
          simpa using fun d hd => hcs d (List.mem_cons_of_mem c hd)
        simp [classify, hc, hrest]
    · simp [classify, isDigit_of_isLetter hc, hc]
    · exact classify_name hk

/-- The digits of a number are a word. -/
theorem classify_toDigits (n : Nat) : classify (Nat.toDigits 10 n) = .ok .integer :=
  classify_eq_ok_iff.2
    (.inl ⟨rfl, Nat.toDigits_ne_nil, fun _ hc => Text.isDigit_of_mem_toDigits hc⟩)

/-- The names of keywords and symbols are ASCII without a delimiter. -/
theorem name_ascii {k : Kind} (hk : k ∈ Kind.keywords ++ Kind.symbols) :
    k.name.toList ≠ [] ∧ ∀ c ∈ k.name.toList, c.toNat < 128 ∧ Text.isDelimiter c = false := by
  have hall : k.name.toList ≠ [] ∧
      k.name.toList.all (fun c => decide (c.toNat < 128) && !Text.isDelimiter c) = true := by
    cases k
    case endOfStream | identifier | integer => exact absurd hk (by decide)
    all_goals exact ⟨by decide, rfl⟩
  refine ⟨hall.1, fun c hc => ?_⟩
  simpa using List.all_eq_true.1 hall.2 c hc

/-- A character with one of the codes of digits and letters is no delimiter. -/
theorem isDelimiter_eq_false {c : Char} (h : 48 ≤ c.toNat) : Text.isDelimiter c = false := by
  simp only [Text.isDelimiter, Bool.or_eq_false_iff, decide_eq_false_iff_not]
  refine ⟨⟨⟨⟨⟨?_, ?_⟩, ?_⟩, ?_⟩, ?_⟩, ?_⟩ <;> (rintro rfl; exact absurd h (by decide))

/-- The characters are a word of one of the classes. -/
def IsWord (cs : List Char) : Prop :=
  ∃ k, classify cs = .ok k

/-- A word is not empty, and its characters are ASCII without a delimiter. -/
theorem IsWord.ascii {cs : List Char} (h : IsWord cs) :
    cs ≠ [] ∧ ∀ c ∈ cs, c.toNat < 128 ∧ Text.isDelimiter c = false := by
  obtain ⟨k, hk⟩ := h
  rcases classify_eq_ok_iff.1 hk with ⟨-, hne, hcs⟩ | ⟨-, c, rfl, hc⟩ | ⟨hmem, rfl⟩
  · refine ⟨hne, fun c hc => ?_⟩
    have hcode := Text.isDigit_iff.1 (hcs c hc)
    exact ⟨by omega, isDelimiter_eq_false hcode.1⟩
  · refine ⟨by simp, fun d hd => ?_⟩
    rw [List.mem_singleton.1 hd]
    have hcode := isLetter_iff.1 hc
    exact ⟨by omega, isDelimiter_eq_false (by omega)⟩
  · exact name_ascii hmem

/-- No word is classified as the end of the stream. -/
theorem classify_ne_endOfStream {cs : List Char} : classify cs ≠ .ok .endOfStream := by
  intro h
  rcases classify_eq_ok_iff.1 h with ⟨hk, -⟩ | ⟨hk, -⟩ | ⟨hk, -⟩
  · cases hk
  · cases hk
  · exact absurd hk (by decide)

end Lexeme

/-! ## Tokens of a text -/

/-- The kind of the token is the class of its lexeme. -/
def Token.IsClassified (t : Token) : Prop :=
  Lexeme.classify t.lexeme.toList = .ok t.kind

/-- Where a token comes from: its line, and its lexeme with the column. -/
def Token.origin (t : Token) : Nat × Lexeme :=
  (t.line, ⟨t.lexeme.toList, t.column⟩)

/-- The token of a keyword or a symbol. -/
def Kind.token (k : Kind) : Token :=
  ⟨k, k.name, 1, 1⟩

theorem Kind.isClassified_token {k : Kind} (hk : k ∈ Kind.keywords ++ Kind.symbols) :
    k.token.IsClassified :=
  Lexeme.classify_name hk

namespace TokenQueue

/-- A walk over a list that succeeds has a result for each element. -/
theorem map_eq_of_mapM {ε α β : Type} {f : α → Except ε β} {xs : List α} {ys : List β}
    (h : xs.mapM f = .ok ys) : xs.map f = ys.map .ok := by
  induction xs generalizing ys with
  | nil =>
    cases h
    rfl
  | cons x xs ih =>
    rw [List.mapM_cons] at h
    cases hx : f x with
    | error e =>
      rw [hx] at h
      cases h
    | ok y =>
      cases hxs : xs.mapM f with
      | error e =>
        rw [hx, hxs] at h
        cases h
      | ok zs =>
        rw [hx, hxs] at h
        cases h
        rw [List.map_cons, hx, ih hxs, List.map_cons]

/-- A walk over a list succeeds when there is a result for each element. -/
theorem mapM_of_map_eq {ε α β : Type} {f : α → Except ε β} {xs : List α} {ys : List β}
    (h : xs.map f = ys.map .ok) : xs.mapM f = .ok ys := by
  induction xs generalizing ys with
  | nil =>
    cases ys with
    | nil => rfl
    | cons y ys => cases h
  | cons x xs ih =>
    cases ys with
    | nil => cases h
    | cons y ys =>
      rw [List.map_cons, List.map_cons, List.cons.injEq] at h
      rw [List.mapM_cons, h.1, ih h.2]
      rfl

/-- A walk over a list that fails does so at the first element without a result. -/
theorem exists_first_of_mapM_error {ε α β : Type} {f : α → Except ε β} {xs : List α} {e : ε}
    (h : xs.mapM f = .error e) :
    ∃ before x after, xs = before ++ x :: after ∧ (∀ y ∈ before, ∃ z, f y = .ok z) ∧
      f x = .error e := by
  induction xs with
  | nil => cases h
  | cons x xs ih =>
    rw [List.mapM_cons] at h
    cases hx : f x with
    | error e' =>
      rw [hx] at h
      cases h
      exact ⟨[], x, xs, rfl, fun _ hy => absurd hy List.not_mem_nil, hx⟩
    | ok z =>
      cases hxs : xs.mapM f with
      | ok zs =>
        rw [hx, hxs] at h
        cases h
      | error e' =>
        rw [hx, hxs] at h
        cases h
        obtain ⟨before, y, after, rfl, hbefore, hy⟩ := ih hxs
        exact ⟨x :: before, y, after, rfl, List.forall_mem_cons.2 ⟨⟨z, hx⟩, hbefore⟩, hy⟩

/-- A computation has the result that it gives as an option. -/
theorem eq_ok_of_toOption {ε α : Type} {x : Except ε α} {a : α} (h : x.toOption = some a) :
    x = .ok a := by
  cases x with
  | error e => cases h
  | ok b => exact congrArg _ (Option.some.inj h)

/-- The token of a lexeme is the lexeme, classified. -/
theorem classify_eq_ok_iff {x : Nat × Lexeme} {t : Token} :
    classify x = .ok t ↔ t.IsClassified ∧ t.lexeme.toList = x.2.chars ∧ t.line = x.1 ∧
      t.column = x.2.column := by
  obtain ⟨row, lexeme⟩ := x
  obtain ⟨kind, text, line, column⟩ := t
  simp only [classify, Token.IsClassified]
  constructor
  · intro h
    split at h
    · rename_i kind' hkind
      cases h
      exact ⟨by rw [String.toList_ofList, hkind], String.toList_ofList, rfl, rfl⟩
    · cases h
  · rintro ⟨hkind, htext, rfl, rfl⟩
    rw [← htext, hkind, String.ofList_toList]

/-- The lexemes of lines are their runs, line by line. -/
theorem lexemes_map_chars (lines : List (List Char)) :
    (lexemes lines).map (fun x => x.2.chars) = lines.flatMap Text.runs := by
  -- for any number of the first row, since the rows count up
  have key : ∀ row, ((lines.zipIdx row).flatMap fun x =>
      (Lexeme.ofLine x.1).map fun lexeme => (x.2, lexeme)).map (fun x => x.2.chars) =
        lines.flatMap Text.runs := by
    induction lines with
    | nil => intro row; rfl
    | cons line lines ih =>
      intro row
      rw [List.zipIdx_cons, List.flatMap_cons, List.map_append, ih, List.flatMap_cons,
        ← Lexeme.ofLine_map_chars, List.map_map]
      rfl
  exact key 1

/-- The lexemes of a text have the characters of its words. -/
theorem map_chars_lexemes (bytes : Bytes) :
    (lexemes ((Text.lines bytes).map Text.decode)).map (fun x => x.2.chars) = Text.words bytes := by
  rw [lexemes_map_chars, List.flatMap_map]
  rfl

/-- The tokens of lexemes are classified, and each comes from its lexeme. -/
theorem origin_of_map_classify {xs : List (Nat × Lexeme)} {ts : List Token}
    (h : xs.map classify = ts.map .ok) : (∀ t ∈ ts, t.IsClassified) ∧ ts.map Token.origin = xs := by
  induction xs generalizing ts with
  | nil =>
    cases ts with
    | nil => simp
    | cons t ts => cases h
  | cons x xs ih =>
    cases ts with
    | nil => cases h
    | cons t ts =>
      rw [List.map_cons, List.map_cons, List.cons.injEq] at h
      obtain ⟨ht, htext, hline, hcolumn⟩ := classify_eq_ok_iff.1 h.1
      obtain ⟨hts, horigins⟩ := ih h.2
      refine ⟨?_, by rw [List.map_cons, horigins, Token.origin, htext, hline, hcolumn]⟩
      intro u hu
      rcases List.mem_cons.1 hu with rfl | hu
      · exact ht
      · exact hts u hu

/-- The tokens of lexemes have the texts of the lexemes. -/
theorem tokens_of_map_classify {xs : List (Nat × Lexeme)} {ts : List Token}
    (h : xs.map classify = ts.map .ok) :
    (∀ t ∈ ts, t.IsClassified) ∧
      ts.map (fun t => t.lexeme.toList) = xs.map (fun x => x.2.chars) := by
  obtain ⟨hclass, horigins⟩ := origin_of_map_classify h
  refine ⟨hclass, ?_⟩
  rw [← horigins, List.map_map]
  rfl

/-- Lexemes have tokens when each of them is classified. -/
theorem exists_map_classify {xs : List (Nat × Lexeme)}
    (h : ∀ w ∈ xs.map (fun x => x.2.chars), Lexeme.IsWord w) :
    ∃ ts : List Token, xs.map classify = ts.map .ok := by
  induction xs with
  | nil => exact ⟨[], rfl⟩
  | cons x xs ih =>
    obtain ⟨k, hk⟩ := h x.2.chars List.mem_cons_self
    obtain ⟨ts, hts⟩ := ih fun w hw => h w (List.mem_cons_of_mem _ hw)
    refine ⟨⟨k, String.ofList x.2.chars, x.1, x.2.column⟩ :: ts, ?_⟩
    rw [List.map_cons, List.map_cons, hts, classify_eq_ok_iff.2]
    refine ⟨?_, String.toList_ofList, rfl, rfl⟩
    rw [Token.IsClassified, String.toList_ofList, hk]

/-- A text that has tokens has a classified token for each of its words, in order, and one for the
end of the stream behind them. -/
theorem tokens?_spec {bytes : Bytes} {all : List Token} (h : tokens? bytes = .ok all) :
    ∃ ts lines, all = ts ++ [endToken lines] ∧ (∀ t ∈ ts, t.IsClassified) ∧
      ts.map (fun t => t.lexeme.toList) = Text.words bytes := by
  unfold tokens? ofBytes ofLines at h
  cases hts : (lexemes ((Text.lines bytes).map Text.decode)).mapM classify with
  | error e =>
    rw [hts] at h
    cases h
  | ok ts =>
    rw [hts] at h
    cases h
    obtain ⟨hclass, htexts⟩ := tokens_of_map_classify (map_eq_of_mapM hts)
    refine ⟨ts, _, rfl, hclass, ?_⟩
    rw [htexts, map_chars_lexemes]

/-- A text has tokens when each of its words is classified. -/
theorem exists_tokens? {bytes : Bytes} (h : ∀ w ∈ Text.words bytes, Lexeme.IsWord w) :
    ∃ all, tokens? bytes = .ok all := by
  rw [← map_chars_lexemes] at h
  obtain ⟨ts, hts⟩ := exists_map_classify h
  unfold tokens? ofBytes ofLines
  rw [mapM_of_map_eq hts]
  exact ⟨_, rfl⟩

/-- The last token of a text is the end of the stream, and the others are classified. -/
theorem tokens?_append {bytes : Bytes} {ts : List Token} {last : Token}
    (h : tokens? bytes = .ok (ts ++ [last])) :
    (∃ lines, last = endToken lines) ∧ ∀ t ∈ ts, t.IsClassified := by
  obtain ⟨us, lines, heq, hclass, -⟩ := tokens?_spec h
  obtain ⟨rfl, hlast⟩ := List.append_inj' heq rfl
  exact ⟨⟨lines, (List.cons.inj hlast).1⟩, hclass⟩

end TokenQueue

/-- A classified token is not the end of the stream. -/
theorem Token.IsClassified.kind_ne_endOfStream {t : Token} (h : t.IsClassified) :
    t.kind ≠ .endOfStream := by
  intro hk
  rw [Token.IsClassified, hk] at h
  exact Lexeme.classify_ne_endOfStream h

end MiniLua

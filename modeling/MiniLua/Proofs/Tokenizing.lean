import MiniLua.Proofs.Characters
import MiniLua.Proofs.Positions

/-!
# Exactly the tokens of a text

What tokens a text has can be said without a scan. The text has characters, the characters have lines,
and in the lines stand runs without a delimiter. A run may be a number, a letter, a keyword or a
symbol. When each of them is, the text has one token for each run, in reading order, and one for the end
of the stream; else the first run that is none of these is refused.

The scan misses no run and finds none that is not there, and it finds them in order. Since runs at
places are ordered by their places, there is only one list of them.

## Delivered

- `Text.Divided`: a text, its lines and the runs in them; `Text.Divided.unique`.
- `Lexeme.mem_ofLine_of_standsAt`, `TokenQueue.mem_lexemes_iff`: the scan finds the runs that stand in
  a text.
- `Lexeme.pairwise_ofLine`, `TokenQueue.pairwise_lexemes`: it finds them in reading order.
- `Lexeme.Class`, `Lexeme.classify_error_cases`: the classes of runs, and the causes of a refusal.
- `TokenQueue.drain`, `TokenQueue.drain_eq`: taking all tokens from a queue one by one.
- `TokenQueue.tokens?_exact`: the tokens of a text, or its refusal.
-/

set_option autoImplicit false

namespace MiniLua

/-! ## Runs in reading order -/

/-- The first run stands before the second: on an earlier line, or further left on the same one. -/
def Lexeme.Before (x y : Nat × Lexeme) : Prop :=
  x.1 < y.1 ∨ (x.1 = y.1 ∧ x.2.column < y.2.column)

/-- The text has these lines, and in them stand these runs and no others, in reading order. -/
structure Text.Divided (bytes : Bytes) (lines : List (List Char)) (runs : List (Nat × Lexeme)) :
    Prop where
  isLines : ∃ cs, Reads bytes cs ∧ IsLines cs lines
  mem_iff : ∀ x, x ∈ runs ↔ RunAt lines x.2.chars x.1 x.2.column
  ordered : runs.Pairwise Lexeme.Before

theorem Lexeme.Before.asymm {x y : Nat × Lexeme} (h : Before x y) : ¬ Before y x := by
  unfold Before at *
  omega

/-- Runs in reading order are known by which runs they are. -/
theorem Lexeme.eq_of_pairwise_before {xs ys : List (Nat × Lexeme)} (hxs : xs.Pairwise Before)
    (hys : ys.Pairwise Before) (hmem : ∀ x, x ∈ xs ↔ x ∈ ys) : xs = ys := by
  have hne {x y : Nat × Lexeme} (h : Before x y) : x ≠ y := by
    rintro rfl
    exact h.asymm h
  have hperm : xs.Perm ys := (List.perm_ext_iff_of_nodup (hxs.imp hne) (hys.imp hne)).2 hmem
  exact hperm.eq_of_pairwise (fun _ _ _ _ h h' => absurd h' h.asymm) hxs hys

/-- A text has its lines and its runs in one way only. -/
theorem Text.Divided.unique {bytes : Bytes} {lines lines' : List (List Char)}
    {runs runs' : List (Nat × Lexeme)} (h : Divided bytes lines runs)
    (h' : Divided bytes lines' runs') : lines' = lines ∧ runs' = runs := by
  obtain ⟨cs, hreads, hlines⟩ := h.isLines
  obtain ⟨cs', hreads', hlines'⟩ := h'.isLines
  obtain rfl : cs' = cs := by rw [hreads.eq_decode, hreads'.eq_decode]
  obtain rfl := hlines'.unique hlines
  refine ⟨rfl, Lexeme.eq_of_pairwise_before h'.ordered h.ordered ?_⟩
  intro x
  rw [h.mem_iff, h'.mem_iff]

/-! ## The scan of a line -/

namespace Lexeme

/-- What was found before comes first. -/
theorem scan_eq_append (cs : List Char) (column : Nat) (current : List Char) (found : List Lexeme) :
    scan cs column current found = found.reverse ++ scan cs column current [] := by
  have hclose (current : List Char) (column : Nat) (found : List Lexeme) :
      (close current column found).reverse = found.reverse ++ (close current column []).reverse := by
    cases current <;> simp [close]
  induction cs generalizing column current found with
  | nil => exact hclose current column found
  | cons c cs ih =>
    rw [scan, scan]
    split
    · rw [ih _ _ (close current column found), ih _ _ (close current column []), hclose,
        List.append_assoc]
    · exact ih _ _ _

/-- A delimiter divides a scan in two. -/
theorem scan_append_cons {d : Char} (hd : Text.isDelimiter d = true) (xs ys : List Char)
    (column : Nat) (current : List Char) :
    scan (xs ++ d :: ys) column current [] =
      scan xs column current [] ++ scan ys (column + xs.length + 1) [] [] := by
  induction xs generalizing column current with
  | nil =>
    have hfirst : scan (d :: ys) column current [] =
        scan ys (column + 1) [] (close current column []) := by
      rw [scan, if_pos hd]
    rw [List.nil_append, hfirst, scan_eq_append]
    rfl
  | cons c xs ih =>
    have hcolumn : column + (c :: xs).length + 1 = column + 1 + xs.length + 1 := by
      rw [List.length_cons]
      omega
    rw [List.cons_append, scan, scan, hcolumn]
    split
    · rw [scan_eq_append, ih, scan_eq_append xs _ _ (close current column []), List.append_assoc]
    · exact ih _ _

/-- Characters without a delimiter make the unfinished run longer. -/
theorem scan_solid {run : List Char} (hrun : ∀ c ∈ run, Text.isDelimiter c = false) (column : Nat)
    (current : List Char) :
    scan run column current [] =
      (close (run.reverse ++ current) (column + run.length) []).reverse := by
  induction run generalizing column current with
  | nil => rfl
  | cons c run ih =>
    obtain ⟨hc, hrest⟩ := List.forall_mem_cons.1 hrun
    rw [scan, if_neg (by simp [hc]), ih hrest, List.reverse_cons, List.append_assoc,
      List.singleton_append, List.length_cons, Nat.add_right_comm, Nat.add_assoc]

/-- A run without a delimiter is one lexeme. -/
theorem scan_run {run : List Char} (hne : run ≠ []) (hrun : ∀ c ∈ run, Text.isDelimiter c = false)
    (column : Nat) : scan run column [] [] = [⟨run, column⟩] := by
  have hempty : ¬ run.reverse.isEmpty = true := by simpa using hne
  rw [scan_solid hrun, List.append_nil, close, if_neg hempty, List.reverse_reverse,
    List.length_reverse, Nat.add_sub_cancel]
  rfl

/-- A run that stands in a line is found there. -/
theorem mem_ofLine_of_standsAt {run line : List Char} {column : Nat}
    (h : Text.StandsAt run line column) : ⟨run, column⟩ ∈ ofLine line := by
  obtain ⟨before, after, rfl, rfl, hbefore, hafter⟩ := h.split
  have hrun : (⟨run, before.length + 1⟩ : Lexeme) ∈ scan (run ++ after) (before.length + 1) [] [] := by
    cases after with
    | nil =>
      rw [List.append_nil, scan_run h.ne_nil h.solid]
      exact List.mem_singleton_self _
    | cons d after =>
      rw [scan_append_cons (hafter d rfl), scan_run h.ne_nil h.solid]
      exact List.mem_append_left _ (List.mem_singleton_self _)
  -- the run begins the line, or a delimiter divides it from what stands before it
  rw [ofLine, List.append_assoc]
  rcases List.eq_nil_or_concat before with rfl | ⟨front, d, rfl⟩
  · exact hrun
  · have hlength : (front.concat d).length = 1 + front.length := by
      rw [List.length_concat, Nat.add_comm]
    rw [hlength] at hrun ⊢
    rw [List.concat_eq_append, List.append_assoc, List.singleton_append,
      scan_append_cons (hbefore d (by simp))]
    exact List.mem_append_right _ hrun

/-- A scan goes from left to right, from where the unfinished run began. -/
theorem pairwise_scan (cs : List Char) {column : Nat} {current : List Char}
    (h : current.length < column) :
    (scan cs column current []).Pairwise (fun x y => x.column < y.column) ∧
      ∀ x ∈ scan cs column current [], column ≤ x.column + current.length := by
  induction cs generalizing column current with
  | nil =>
    rw [scan, close]
    split
    · simp
    · simp
      omega
  | cons c cs ih =>
    rw [scan]
    split
    -- the unfinished run comes first, and all others begin behind the delimiter
    · have hstart : ([] : List Char).length < column + 1 := Nat.succ_pos column
      obtain ⟨hpairwise, hfrom⟩ := ih hstart
      rw [scan_eq_append, close]
      split
      · refine ⟨hpairwise, fun x hx => ?_⟩
        have hx := hfrom x hx
        rw [List.length_nil] at hx
        omega
      · rw [List.reverse_singleton, List.singleton_append, List.pairwise_cons]
        refine ⟨⟨fun x hx => ?_, hpairwise⟩, fun x hx => ?_⟩
        · have hx := hfrom x hx
          rw [List.length_nil] at hx
          dsimp only
          omega
        · rcases List.mem_cons.1 hx with rfl | hx
          · dsimp only
            omega
          · have hx := hfrom x hx
            rw [List.length_nil] at hx
            omega
    · have hlonger : (c :: current).length < column + 1 := Nat.succ_lt_succ h
      obtain ⟨hpairwise, hfrom⟩ := ih hlonger
      refine ⟨hpairwise, fun x hx => ?_⟩
      have hx := hfrom x hx
      rw [List.length_cons] at hx
      omega

/-- The lexemes of a line come from left to right. -/
theorem pairwise_ofLine (line : List Char) :
    (ofLine line).Pairwise fun x y => x.column < y.column :=
  (pairwise_scan line Nat.one_pos).1

end Lexeme

/-! ## The lexemes of a text -/

namespace TokenQueue

/-- The lexemes of a text are the runs that stand in it. -/
theorem mem_lexemes_iff {lines : List (List Char)} {x : Nat × Lexeme} :
    x ∈ lexemes lines ↔ Text.RunAt lines x.2.chars x.1 x.2.column := by
  refine ⟨runAt_of_mem_lexemes, ?_⟩
  rintro ⟨hpos, chars, hline, hstands⟩
  refine List.mem_flatMap.2 ⟨(chars, x.1), ?_, ?_⟩
  · exact List.mem_zipIdx_iff_le_and_getElem?_sub.2 ⟨hpos, hline⟩
  · exact List.mem_map.2 ⟨x.2, Lexeme.mem_ofLine_of_standsAt hstands, rfl⟩

/-- The lexemes of a text come in reading order. -/
theorem pairwise_lexemes (lines : List (List Char)) : (lexemes lines).Pairwise Lexeme.Before := by
  refine List.pairwise_flatMap.2 ⟨?_, ?_⟩
  · rintro ⟨line, row⟩ -
    rw [List.pairwise_map]
    exact (Lexeme.pairwise_ofLine line).imp fun h => .inr ⟨rfl, h⟩
  -- the numbers of the lines count up
  · have hrows : (lines.zipIdx 1).Pairwise fun a b => a.2 < b.2 := by
      rw [← List.pairwise_map (f := Prod.snd), List.zipIdx_map_snd]
      exact List.pairwise_lt_range'
    refine hrows.imp ?_
    rintro ⟨line, row⟩ ⟨line', row'⟩ hlt x hx y hy
    obtain ⟨lexeme, -, rfl⟩ := List.mem_map.1 hx
    obtain ⟨lexeme', -, rfl⟩ := List.mem_map.1 hy
    exact .inl hlt

/-- The lines and the lexemes of a text divide it. -/
theorem divided_lexemes (bytes : Bytes) :
    Text.Divided bytes ((Text.lines bytes).map Text.decode)
      (lexemes ((Text.lines bytes).map Text.decode)) where
  isLines := ⟨Text.decode bytes, Text.reads_decode bytes, Text.isLines_map_decode bytes⟩
  mem_iff _ := mem_lexemes_iff
  ordered := pairwise_lexemes _

end TokenQueue

/-! ## Classes of runs -/

namespace Lexeme

/-- The classes of runs that are tokens. -/
inductive Class : List Char → Kind → Prop
  | number {cs : List Char} (hne : cs ≠ []) (h : ∀ c ∈ cs, '0' ≤ c ∧ c ≤ '9') : Class cs .integer
  | letter {c : Char} (h : ('a' ≤ c ∧ c ≤ 'z') ∨ ('A' ≤ c ∧ c ≤ 'Z')) : Class [c] .identifier
  | keyword {k : Kind} (h : k ∈ Kind.keywords) : Class k.name.toList k
  | symbol {k : Kind} (h : k ∈ Kind.symbols) : Class k.name.toList k

example : Kind.keywords.map Kind.name =
    ["function", "if", "then", "else", "end", "while", "do", "print", "repeat", "until"] := rfl

example : Kind.symbols.map Kind.name =
    ["(", ")", "==", "~=", "<", "<=", ">", ">=", "+", "-", "*", "/", "="] := rfl

/-- The run begins with a digit. -/
def StartsWithDigit (cs : List Char) : Prop :=
  ∃ c ∈ cs.head?, '0' ≤ c ∧ c ≤ '9'

theorem isDigit_eq_true_iff {c : Char} : Text.isDigit c = true ↔ '0' ≤ c ∧ c ≤ '9' := by
  simp [Text.isDigit]

theorem isLetter_eq_true_iff {c : Char} :
    isLetter c = true ↔ ('a' ≤ c ∧ c ≤ 'z') ∨ ('A' ≤ c ∧ c ≤ 'Z') := by
  simp [isLetter]

/-- The kind of a run is that of its class. -/
theorem classify_eq_ok_iff_class {cs : List Char} {k : Kind} : classify cs = .ok k ↔ Class cs k := by
  rw [classify_eq_ok_iff]
  simp only [isDigit_eq_true_iff, isLetter_eq_true_iff, List.mem_append]
  constructor
  · rintro (⟨rfl, hne, hcs⟩ | ⟨rfl, c, rfl, hc⟩ | ⟨hk | hk, rfl⟩)
    · exact .number hne hcs
    · exact .letter hc
    · exact .keyword hk
    · exact .symbol hk
  · rintro (⟨hne, hcs⟩ | hc | hk | hk)
    · exact .inl ⟨rfl, hne, hcs⟩
    · exact .inr (.inl ⟨rfl, _, rfl, hc⟩)
    · exact .inr (.inr ⟨.inl hk, rfl⟩)
    · exact .inr (.inr ⟨.inr hk, rfl⟩)

/-- A run that begins with a digit is refused as a number, and any other run as a word. -/
theorem classify_error_cases {cs : List Char} {fault : LexemeFault}
    (h : classify cs = .error fault) :
    (StartsWithDigit cs ∧ fault = .brokenNumber) ∨ (¬ StartsWithDigit cs ∧ fault = .unknownWord) := by
  cases cs with
  | nil =>
    cases h
    exact .inr ⟨fun ⟨c, hc, _⟩ => absurd hc (by simp), rfl⟩
  | cons first rest =>
    have hstart : StartsWithDigit (first :: rest) ↔ Text.isDigit first = true := by
      simp [StartsWithDigit, isDigit_eq_true_iff]
    rw [hstart]
    rw [classify] at h
    split at h
    · rename_i hdigit
      split at h
      · cases h
      · cases h
        exact .inl ⟨hdigit, rfl⟩
    · rename_i hdigit
      refine .inr ⟨hdigit, ?_⟩
      repeat' split at h
      all_goals cases h
      all_goals rfl

end Lexeme

/-! ## Taking tokens one by one -/

namespace TokenQueue

theorem next?_shorter {q rest : TokenQueue} {t : Token} (h : q.next? = some (t, rest)) :
    rest.tokens.length < q.tokens.length := by
  unfold next? at h
  split at h
  · cases h
  · rename_i tokens htokens
    cases h
    rw [htokens]
    exact Nat.lt_succ_self _

/-- The tokens of a queue, taken from its front until the end of the stream is among them. -/
def drain (q : TokenQueue) : Except Failure (List Token) :=
  match h : q.next? with
  | none => .error noMoreTokens
  | some (t, rest) =>
    have := next?_shorter h
    if t.kind = .endOfStream then .ok [t]
    else
      match drain rest with
      | .error cause => .error cause
      | .ok ts => .ok (t :: ts)
termination_by q.tokens.length

/-- All tokens are taken from a queue in which the end of the stream is the last token and no other. -/
theorem drain_eq {ts : List Token} (hts : ∀ t ∈ ts, t.kind ≠ .endOfStream) {last : Token}
    (hlast : last.kind = .endOfStream) (lines : Nat) :
    drain ⟨ts ++ [last], lines⟩ = .ok (ts ++ [last]) := by
  induction ts with
  | nil =>
    rw [drain]
    simp [next?, hlast]
  | cons t ts ih =>
    obtain ⟨ht, hrest⟩ := List.forall_mem_cons.1 hts
    rw [drain]
    simp [next?, ht, ih hrest]

/-! ## The tokens of a text -/

/-- One token for each run, with the text, the place and the class of the run, and one token for the end
of the stream behind them. It stands at the start of the last line, or of line 1 when there is none. -/
def TokensOf (lineCount : Nat) (runs : List (Nat × Lexeme)) (ts : List Token) : Prop :=
  ∃ us, ts = us ++ [⟨.endOfStream, "EOS", max 1 lineCount, 1⟩] ∧ us.map Token.origin = runs ∧
    ∀ t ∈ us, Lexeme.Class t.lexeme.toList t.kind ∧ t.kind ≠ .endOfStream

/-- The failure is that of the first run that is no token, at the place of that run. -/
def RefusedAt (runs : List (Nat × Lexeme)) (f : Failure) : Prop :=
  ∃ before x after message, runs = before ++ x :: after ∧
    (∀ y ∈ before, ∃ k, Lexeme.Class y.2.chars k) ∧ (∀ k, ¬ Lexeme.Class x.2.chars k) ∧
    f = .lexical message { line := x.1, column := x.2.column } ∧
    (message = "literal integer expected" ↔ Lexeme.StartsWithDigit x.2.chars) ∧
    (message = "invalid lexeme" ↔ ¬ Lexeme.StartsWithDigit x.2.chars)

/-- A lexeme has a token when it has a class. -/
theorem exists_classify_iff {x : Nat × Lexeme} :
    (∃ t, classify x = .ok t) ↔ ∃ k, Lexeme.Class x.2.chars k := by
  simp only [← Lexeme.classify_eq_ok_iff_class]
  constructor
  · rintro ⟨t, ht⟩
    obtain ⟨hclass, hchars, -, -⟩ := classify_eq_ok_iff.1 ht
    exact ⟨t.kind, hchars ▸ hclass⟩
  · rintro ⟨k, hk⟩
    refine ⟨⟨k, String.ofList x.2.chars, x.1, x.2.column⟩, ?_⟩
    rw [classify_eq_ok_iff, Token.IsClassified, String.toList_ofList]
    exact ⟨hk, rfl, rfl, rfl⟩

/-- The tokens of lexemes, and the end of the stream. -/
theorem tokensOf_of_mapM {runs : List (Nat × Lexeme)} {us : List Token}
    (h : runs.mapM classify = .ok us) (lineCount : Nat) :
    TokensOf lineCount runs (us ++ [endToken lineCount]) := by
  obtain ⟨hclass, horigins⟩ := origin_of_map_classify (map_eq_of_mapM h)
  refine ⟨us, rfl, horigins, ?_⟩
  intro t ht
  exact ⟨Lexeme.classify_eq_ok_iff_class.1 (hclass t ht), (hclass t ht).kind_ne_endOfStream⟩

/-- A list of lexemes is refused at the first one that is no token. -/
theorem refusedAt_of_mapM {runs : List (Nat × Lexeme)} {e : LexError}
    (h : runs.mapM classify = .error e) : RefusedAt runs e.failure := by
  obtain ⟨before, x, after, hsplit, hbefore, hx⟩ := exists_first_of_mapM_error h
  obtain ⟨row, lexeme⟩ := x
  have hnone : ∀ k, ¬ Lexeme.Class lexeme.chars k := by
    intro k hk
    obtain ⟨t, ht⟩ := (exists_classify_iff (x := (row, lexeme))).2 ⟨k, hk⟩
    rw [hx] at ht
    cases ht
  simp only [classify] at hx
  split at hx
  · cases hx
  · rename_i fault hfault
    cases hx
    refine ⟨before, (row, lexeme), after, fault.message, hsplit,
      fun y hy => exists_classify_iff.1 (hbefore y hy), hnone, rfl, ?_⟩
    rcases Lexeme.classify_error_cases hfault with ⟨hstart, rfl⟩ | ⟨hstart, rfl⟩
    · exact ⟨by simp [LexemeFault.message, hstart], by simp [LexemeFault.message, hstart]⟩
    · exact ⟨by simp [LexemeFault.message, hstart], by simp [LexemeFault.message, hstart]⟩

/-- A text has the tokens of its lexemes, or it is refused as they are. -/
theorem tokens?_cases (bytes : Bytes) :
    (∃ us, (lexemes ((Text.lines bytes).map Text.decode)).mapM classify = .ok us ∧
      ofBytes bytes = .ok ⟨us ++ [endToken (Text.lines bytes).length], (Text.lines bytes).length⟩ ∧
      tokens? bytes = .ok (us ++ [endToken (Text.lines bytes).length])) ∨
    ∃ e, (lexemes ((Text.lines bytes).map Text.decode)).mapM classify = .error e ∧
      tokens? bytes = .error e := by
  have hlength : ((Text.lines bytes).map Text.decode).length = (Text.lines bytes).length :=
    List.length_map ..
  unfold tokens? ofBytes ofLines
  rw [hlength]
  cases (lexemes ((Text.lines bytes).map Text.decode)).mapM classify with
  | ok us => exact .inl ⟨us, rfl, rfl, rfl⟩
  | error e => exact .inr ⟨e, rfl, rfl⟩

/-- A text has one division into lines and runs. It has tokens exactly when each run is a number, a
letter, a keyword or a symbol. Then its tokens are those of the runs, in reading order, with one more
for the end of the stream, which no text can spell; and taking them one by one from the queue of the
text gives all of them. Otherwise the first run that is no token is refused, as a number when it begins
with a digit and as a word else. -/
theorem tokens?_exact (bytes : Bytes) :
    ∃ lines runs, Text.Divided bytes lines runs ∧
      (∀ lines' runs', Text.Divided bytes lines' runs' → lines' = lines ∧ runs' = runs) ∧
      ((∃ ts, tokens? bytes = .ok ts) ↔ ∀ x ∈ runs, ∃ k, Lexeme.Class x.2.chars k) ∧
      (∀ ts, tokens? bytes = .ok ts → TokensOf lines.length runs ts ∧
        ∃ q, ofBytes bytes = .ok q ∧ q.drain = .ok ts) ∧
      ∀ e, tokens? bytes = .error e → RefusedAt runs e.failure := by
  have hdivided := divided_lexemes bytes
  refine ⟨_, _, hdivided, fun _ _ h => hdivided.unique h, ?_⟩
  rw [List.length_map]
  rcases tokens?_cases bytes with ⟨us, hmap, hqueue, htokens⟩ | ⟨e, hmap, htokens⟩
  · rw [htokens, hqueue]
    refine ⟨⟨fun _ x hx => ?_, fun _ => ⟨_, rfl⟩⟩, ?_, ?_⟩
    · have hresult : classify x ∈ us.map Except.ok := map_eq_of_mapM hmap ▸ List.mem_map_of_mem hx
      obtain ⟨t, -, ht⟩ := List.mem_map.1 hresult
      exact exists_classify_iff.1 ⟨t, ht.symm⟩
    · rintro ts ⟨⟩
      have hclass := (origin_of_map_classify (map_eq_of_mapM hmap)).1
      exact ⟨tokensOf_of_mapM hmap _, _, rfl,
        drain_eq (fun t ht => (hclass t ht).kind_ne_endOfStream) rfl _⟩
    · rintro e ⟨⟩
  · have hrefused := refusedAt_of_mapM hmap
    rw [htokens]
    refine ⟨⟨?_, fun hall => ?_⟩, ?_, ?_⟩
    · rintro ⟨ts, ⟨⟩⟩
    · obtain ⟨before, x, after, message, hsplit, -, hnone, -⟩ := hrefused
      obtain ⟨k, hk⟩ := hall x (hsplit ▸ List.mem_append_right _ List.mem_cons_self)
      exact absurd hk (hnone k)
    · rintro ts ⟨⟩
    · rintro e' ⟨⟩
      exact hrefused

/-- A blank line counts as a line and has no run, and leading zeros stay in the lexeme. -/
theorem tokens?_exact_blank_line :
    ∃ bytes ts lines runs, bytes = Text.encode "x\t=\n\n 007\n" ∧
      ts = [⟨.identifier, "x", 1, 1⟩, ⟨.assign, "=", 1, 3⟩, ⟨.integer, "007", 3, 2⟩,
        ⟨.endOfStream, "EOS", 3, 1⟩] ∧
      tokens? bytes = .ok ts ∧ Text.Divided bytes lines runs ∧ TokensOf lines.length runs ts := by
  have htokens : tokens? (Text.encode "x\t=\n\n 007\n") = .ok [⟨.identifier, "x", 1, 1⟩,
      ⟨.assign, "=", 1, 3⟩, ⟨.integer, "007", 3, 2⟩, ⟨.endOfStream, "EOS", 3, 1⟩] :=
    eq_ok_of_toOption (by decide +kernel)
  obtain ⟨lines, runs, hdivided, -, -, hok, -⟩ := tokens?_exact (Text.encode "x\t=\n\n 007\n")
  exact ⟨_, _, lines, runs, rfl, rfl, htokens, hdivided, (hok _ htokens).1⟩

end TokenQueue

end MiniLua

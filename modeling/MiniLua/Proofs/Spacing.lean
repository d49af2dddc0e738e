import MiniLua.Proofs.Spelling

/-!
# Only the words of a text matter

Lines and blanks decide where a token stands and nothing else. A newline is a byte that belongs to
no longer character, so cutting a text into lines and decoding each of them finds the characters of
the whole text, and the words of the lines are the runs of the whole text. Texts with the same runs
have the same tokens up to their places, or the same first word that is none. The reading machine
looks at kinds and lexemes only, so it goes through the same states and ends in the same way.

## Delivered

- `Text.decode_append_ascii`, `Text.words_eq_runs_decode`: the words of a text need no lines.
- `TokenQueue.tokens?_alike`: the tokens of texts with the same words.
- `ParseState.run_alike_of_view`: what tokens are read as, wherever they stand.
- `Program.ofBytes?_alike`: reading texts with the same words.
-/

set_option autoImplicit false

namespace MiniLua

/-! ## Characters around a byte of ASCII -/

namespace Text

/-- A byte of ASCII is no later byte of a longer character. -/
theorem isContinuation_of_ascii {a : UInt8} (ha : a < 0x80) : isContinuation a = false := by
  have hlt : ¬ 0x80 ≤ a := UInt8.not_le.2 ha
  simp [isContinuation, hlt]

/-- A byte of ASCII is not the second byte of one either, whatever the bounds for it are. -/
theorem isSecond_of_ascii {a : UInt8} (ha : a < 0x80) (first : UInt8) :
    isSecond first a = false := by
  have hbounds : ∀ low high : UInt8, 0x80 ≤ low →
      (decide (low ≤ a) && decide (a ≤ high)) = false := by
    intro low high hlow
    have hlt : ¬ low ≤ a := UInt8.not_le.2 (UInt8.lt_of_lt_of_le ha hlow)
    simp [hlt]
  unfold isSecond
  split
  · exact hbounds _ _ (by decide)
  · split
    · exact hbounds _ _ (by decide)
    · split
      · exact hbounds _ _ (by decide)
      · split
        · exact hbounds _ _ (by decide)
        · exact isContinuation_of_ascii ha

/-- The character at the head of a text does not depend on what stands from the next byte of ASCII
on. -/
theorem leading_append_ascii {a : UInt8} (ha : a < 0x80) (b : UInt8) (xs ys : Bytes) :
    leading b (xs ++ a :: ys) = leading b xs := by
  have hlater := isContinuation_of_ascii ha
  have hsecond := isSecond_of_ascii ha
  unfold leading
  -- no character has more than three bytes behind its first, so only these can meet the byte
  rcases xs with _ | ⟨b₁, _ | ⟨b₂, _ | ⟨b₃, xs⟩⟩⟩
  · rcases ys with _ | ⟨y₁, _ | ⟨y₂, ys⟩⟩
    · simp [hlater]
    · simp [hlater, hsecond]
    · simp [hlater, hsecond]
  · rcases ys with _ | ⟨y₁, ys⟩
    · simp [hlater]
    · simp [hlater]
  · simp [hlater]
  · simp

/-- A character takes no more bytes than there are. -/
theorem leading_le_length (b : UInt8) (xs : Bytes) : (leading b xs).2 ≤ xs.length := by
  unfold leading
  repeat' split
  all_goals simp

/-- What was decoded before stands in front of what is decoded now. -/
theorem decodeAcc_eq_append (skip : Nat) (bytes : Bytes) (acc : List Char) :
    decodeAcc skip bytes acc = acc.reverse ++ decodeAcc skip bytes [] := by
  induction bytes generalizing skip acc with
  | nil => simp [decodeAcc]
  | cons b bytes ih =>
    cases skip with
    | zero =>
      rw [decodeAcc, decodeAcc]
      obtain ⟨c, more⟩ := leading b bytes
      show decodeAcc more bytes (c :: acc) = acc.reverse ++ decodeAcc more bytes [c]
      rw [ih more (c :: acc), ih more [c]]
      simp
    | succ skip => exact ih skip acc

/-- Decoding goes through a byte of ASCII as if the text began behind it. -/
theorem decodeAcc_append_ascii {a : UInt8} (ha : a < 0x80) {skip : Nat} {xs : Bytes}
    (h : skip ≤ xs.length) (ys : Bytes) (acc : List Char) :
    decodeAcc skip (xs ++ a :: ys) acc =
      decodeAcc skip xs acc ++ Char.ofNat a.toNat :: decode ys := by
  -- on the bytes before it; a character that has begun is over before it
  induction xs generalizing skip acc with
  | nil =>
    obtain rfl : skip = 0 := Nat.le_zero.1 h
    have hleading : leading a ys = (Char.ofNat a.toNat, 0) := by
      unfold leading
      rw [if_pos ha]
    have hstep : decodeAcc 0 (a :: ys) acc = decodeAcc 0 ys (Char.ofNat a.toNat :: acc) := by
      rw [decodeAcc, hleading]
    rw [List.nil_append, hstep, decodeAcc_eq_append, List.reverse_cons, List.append_assoc,
      List.singleton_append]
    rfl
  | cons x xs ih =>
    cases skip with
    | zero =>
      rw [List.cons_append, decodeAcc, decodeAcc, leading_append_ascii ha]
      exact ih (leading_le_length x xs) _
    | succ skip =>
      rw [List.cons_append, decodeAcc, decodeAcc]
      exact ih (Nat.le_of_succ_le_succ h) acc

/-- The characters of a text are those before a byte of ASCII, the character of that byte, and those
behind it. -/
theorem decode_append_ascii {a : UInt8} (ha : a < 0x80) (xs ys : Bytes) :
    decode (xs ++ a :: ys) = decode xs ++ Char.ofNat a.toNat :: decode ys :=
  decodeAcc_append_ascii ha (Nat.zero_le _) ys []

/-! ## The words of a text -/

/-- A text without the separator is one piece. -/
theorem splitOn_eq_singleton {α : Type} [DecidableEq α] {sep : α} {xs : List α} (hxs : sep ∉ xs) :
    splitOn sep xs = [xs] := by
  induction xs with
  | nil => rfl
  | cons x xs ih =>
    have hx : x ≠ sep := fun h => hxs (h ▸ List.mem_cons_self)
    have htail := ih fun h => hxs (List.mem_cons_of_mem x h)
    unfold splitOn at htail ⊢
    rw [List.foldr_cons, htail]
    simp [hx]

/-- The runs of a text are the runs of the pieces between its newlines. -/
theorem flatMap_runs_splitOn (bytes : Bytes) :
    (splitOn 0x0a bytes).flatMap (fun piece => runs (decode piece)) = runs (decode bytes) := by
  -- on the length, as the text is taken apart at its first newline
  induction hn : bytes.length using Nat.strongRecOn generalizing bytes with
  | ind n ih =>
    by_cases hmem : (0x0a : UInt8) ∈ bytes
    · obtain ⟨xs, ys, rfl, hxs⟩ := List.eq_append_cons_of_mem hmem
      have hlt : ys.length < n := by
        rw [← hn, List.length_append, List.length_cons]
        omega
      rw [splitOn_append_cons hxs, List.flatMap_cons, ih _ hlt ys rfl,
        decode_append_ascii (by decide), runs_append_cons (by decide)]
    · rw [splitOn_eq_singleton hmem, List.flatMap_singleton]

/-- An empty last piece has no runs, so it does not matter that it is no line. -/
theorem flatMap_dropLastEmpty {α β : Type} {f : List α → List β} (hf : f [] = [])
    (pieces : List (List α)) : (dropLastEmpty pieces).flatMap f = pieces.flatMap f := by
  unfold dropLastEmpty
  split
  · rename_i hlast
    obtain ⟨front, rfl⟩ := List.getLast?_eq_some_iff.1 hlast
    rw [List.dropLast_concat, List.flatMap_append, List.flatMap_singleton, hf, List.append_nil]
  · rfl

/-- The words of a text are its maximal runs without a delimiter; lines have no part in them. -/
theorem words_eq_runs_decode (bytes : Bytes) : words bytes = runs (decode bytes) := by
  have hempty : runs (decode []) = [] := runs_nil
  rw [words, lines, flatMap_dropLastEmpty (f := fun piece => runs (decode piece)) hempty,
    flatMap_runs_splitOn]

end Text

/-! ## Tokens -/

namespace TokenQueue

/-- Lexemes with the same characters are the same token at two places, or are no token for one
cause. -/
theorem classify_alike {x y : Nat × Lexeme} (h : x.2.chars = y.2.chars) :
    AlikeResult LexError.failure (fun t u => t.view = u.view) (classify x) (classify y) := by
  obtain ⟨row, lexeme⟩ := x
  obtain ⟨row', lexeme'⟩ := y
  simp only [classify]
  rw [show lexeme.chars = lexeme'.chars from h]
  cases Lexeme.classify lexeme'.chars with
  | error fault => exact .error (.lexical fault.message _ _)
  | ok kind => exact .ok rfl

/-- Lists of lexemes with the same characters have the same tokens, up to their places, or the
first lexeme that is no token is the same. -/
theorem mapM_classify_alike {xs ys : List (Nat × Lexeme)}
    (h : xs.map (fun x => x.2.chars) = ys.map (fun y => y.2.chars)) :
    AlikeResult LexError.failure (fun ts us => ts.map Token.view = us.map Token.view)
      (xs.mapM classify) (ys.mapM classify) := by
  induction xs generalizing ys with
  | nil =>
    cases ys with
    | nil => exact .ok rfl
    | cons y ys => cases h
  | cons x xs ih =>
    cases ys with
    | nil => cases h
    | cons y ys =>
      obtain ⟨hhead, htail⟩ := List.cons.inj h
      have hfirst := classify_alike hhead
      have hrest := ih htail
      rw [List.mapM_cons, List.mapM_cons]
      generalize classify x = r at hfirst ⊢
      generalize classify y = r' at hfirst ⊢
      -- the first lexeme decides before the others are looked at
      cases hfirst with
      | error hmessage => exact .error hmessage
      | ok hview =>
        generalize xs.mapM classify = rs at hrest ⊢
        generalize ys.mapM classify = rs' at hrest ⊢
        cases hrest with
        | error hmessage => exact .error hmessage
        | ok hviews => exact .ok (by rw [List.map_cons, List.map_cons, hview, hviews])

/-- Texts with the same words have the same tokens, up to their places, or the first word that is no
token is the same. -/
theorem tokens?_alike {bytes bytes' : Bytes} (h : Text.words bytes = Text.words bytes') :
    AlikeResult LexError.failure (fun ts us => ts.map Token.view = us.map Token.view)
      (tokens? bytes) (tokens? bytes') := by
  rw [← map_chars_lexemes, ← map_chars_lexemes] at h
  have halike := mapM_classify_alike h
  unfold tokens? ofBytes ofLines
  generalize (lexemes ((Text.lines bytes).map Text.decode)).mapM classify = r at halike ⊢
  generalize (lexemes ((Text.lines bytes').map Text.decode)).mapM classify = r' at halike ⊢
  cases halike with
  | error hmessage => exact .error hmessage
  | ok hviews =>
    -- the end of the stream has one kind and one lexeme, on whatever line it stands
    refine .ok ?_
    rw [List.map_append, List.map_append, hviews]
    rfl

end TokenQueue

/-! ## The reading machine -/

namespace ParseState

/-- Tokens with the same kinds and lexemes are read as one program, or are refused with one
message. -/
theorem run_alike_of_view {ts us : List Token} (h : ts.map Token.view = us.map Token.view)
    (s : ParseState) : AlikeResult SyntaxError.failure Eq (s.run ts).1 (s.run us).1 := by
  -- on the tokens, for every state, since both runs are in one state before each of them
  induction ts generalizing s us with
  | nil =>
    cases us with
    | nil => exact .error (.parse _ _ _)
    | cons u us => cases h
  | cons t ts ih =>
    cases us with
    | nil => cases h
    | cons u us =>
      obtain ⟨hview, hrest⟩ := List.cons.inj h
      obtain ⟨hkind, hlexeme⟩ := Prod.mk.inj hview
      have hstep := step_alike hkind hlexeme s
      rw [run, run]
      generalize s.step t = r at hstep ⊢
      generalize s.step u = r' at hstep ⊢
      cases hstep with
      | error hmessage => exact .error hmessage
      | ok hmove =>
        subst hmove
        rename_i move
        cases move with
        | next s' => exact ih hrest s'
        | accept p => exact .ok rfl

end ParseState

/-! ## Texts -/

/-- A text with a word that is no token is refused there. -/
theorem Program.ofBytes?_of_tokens?_error {bytes : Bytes} {e : LexError}
    (h : TokenQueue.tokens? bytes = .error e) : Program.ofBytes? bytes = .error (.lexical e) := by
  unfold TokenQueue.tokens? at h
  unfold Program.ofBytes?
  cases hq : TokenQueue.ofBytes bytes with
  | error e' =>
    rw [hq] at h
    cases h
    rfl
  | ok q =>
    rw [hq] at h
    cases h

/-- What a text is read as depends on its words. -/
theorem Program.ofBytes?_alike {bytes bytes' : Bytes} (h : Text.words bytes = Text.words bytes') :
    AlikeResult SourceError.failure Eq (Program.ofBytes? bytes) (Program.ofBytes? bytes') := by
  have htokens := TokenQueue.tokens?_alike h
  generalize hr : TokenQueue.tokens? bytes = r at htokens
  generalize hr' : TokenQueue.tokens? bytes' = r' at htokens
  cases htokens with
  | error hmessage =>
    rw [Program.ofBytes?_of_tokens?_error hr, Program.ofBytes?_of_tokens?_error hr']
    exact .error hmessage
  | ok hviews =>
    rw [Program.ofBytes?_eq_run hr, Program.ofBytes?_eq_run hr']
    have hrun := ParseState.run_alike_of_view hviews .start
    generalize (ParseState.run .start _).1 = o at hrun ⊢
    generalize (ParseState.run .start _).1 = o' at hrun ⊢
    cases hrun with
    | error hmessage => exact .error hmessage
    | ok hprogram =>
      rw [hprogram]
      exact .ok rfl

/-- Two texts with the same runs between their delimiters are both read, as one program, or are both
refused, by failures of one kind with one message. Only the places of the failures may differ. -/
theorem Program.ofBytes?_of_runs_eq {bytes bytes' : Bytes}
    (h : Text.runs (Text.decode bytes) = Text.runs (Text.decode bytes')) :
    (∃ p, Program.ofBytes? bytes = .ok p ∧ Program.ofBytes? bytes' = .ok p) ∨
    ∃ e e', Program.ofBytes? bytes = .error e ∧ Program.ofBytes? bytes' = .error e' ∧
      e.failure.SameMessage e'.failure := by
  rw [← Text.words_eq_runs_decode, ← Text.words_eq_runs_decode] at h
  have halike := Program.ofBytes?_alike h
  generalize Program.ofBytes? bytes = r at halike ⊢
  generalize Program.ofBytes? bytes' = r' at halike ⊢
  cases halike with
  | ok hprogram =>
    subst hprogram
    exact .inl ⟨_, rfl, rfl⟩
  | error hmessage => exact .inr ⟨_, _, rfl, rfl, hmessage⟩

/-- A number that is too large, in one line and on lines of its own between other blanks: the message
is the same, and the place is not. -/
theorem Program.ofBytes?_of_runs_eq_broken_lines :
    ∃ text text' : Bytes, text = Text.encode "function f ( ) x = 2147483648 end" ∧
      text' = Text.encode "\tfunction f\r\n(\x0b)\n\n  x\x0c= 2147483648\r\nend\n" ∧
      Text.runs (Text.decode text) = Text.runs (Text.decode text') ∧
      (∃ e, Program.ofBytes? text = .error e ∧
        e.failure = .parse "literal integer out of range" { line := 1, column := 20 }) ∧
      ∃ e' place, Program.ofBytes? text' = .error e' ∧
        e'.failure = .parse "literal integer out of range" place := by
  have htokens : TokenQueue.tokens? (Text.encode "function f ( ) x = 2147483648 end") = .ok
      [⟨.functionWord, "function", 1, 1⟩, ⟨.identifier, "f", 1, 10⟩, ⟨.leftParen, "(", 1, 12⟩,
        ⟨.rightParen, ")", 1, 14⟩, ⟨.identifier, "x", 1, 16⟩, ⟨.assign, "=", 1, 18⟩,
        ⟨.integer, "2147483648", 1, 20⟩, ⟨.endWord, "end", 1, 31⟩, ⟨.endOfStream, "EOS", 1, 1⟩] :=
    TokenQueue.eq_ok_of_toOption (by decide +kernel)
  have herror : Program.ofBytes? (Text.encode "function f ( ) x = 2147483648 end") =
      .error (.syntactic (.refused .smallLiteral ⟨.integer, "2147483648", 1, 20⟩)) := by
    rw [Program.ofBytes?_eq_run htokens]
    rfl
  have hruns : Text.runs (Text.decode (Text.encode "function f ( ) x = 2147483648 end")) =
      Text.runs (Text.decode
        (Text.encode "\tfunction f\r\n(\x0b)\n\n  x\x0c= 2147483648\r\nend\n")) := by
    decide +kernel
  refine ⟨_, _, rfl, rfl, hruns, ⟨_, herror, rfl⟩, ?_⟩
  rcases Program.ofBytes?_of_runs_eq hruns with ⟨p, hp, -⟩ | ⟨e, e', he, he', hmessage⟩
  · rw [herror] at hp
    cases hp
  · rw [herror] at he
    cases he
    generalize hfailure : e'.failure = failure at hmessage
    cases hmessage with
    | parse message place place' => exact ⟨e', place', he', hfailure⟩

end MiniLua

import MiniLua.Proofs.Descent
import MiniLua.Proofs.Positions
import MiniLua.Proofs.Spacing

/-!
# Defects of program texts

A text that is no program has a defect at a place: a lexeme that is no token, or a token that the
grammar does not allow there. The descent with all its checks, over tokens that are checked one by
one, has many more ways to fail, and none of them is taken: its tokens do not run out, every number
that it takes is spelled by digits, every statement that it begins is one, and no constructor refuses
what it is given.

## Delivered

- `Kind.required`, `SyntaxError.messages`, `LexError.messages`: what can be wrong.
- `Failure.IsDefect`: a failure that is a defect of a text, with its place.
- `Program.descend?_eq`: the descent and the machine read the same programs and fail alike.
- `Program.descend?_error_isDefect`: the only failures of the descent are defects of the text.
-/

set_option autoImplicit false

namespace MiniLua

/-! ## What can be wrong -/

/-- The messages of lexemes that are no tokens. -/
def LexError.messages : List String :=
  ["literal integer expected", "invalid lexeme"]

/-- The kinds that the grammar asks for by name. -/
def Kind.required : List Kind :=
  [.functionWord, .identifier, .leftParen, .rightParen, .assign, .thenWord, .elseWord, .endWord,
    .doWord, .untilWord]

/-- The messages of tokens that the grammar does not allow. -/
def SyntaxError.messages : List String :=
  (Kind.required.map fun k => k.name ++ " expected") ++
    ["arithmetic operator expected", "relational operator expected", "literal integer out of range",
      "garbage at end of file"]

/-- The failure is a defect of the text at the line and the column: of a lexeme that stands there, or
of the end of the text, which stands at the start of the last line. -/
inductive Failure.IsDefect (bytes : Bytes) (line column : Nat) : Failure → Prop
  | lexical {message : String} {run : List Char} (hmessage : message ∈ LexError.messages)
      (hrun : Text.RunAt ((Text.lines bytes).map Text.decode) run line column) :
      IsDefect bytes line column (.lexical message { line := line, column := column })
  | lexeme {message : String} {run : List Char} (hmessage : message ∈ SyntaxError.messages)
      (hrun : Text.RunAt ((Text.lines bytes).map Text.decode) run line column) :
      IsDefect bytes line column (.parse message { line := line, column := column })
  | ending {message : String} (hmessage : message ∈ SyntaxError.messages)
      (hline : line = max 1 (Text.lines bytes).length) (hcolumn : column = 1) :
      IsDefect bytes line column (.parse message { line := line, column := column })

/-- A defect stands in one of the lines of the text. -/
theorem Failure.IsDefect.bounds {bytes : Bytes} {line column : Nat} {f : Failure}
    (h : IsDefect bytes line column f) :
    1 ≤ line ∧ line ≤ max 1 (Text.lines bytes).length ∧ 1 ≤ column := by
  cases h with
  | lexical hmessage hrun | lexeme hmessage hrun =>
    have hline := hrun.line_le
    rw [List.length_map] at hline
    exact ⟨hrun.one_le_line, Nat.le_trans hline (Nat.le_max_right 1 _), hrun.one_le_column⟩
  | ending hmessage hline hcolumn => omega

/-! ## Refused lexemes -/

namespace TokenQueue

/-- A refused lexeme is a defect of the text. -/
theorem isDefect_of_tokens?_error {bytes : Bytes} {e : LexError} (h : tokens? bytes = .error e) :
    e.failure.IsDefect bytes e.line e.column := by
  unfold tokens? ofBytes ofLines at h
  cases htokens : (lexemes ((Text.lines bytes).map Text.decode)).mapM classify with
  | ok ts =>
    rw [htokens] at h
    cases h
  | error e' =>
    rw [htokens] at h
    cases h
    obtain ⟨before, ⟨row, lexeme⟩, after, hsplit, -, hclassify⟩ := exists_first_of_mapM_error htokens
    have hrun : Text.RunAt ((Text.lines bytes).map Text.decode) lexeme.chars row lexeme.column :=
      runAt_of_mem_lexemes (hsplit ▸ List.mem_append_right before List.mem_cons_self)
    simp only [classify] at hclassify
    split at hclassify
    · cases hclassify
    · rename_i fault hfault
      cases hclassify
      have hmessage : fault.message ∈ LexError.messages := by cases fault <;> decide
      exact .lexical hmessage hrun

/-- A token of a text is a lexeme that stands where the token says, or the end of the text. -/
theorem runAt_or_eq_endToken {bytes : Bytes} {ts : List Token} (h : tokens? bytes = .ok ts)
    {t : Token} (ht : t ∈ ts) :
    (t.IsClassified ∧ Text.RunAt ((Text.lines bytes).map Text.decode) t.lexeme.toList t.line t.column) ∨
      t = endToken (Text.lines bytes).length := by
  unfold tokens? ofBytes ofLines at h
  cases htokens : (lexemes ((Text.lines bytes).map Text.decode)).mapM classify with
  | error e =>
    rw [htokens] at h
    cases h
  | ok us =>
    rw [htokens] at h
    cases h
    rcases List.mem_append.1 ht with hu | hlast
    · left
      have hok : Except.ok t ∈ (lexemes ((Text.lines bytes).map Text.decode)).map classify := by
        rw [map_eq_of_mapM htokens]
        exact List.mem_map_of_mem hu
      obtain ⟨x, hx, hclassify⟩ := List.mem_map.1 hok
      obtain ⟨hclass, hchars, hline, hcolumn⟩ := classify_eq_ok_iff.1 hclassify
      rw [hchars, hline, hcolumn]
      exact ⟨hclass, runAt_of_mem_lexemes hx⟩
    · right
      rw [List.length_map] at hlast
      exact List.mem_singleton.1 hlast

end TokenQueue

/-! ## Refused tokens -/

namespace ParseState

theorem terminator_mem_required (spine : Spine) : terminator spine ∈ Kind.required := by
  cases spine with
  | body name done => simp [terminator, Kind.required]
  | inner owner done outer => cases owner <;> simp [terminator, Kind.required]

theorem message_mem_of_expect {k : Kind} {t : Token} {s : ParseState} {x : Expectation}
    (hk : k ∈ Kind.required) (h : expect k t s = .error (.refused x t)) :
    x.message ∈ SyntaxError.messages := by
  unfold expect at h
  split at h
  · cases h
  · cases h
    exact List.mem_append_left _ (List.mem_map_of_mem hk)

/-- A token between statements is refused when it does not close the innermost block. -/
theorem message_mem_of_stepBoundary {spine : Spine} {t : Token} {x : Expectation}
    (h : stepBoundary spine t = .error (.refused x t)) : x.message ∈ SyntaxError.messages := by
  unfold stepBoundary at h
  split at h
  case h_6 => exact message_mem_of_expect (terminator_mem_required spine) h
  all_goals cases h

/-- A token at the start of an expression is refused when it is no operator or too large a number. A
number has a value, since its lexeme is one. -/
theorem message_mem_of_stepOperand {holes : List Hole} {goal : Goal} {spine : Spine} {t : Token}
    {x : Expectation} (ht : t.kind = .integer → t.IsClassified)
    (h : stepOperand holes goal spine t = .error (.refused x t)) :
    x.message ∈ SyntaxError.messages := by
  unfold stepOperand at h
  split at h
  · cases h
  -- a number without a value would be refused as no number at all
  · rename_i hk
    obtain ⟨n, hn⟩ := (ht hk).exists_natural? hk
    rw [Token.literal?, hn] at h
    by_cases hle : n ≤ maxLiteral
    · simp only [if_pos hle] at h
      cases h
    · simp only [if_neg hle] at h
      cases h
      decide
  · split at h
    · cases h
    · cases h
      decide

/-- What a refused token is asked for is one of a few things. -/
theorem message_mem_of_step {s : ParseState} {t : Token} {x : Expectation}
    (ht : t.kind = .integer → t.IsClassified) (h : s.step t = .error (.refused x t)) :
    x.message ∈ SyntaxError.messages := by
  -- three states look at the token themselves, and all others ask for one kind
  cases s with
  | boundary spine => exact message_mem_of_stepBoundary h
  | operand holes goal spine => exact message_mem_of_stepOperand ht h
  | relation use spine =>
    rw [step] at h
    split at h
    · cases h
    · cases h
      decide
  | finish program =>
    rw [step] at h
    split at h
    · cases h
    · cases h
      decide
  | _ => exact message_mem_of_expect (by decide) h

end ParseState

/-- A refused token is a defect of the text. -/
theorem Program.isDefect_of_run {bytes : Bytes} {ts : List Token}
    (h : TokenQueue.tokens? bytes = .ok ts) {x : Expectation} {t : Token}
    (hrun : (ParseState.run .start ts).1 = .error (.refused x t)) :
    (SyntaxError.refused x t).failure.IsDefect bytes t.line t.column := by
  rcases ParseState.run_cases .start ts with ⟨s, -, hend⟩ | ⟨us, u, rest, s, y, rfl, -, hstep, hend⟩ |
    ⟨us, u, rest, p, -, -, -, hend⟩
  · rw [hend] at hrun
    cases hrun
  · rw [hend] at hrun
    cases hrun
    -- the refused token is one of the text: a lexeme of it, or the end of the stream
    have hmem : t ∈ us ++ t :: rest := List.mem_append_right us List.mem_cons_self
    rcases TokenQueue.runAt_or_eq_endToken h hmem with ⟨hclass, hplace⟩ | rfl
    · exact .lexeme (ParseState.message_mem_of_step (fun _ => hclass) hstep) hplace
    · have hmessage := ParseState.message_mem_of_step (fun hk => by cases hk) hstep
      exact .ending hmessage rfl rfl
  · rw [hend] at hrun
    cases hrun

/-! ## The descent -/

/-- The descent with all its checks gives the program that the machine gives, and fails where the
machine fails. -/
theorem Program.descend?_eq (bytes : Bytes) :
    descend? bytes = (ofBytes? bytes).mapError SourceError.failure := by
  unfold descend?
  rw [TokenQueue.checked?_eq]
  cases htokens : TokenQueue.tokens? bytes with
  | error e =>
    rw [ofBytes?_of_tokens?_error htokens]
    rfl
  | ok all =>
    obtain ⟨ts, lines, rfl, hclass, -⟩ := TokenQueue.tokens?_spec htokens
    have houtcome := (TokenStream.of_classified hclass lines).outcome_program
    rw [ofBytes?_eq_run htokens]
    change (Descent.outcome (Descent.program _)).1 = _
    rw [houtcome]
    cases (ParseState.run .start (ts ++ [TokenQueue.endToken lines])).1 with
    | ok p => rfl
    | error e => rfl

/-- A text that is no program has a defect. -/
theorem Program.exists_isDefect_of_error {bytes : Bytes} {e : SourceError}
    (h : ofBytes? bytes = .error e) : ∃ line column, e.failure.IsDefect bytes line column := by
  cases htokens : TokenQueue.tokens? bytes with
  | error cause =>
    rw [ofBytes?_of_tokens?_error htokens] at h
    cases h
    exact ⟨_, _, TokenQueue.isDefect_of_tokens?_error htokens⟩
  | ok all =>
    obtain ⟨ts, lines, rfl, hclass, -⟩ := TokenQueue.tokens?_spec htokens
    have hanswer := Descent.program_answers (TokenStream.of_classified hclass lines)
    rw [ofBytes?_eq_run htokens] at h
    generalize Descent.program _ = r at hanswer
    cases hanswer with
    | ok hrun =>
      rw [hrun] at h
      cases h
    | error hrun =>
      rw [hrun] at h
      cases h
      exact ⟨_, _, Program.isDefect_of_run htokens (congrArg Prod.fst hrun)⟩

/-- The descent with all its checks reads the programs that the machine reads and fails as the machine
fails, and each of its failures is a defect of the text: it has one of a few messages and stands where
a lexeme of the text or its end stands. -/
theorem Program.descend?_error_isDefect (bytes : Bytes) :
    descend? bytes = (ofBytes? bytes).mapError SourceError.failure ∧
    ∀ f, descend? bytes = .error f → ∃ line column, f.IsDefect bytes line column ∧
      1 ≤ line ∧ line ≤ max 1 (Text.lines bytes).length ∧ 1 ≤ column := by
  refine ⟨descend?_eq bytes, ?_⟩
  intro f hf
  rw [descend?_eq] at hf
  cases hread : ofBytes? bytes with
  | ok p =>
    rw [hread] at hf
    cases hf
  | error e =>
    rw [hread] at hf
    cases hf
    obtain ⟨line, column, hdefect⟩ := exists_isDefect_of_error hread
    exact ⟨line, column, hdefect, hdefect.bounds⟩

/-- A loop that is never closed is a defect of the end of the text. -/
theorem Program.descend?_open_loop :
    ∃ bytes f, bytes = Text.encode "function f ( )\n  while < x 3 do" ∧
      f = Failure.parse "end expected" { line := 2, column := 1 } ∧
      descend? bytes = .error f ∧ ∃ line column, f.IsDefect bytes line column ∧
        1 ≤ line ∧ line ≤ max 1 (Text.lines bytes).length ∧ 1 ≤ column := by
  have htokens : TokenQueue.tokens? (Text.encode "function f ( )\n  while < x 3 do") = .ok
      [⟨.functionWord, "function", 1, 1⟩, ⟨.identifier, "f", 1, 10⟩, ⟨.leftParen, "(", 1, 12⟩,
        ⟨.rightParen, ")", 1, 14⟩, ⟨.whileWord, "while", 2, 3⟩, ⟨.less, "<", 2, 9⟩,
        ⟨.identifier, "x", 2, 11⟩, ⟨.integer, "3", 2, 13⟩, ⟨.doWord, "do", 2, 15⟩,
        ⟨.endOfStream, "EOS", 2, 1⟩] :=
    TokenQueue.eq_ok_of_toOption (by decide +kernel)
  obtain ⟨heq, hdefect⟩ := descend?_error_isDefect (Text.encode "function f ( )\n  while < x 3 do")
  rw [ofBytes?_eq_run htokens] at heq
  exact ⟨_, _, rfl, rfl, heq, hdefect _ heq⟩

end MiniLua

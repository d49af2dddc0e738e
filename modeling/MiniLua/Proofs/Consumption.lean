import MiniLua.Proofs.Descent
import MiniLua.Proofs.Positions

/-!
# What reading a program takes from a queue

A queue is filled from a text once and then only loses tokens at its front: one token to a request,
and those that it judged to an attempt to read a program. Whatever calls came before, the tokens left
are therefore the last ones of a text, with the end of the stream behind them, or there are none. On
such a queue an attempt ends with the end of the stream, or with the first token that it refuses, or
was made in vain on an empty queue.

## Delivered

- `TokenQueue.Reachable`: the queues that calls lead to.
- `TokenQueue.after_suffix`: what one call leaves.
- `TokenQueue.IsRest`, `TokenQueue.Reachable.isRest`: what any number of calls leave.
- `TokenQueue.StopsAt`: a token is refused, and all tokens behind it stay.
- `TokenQueue.judges_exactly`: what an attempt takes from a queue that calls led to.
-/

set_option autoImplicit false

namespace MiniLua

/-! ## Calls -/

/-- A call to a queue. -/
inductive QueueCall where
  | peek
  | next
  | parse

namespace TokenQueue

/-- The queue after a call. To look at the front token changes nothing, and a request to an empty
queue neither. -/
def after (q : TokenQueue) : QueueCall → TokenQueue
  | .peek => q
  | .next =>
    match q.next? with
    | none => q
    | some (_, rest) => rest
  | .parse => q.parse.2

/-- The queues that are filled from a text, and those that calls make of them. -/
inductive Reachable : TokenQueue → Prop
  | ofLines {lines : List (List Char)} {q : TokenQueue} (h : ofLines lines = .ok q) : Reachable q
  | ofBytes {bytes : Bytes} {q : TokenQueue} (h : ofBytes bytes = .ok q) : Reachable q
  | ofReader {reader : Reader} {q : TokenQueue} (h : ofReader reader = .ok q) : Reachable q
  | call {q : TokenQueue} (h : Reachable q) (c : QueueCall) : Reachable (q.after c)

end TokenQueue

/-- A run leaves the tokens behind the last one that it took. -/
theorem ParseState.run_suffix (s : ParseState) (ts : List Token) : (ParseState.run s ts).2 <:+ ts := by
  rcases ParseState.run_cases s ts with ⟨s', -, hrun⟩ | ⟨us, t, rest, s', x, rfl, -, -, hrun⟩ |
    ⟨us, t, rest, p, rfl, -, -, hrun⟩
  · rw [hrun]
    exact List.nil_suffix
  · rw [hrun]
    exact (List.suffix_cons t rest).trans (List.suffix_append us _)
  · rw [hrun]
    exact (List.suffix_cons t rest).trans (List.suffix_append us _)

/-- A call takes tokens from the front only. -/
theorem TokenQueue.after_suffix (q : TokenQueue) (c : QueueCall) :
    (q.after c).tokens <:+ q.tokens := by
  cases c with
  | peek => exact List.suffix_rfl
  | next =>
    obtain ⟨tokens, lines⟩ := q
    cases tokens with
    | nil => exact List.suffix_rfl
    | cons t rest => exact List.suffix_cons t rest
  | parse => exact ParseState.run_suffix .start q.tokens

/-! ## What is left of a text -/

/-- The last tokens of a stream are a stream, if there are any. -/
theorem TokenStream.eq_nil_or_of_suffix {ts us : List Token} (h : TokenStream ts) (hus : us <:+ ts) :
    us = [] ∨ TokenStream us := by
  induction h with
  | last lines =>
    rcases List.suffix_cons_iff.1 hus with rfl | hnil
    · exact .inr (.last lines)
    · exact .inl (List.suffix_nil.1 hnil)
  | cons ht hts ih =>
    rcases List.suffix_cons_iff.1 hus with rfl | hrest
    · exact .inr (.cons ht hts)
    · exact ih hrest

namespace TokenQueue

/-- The tokens are what is left of a text: a stream or nothing, and each has its place. -/
structure IsRest (q : TokenQueue) : Prop where
  stream : q.tokens = [] ∨ TokenStream q.tokens
  placed : ∀ t ∈ q.tokens, 1 ≤ t.line ∧ 1 ≤ t.column

theorem IsRest.of_suffix {q r : TokenQueue} (h : q.IsRest) (hr : r.tokens <:+ q.tokens) :
    r.IsRest := by
  constructor
  · rcases h.stream with hnil | hstream
    · rw [hnil] at hr
      exact .inl (List.suffix_nil.1 hr)
    · exact hstream.eq_nil_or_of_suffix hr
  · intro t ht
    exact h.placed t (hr.subset ht)

/-- A text fills a queue with a stream. -/
theorem isRest_of_ofLines {lines : List (List Char)} {q : TokenQueue} (h : ofLines lines = .ok q) :
    q.IsRest := by
  unfold ofLines at h
  cases hts : (lexemes lines).mapM classify with
  | error e =>
    rw [hts] at h
    cases h
  | ok ts =>
    rw [hts] at h
    cases h
    obtain ⟨hclass, horigins⟩ := origin_of_map_classify (map_eq_of_mapM hts)
    constructor
    · exact .inr (.of_classified hclass lines.length)
    · intro t ht
      rcases List.mem_append.1 ht with hmem | hlast
      · have horigin : t.origin ∈ lexemes lines := by
          rw [← horigins]
          exact List.mem_map_of_mem hmem
        have hrun := runAt_of_mem_lexemes horigin
        exact ⟨hrun.one_le_line, hrun.one_le_column⟩
      · obtain rfl := List.mem_singleton.1 hlast
        exact ⟨Nat.le_max_left 1 _, Nat.le_refl 1⟩

/-- Other words for the errors change no result. -/
theorem eq_ok_of_mapError {ε δ α : Type} {f : ε → δ} {x : Except ε α} {a : α}
    (h : x.mapError f = .ok a) : x = .ok a := by
  cases x with
  | error e => cases h
  | ok b =>
    cases h
    rfl

/-- A reader fills a queue with the tokens of its lines. -/
theorem exists_lines_of_ofReader {reader : Reader} {q : TokenQueue} (h : ofReader reader = .ok q) :
    ∃ lines, ofLines lines = .ok q := by
  simp only [ofReader] at h
  split at h
  · cases h
  · split at h
    · cases h
    · exact ⟨_, eq_ok_of_mapError h⟩

/-- Whatever calls were made, the tokens are what is left of a text. -/
theorem Reachable.isRest {q : TokenQueue} (h : q.Reachable) : q.IsRest := by
  induction h with
  | ofLines h => exact isRest_of_ofLines h
  | ofBytes h => exact isRest_of_ofLines h
  | ofReader h =>
    obtain ⟨lines, hlines⟩ := exists_lines_of_ofReader h
    exact isRest_of_ofLines hlines
  | call _ c ih => exact ih.of_suffix (after_suffix _ c)

/-! ## One attempt -/

/-- Reading a program from the queue fails at the token. The token is in the queue and has a place,
the failure names that place, and the tokens behind it stay. The tokens before it were not enough for
an answer, and those behind it had no part in it. -/
structure StopsAt (q : TokenQueue) (x : Expectation) (before : List Token) (t : Token)
    (behind : List Token) : Prop where
  split : q.tokens = before ++ t :: behind
  placed : 1 ≤ t.line ∧ 1 ≤ t.column
  leaves : q.parse = (.error (.refused x t), { q with tokens := behind })
  names : (SyntaxError.refused x t).failure = .parse x.message { line := t.line, column := t.column }
  undecided : ({ q with tokens := before } : TokenQueue).parse.1 = .error .noMoreTokens
  unaware : ∀ others, ({ q with tokens := before ++ t :: others } : TokenQueue).parse =
    (.error (.refused x t), { q with tokens := others })

/-- An attempt answers as the rules of the grammar do, read one inside the other, and leaves the tokens
that they leave. It takes all tokens of a queue for a program, and for a failure those up to the token
that it names. Only an empty queue gives a failure without a place. -/
structure JudgesExactly (q : TokenQueue) : Prop where
  answers : Descent.outcome (Descent.program q.tokens) =
    (q.parse.1.mapError SyntaxError.failure, q.parse.2.tokens)
  takes : q.tokens ≠ [] → (∃ p, q.parse = (.ok p, { q with tokens := [] })) ∨
    ∃ x before t behind, q.StopsAt x before t behind
  unplaced : (∃ e, q.parse.1 = .error e ∧ e.failure = .parse "no more tokens" {}) ↔ q.tokens = []
  stays : q.tokens = [] → q.parse.2 = q

end TokenQueue

namespace TokenStream

variable {ts : List Token}

/-- A stream has an end. -/
theorem exists_endOfStream (h : TokenStream ts) : ∃ t ∈ ts, t.kind = .endOfStream := by
  induction h with
  | last lines => exact ⟨_, List.mem_singleton_self _, rfl⟩
  | cons _ _ ih =>
    obtain ⟨t, ht, hk⟩ := ih
    exact ⟨t, List.mem_cons_of_mem _ ht, hk⟩

/-- Nothing is behind the end of a stream. -/
theorem eq_nil_of_endOfStream {before behind : List Token} {t : Token}
    (h : TokenStream (before ++ t :: behind)) (ht : t.kind = .endOfStream) : behind = [] := by
  generalize hts : before ++ t :: behind = ts at h
  induction h generalizing before with
  | last lines =>
    cases before with
    | nil => exact (List.cons.inj hts).2
    | cons u before => simp at hts
  | cons hclass _ ih =>
    cases before with
    | nil =>
      obtain ⟨rfl, -⟩ := List.cons.inj hts
      exact absurd ht hclass.kind_ne_endOfStream
    | cons u before => exact ih (List.cons.inj hts).2

end TokenStream

namespace TokenQueue

variable {q : TokenQueue}

/-- A refused token stops an attempt, wherever it stands. -/
theorem stopsAt_of_advances {x : Expectation} {before behind : List Token} {t : Token}
    {s : ParseState} (hsplit : q.tokens = before ++ t :: behind)
    (hplaced : 1 ≤ t.line ∧ 1 ≤ t.column) (hadv : ParseState.Advances .start before s)
    (hstep : ParseState.step s t = .error (.refused x t)) : q.StopsAt x before t behind := by
  have hrun : ∀ others, ParseState.run .start (before ++ t :: others) =
      (.error (.refused x t), others) := by
    intro others
    rw [hadv.run_append, ParseState.run, hstep]
  have hbefore : ParseState.run .start before = (.error .noMoreTokens, []) := by
    have hnil := hadv.run_append []
    rwa [List.append_nil, ParseState.run] at hnil
  refine ⟨hsplit, hplaced, ?_, rfl, ?_, ?_⟩
  · simp only [parse, hsplit, hrun]
  · simp only [parse, hbefore]
  · intro others
    simp only [parse, hrun]

/-- On a stream an attempt succeeds and takes all tokens, or fails at one of them. -/
theorem takes_of_stream (hstream : TokenStream q.tokens)
    (hplaced : ∀ t ∈ q.tokens, 1 ≤ t.line ∧ 1 ≤ t.column) :
    (∃ p, q.parse = (.ok p, { q with tokens := [] })) ∨
      ∃ x before t behind, q.StopsAt x before t behind := by
  rcases ParseState.run_cases .start q.tokens with ⟨s, hadv, -⟩ |
    ⟨before, t, behind, s, x, hsplit, hadv, hstep, -⟩ | ⟨before, t, behind, p, hsplit, -, hk, hrun⟩
  -- an attempt does not get past the end of the stream
  · obtain ⟨t, ht, hk⟩ := hstream.exists_endOfStream
    exact absurd hk (hadv.kind_ne_endOfStream t ht)
  · have ht : t ∈ q.tokens := by simp [hsplit]
    exact .inr ⟨x, before, t, behind, stopsAt_of_advances hsplit (hplaced t ht) hadv hstep⟩
  · rw [hsplit] at hstream
    obtain rfl := hstream.eq_nil_of_endOfStream hk
    exact .inl ⟨p, by simp only [parse, hrun]⟩

/-- The failure at a token has a place. -/
theorem StopsAt.failure_ne {x : Expectation} {before behind : List Token} {t : Token}
    (h : q.StopsAt x before t behind) (message : String) :
    (SyntaxError.refused x t).failure ≠ .parse message {} := by
  intro heq
  rw [h.names] at heq
  injection heq with _ hplace
  have hline : (t.line : Int) = 0 := congrArg Location.line hplace
  have hpos := h.placed.1
  omega

/-- A queue that calls led to: reading a program from it ends, takes all tokens for a program and
those up to the refused one for a failure, and fails without a place on an empty queue only. -/
theorem judges_exactly (h : q.Reachable) : q.JudgesExactly := by
  have hrest := h.isRest
  rcases hrest.stream with hnil | hstream
  · obtain ⟨tokens, lines⟩ := q
    cases hnil
    refine ⟨rfl, fun hne => absurd rfl hne, ?_, fun _ => rfl⟩
    exact iff_of_true ⟨.noMoreTokens, rfl, rfl⟩ rfl
  · have htakes := takes_of_stream hstream hrest.placed
    have hne : q.tokens ≠ [] := by
      obtain ⟨t, ht, -⟩ := hstream.exists_endOfStream
      exact List.ne_nil_of_mem ht
    refine ⟨hstream.outcome_program, fun _ => htakes, ?_, fun hnil => absurd hnil hne⟩
    apply iff_of_false _ hne
    rintro ⟨e, herror, hfailure⟩
    rcases htakes with ⟨p, hparse⟩ | ⟨x, before, t, behind, hstops⟩
    · rw [hparse] at herror
      cases herror
    · rw [hstops.leaves] at herror
      cases herror
      exact hstops.failure_ne _ hfailure

/-- An attempt fails at a stray name and leaves its sign in front. Without the sign, the next attempt
fails at a literal in place of a statement. -/
theorem judges_exactly_stray_assignment :
    ∃ start, ofBytes (Text.encode "x = function f ( ) 1 end") = .ok start ∧
      ((start.after .parse).after .next).Reachable ∧
      ((start.after .parse).after .next).tokens =
        [⟨.functionWord, "function", 1, 5⟩, ⟨.identifier, "f", 1, 14⟩, ⟨.leftParen, "(", 1, 16⟩,
          ⟨.rightParen, ")", 1, 18⟩, ⟨.integer, "1", 1, 20⟩, ⟨.endWord, "end", 1, 22⟩,
          ⟨.endOfStream, "EOS", 1, 1⟩] ∧
      ((start.after .parse).after .next).JudgesExactly := by
  have hstart : ofBytes (Text.encode "x = function f ( ) 1 end") = .ok
      ⟨[⟨.identifier, "x", 1, 1⟩, ⟨.assign, "=", 1, 3⟩, ⟨.functionWord, "function", 1, 5⟩,
        ⟨.identifier, "f", 1, 14⟩, ⟨.leftParen, "(", 1, 16⟩, ⟨.rightParen, ")", 1, 18⟩,
        ⟨.integer, "1", 1, 20⟩, ⟨.endWord, "end", 1, 22⟩, ⟨.endOfStream, "EOS", 1, 1⟩], 1⟩ :=
    eq_ok_of_toOption (by decide +kernel)
  have hreach := ((Reachable.ofBytes hstart).call .parse).call .next
  exact ⟨_, hstart, hreach, rfl, judges_exactly hreach⟩

end TokenQueue
end MiniLua

import MiniLua.Proofs.Derivation

/-!
# Where reading stops

A refused text is refused at the first token after which no program can follow. Every state of the
machine can be brought to the end of a program: operands that are missing are written as zeros, and
open blocks are closed from the innermost outwards. So the tokens before the refused one can be
completed. With the refused token they cannot, since a run never goes past a refusal.

## Delivered

- `Completable`: some continuation of the tokens is read as a program.
- `ParseState.CanFinish`: the tokens of some text bring the state to the end of a program.
- `ParseState.canFinish`: every state can be brought there.
- `completable_iff_advances`, `completable_iff_viable`: completable tokens are those over which the
  machine advances, and those that the grammar can continue.
-/

set_option autoImplicit false

namespace MiniLua

open ParseState

/-- Some continuation by classified tokens, with the end of the stream behind it, is read as a
program. -/
def Completable (ts : List Token) : Prop :=
  ∃ (rest : List Token) (lines : Nat) (p : Program), (∀ t ∈ rest, t.IsClassified) ∧
    (TokenQueue.parse ⟨ts ++ rest ++ [TokenQueue.endToken lines], lines⟩).1 = .ok p

/-! ## Every state can be finished -/

namespace ParseState

/-- Classified tokens bring the state to the end of a program. -/
def CanFinish (s : ParseState) : Prop :=
  ∃ ts p, (∀ t ∈ ts, t.IsClassified) ∧ Advances s ts (.finish p)

/-- The token of the literal zero. -/
def zeroToken : Token :=
  ⟨.integer, "0", 1, 1⟩

/-- The token of a name. -/
def nameToken : Token :=
  ⟨.identifier, "f", 1, 1⟩

/-- A state can be finished when a classified token moves it to one that can. -/
theorem CanFinish.of_step {s s' : ParseState} {t : Token} (h : CanFinish s')
    (ht : t.IsClassified) (hstep : s.step t = .ok (.next s')) : CanFinish s := by
  obtain ⟨ts, p, hts, hadv⟩ := h
  exact ⟨t :: ts, p, List.forall_mem_cons.2 ⟨ht, hts⟩, .head hstep hadv⟩

/-- A state that expects a keyword or a symbol can be finished when the state after it can. -/
theorem CanFinish.of_expect {s s' : ParseState} {k : Kind} (h : CanFinish s')
    (hk : k ∈ Kind.keywords ++ Kind.symbols)
    (hstep : ∀ t, s.step t = expect k t s') : CanFinish s := by
  refine h.of_step (t := k.token) (Kind.isClassified_token hk) ?_
  rw [hstep]
  exact expect_eq_next_iff.2 ⟨rfl, rfl⟩

/-- The end of a program is reached already. -/
theorem canFinish_finish (p : Program) : CanFinish (.finish p) :=
  ⟨[], p, by simp, .refl _⟩

/-- A boundary can be finished when closing the innermost block leads to a state that can. -/
theorem canFinish_of_close {spine : Spine} (h : CanFinish (close spine)) :
    CanFinish (.boundary spine) := by
  have hmem : terminator spine ∈ Kind.keywords ++ Kind.symbols :=
    List.mem_append_left _ (terminator_mem_keywords spine)
  exact h.of_step (t := (terminator spine).token) (Kind.isClassified_token hmem)
    (step_terminator rfl)

/-- A zero stands in for a missing operand. -/
theorem step_zeroToken (holes : List Hole) (goal : Goal) (spine : Spine) :
    step (.operand holes goal spine) zeroToken =
      .ok (.next (supply (.lit 0) holes goal spine)) := by
  rfl

/-- A comparison of zeros stands in for a missing condition. -/
theorem canFinish_relation {use : CondUse} {spine : Spine}
    (h : ∀ cond, CanFinish (useCond use cond spine)) : CanFinish (.relation use spine) := by
  have hright : CanFinish (.operand [] (.compareRight use .eq (.lit 0)) spine) :=
    (h _).of_step (t := zeroToken) rfl (step_zeroToken _ _ _)
  have hleft : CanFinish (.operand [] (.compareLeft use .eq) spine) :=
    hright.of_step (t := zeroToken) rfl (step_zeroToken _ _ _)
  exact hleft.of_step (t := Kind.equal.token) rfl rfl

/-- An inner block can be finished when its statement can be added to the block around it. -/
theorem canFinish_inner {outer : Spine} (h : ∀ s, CanFinish (.boundary (outer.push s)))
    (owner : Owner) (done : List Stmt) : CanFinish (.boundary (.inner owner done outer)) := by
  cases owner with
  -- closing the first block of a branch opens the second, which is closed at once
  | onTrue cond => exact canFinish_of_close (canFinish_of_close (h _))
  | onFalse cond onTrue => exact canFinish_of_close (h _)
  | loopWhile cond => exact canFinish_of_close (h _)
  | loopUntil => exact canFinish_of_close (canFinish_relation fun cond => h _)

/-- A boundary behind a statement can be finished. The blocks are closed from the innermost
outwards, and each becomes a statement of the next. -/
theorem canFinish_push (spine : Spine) (s : Stmt) : CanFinish (.boundary (spine.push s)) := by
  induction spine generalizing s with
  | body name done => exact canFinish_of_close (canFinish_finish _)
  | inner owner done outer ih => exact canFinish_inner ih owner (s :: done)

/-- Every boundary can be finished. -/
theorem canFinish_boundary (spine : Spine) : CanFinish (.boundary spine) := by
  cases spine with
  | body name done => exact canFinish_of_close (canFinish_finish _)
  | inner owner done outer => exact canFinish_inner (canFinish_push outer) owner done

theorem canFinish_thenWord (cond : Cond) (spine : Spine) : CanFinish (.thenWord cond spine) :=
  (canFinish_boundary _).of_expect (by decide) fun _ => rfl

theorem canFinish_doWord (cond : Cond) (spine : Spine) : CanFinish (.doWord cond spine) :=
  (canFinish_boundary _).of_expect (by decide) fun _ => rfl

/-- Whatever a condition is used for, the machine can go on from there. -/
theorem canFinish_useCond (use : CondUse) (cond : Cond) (spine : Spine) :
    CanFinish (useCond use cond spine) := by
  cases use with
  | branch => exact canFinish_thenWord cond spine
  | loopWhile => exact canFinish_doWord cond spine
  | loopUntil body => exact canFinish_boundary _

theorem canFinish_printClose (value : Expr) (spine : Spine) :
    CanFinish (.printClose value spine) :=
  (canFinish_boundary _).of_expect (by decide) fun _ => rfl

/-- Whatever an expression is used for, the machine can go on from there. -/
theorem canFinish_useExpr (goal : Goal) (e : Expr) (spine : Spine) :
    CanFinish (useExpr goal e spine) := by
  cases goal with
  | assign target => exact canFinish_boundary _
  | print => exact canFinish_printClose e spine
  | compareLeft use op =>
    exact (canFinish_useCond use _ spine).of_step (t := zeroToken) rfl (step_zeroToken _ _ _)
  | compareRight use op left => exact canFinish_useCond use _ spine

/-- However many operators wait, zeros supply their operands. -/
theorem canFinish_supply (holes : List Hole) (e : Expr) (goal : Goal) (spine : Spine) :
    CanFinish (supply e holes goal spine) := by
  induction holes generalizing e with
  | nil => exact canFinish_useExpr goal e spine
  | cons hole holes ih =>
    cases hole with
    | left op => exact (ih _).of_step (t := zeroToken) rfl (step_zeroToken _ _ _)
    | right op left => exact ih _

theorem canFinish_operand (holes : List Hole) (goal : Goal) (spine : Spine) :
    CanFinish (.operand holes goal spine) :=
  (canFinish_supply holes _ goal spine).of_step (t := zeroToken) rfl (step_zeroToken _ _ _)

/-- Every state can be brought to the end of a program. -/
theorem canFinish (s : ParseState) : CanFinish s := by
  have hclose : ∀ name, CanFinish (.closeParen name) := fun name =>
    (canFinish_boundary _).of_expect (by decide) fun _ => rfl
  have hopen : ∀ name, CanFinish (.openParen name) := fun name =>
    (hclose name).of_expect (by decide) fun _ => rfl
  have htitle : CanFinish .title := (hopen _).of_step (t := nameToken) rfl rfl
  cases s with
  | start => exact htitle.of_expect (by decide) fun _ => rfl
  | title => exact htitle
  | openParen name => exact hopen name
  | closeParen name => exact hclose name
  | boundary spine => exact canFinish_boundary spine
  | assignSign target spine =>
    exact (canFinish_operand [] _ spine).of_expect (by decide) fun _ => rfl
  | printOpen spine => exact (canFinish_operand [] _ spine).of_expect (by decide) fun _ => rfl
  | operand holes goal spine => exact canFinish_operand holes goal spine
  | printClose value spine => exact canFinish_printClose value spine
  | relation use spine => exact canFinish_relation fun cond => canFinish_useCond use cond spine
  | thenWord cond spine => exact canFinish_thenWord cond spine
  | doWord cond spine => exact canFinish_doWord cond spine
  | finish p => exact canFinish_finish p

end ParseState

/-! ## Completable tokens -/

/-- Tokens can be completed exactly when the machine advances over them. -/
theorem completable_iff_advances {ts : List Token} (hts : ∀ t ∈ ts, t.kind ≠ .endOfStream) :
    Completable ts ↔ ∃ s, Advances .start ts s := by
  have hall : ∀ rest : List Token, (∀ t ∈ rest, t.IsClassified) →
      ∀ t ∈ ts ++ rest, t.kind ≠ .endOfStream := by
    intro rest hrest t ht
    rcases List.mem_append.1 ht with ht | ht
    · exact hts t ht
    · exact (hrest t ht).kind_ne_endOfStream
  constructor
  · rintro ⟨rest, lines, p, hrest, hparse⟩
    have hadv := (run_append_last_eq_ok_iff (hall rest hrest) rfl).1 hparse
    obtain ⟨s, hs, -⟩ := hadv.exists_of_append
    exact ⟨s, hs⟩
  · rintro ⟨s, hs⟩
    obtain ⟨rest, p, hrest, hfinish⟩ := canFinish s
    refine ⟨rest, 1, p, hrest, ?_⟩
    exact (run_append_last_eq_ok_iff (hall rest hrest) rfl).2 (hs.append hfinish)

/-- Tokens can be completed exactly when the grammar can continue them. -/
theorem completable_iff_viable {ts : List Token} (hts : ∀ t ∈ ts, t.kind ≠ .endOfStream) :
    Completable ts ↔ Viable ts := by
  rw [completable_iff_advances hts]
  constructor
  · rintro ⟨s, hs⟩
    obtain ⟨rest, p, -, hfinish⟩ := canFinish s
    exact ⟨rest, p, advances_finish_iff_spelled.1 (hs.append hfinish)⟩
  · rintro ⟨rest, p, hspelled⟩
    obtain ⟨s, hs, -⟩ := hspelled.advances.exists_of_append
    exact ⟨s, hs⟩

/-- No advance goes past a token that is refused where it stands. -/
theorem not_advances_of_refused {us rest : List Token} {t : Token} {s s' s'' : ParseState}
    {e : SyntaxError} (hadv : Advances s us s') (hstep : s'.step t = .error e) :
    ¬ Advances s (us ++ t :: rest) s'' := by
  intro h
  obtain ⟨s₁, hus, hrest⟩ := h.exists_of_append
  obtain rfl := hadv.unique hus
  cases hrest with
  | head hnext _ =>
    rw [hstep] at hnext
    cases hnext

/-- The machine advances over the first tokens of a list up to the refused one and not beyond. -/
theorem advances_take_iff_le {us ts rest : List Token} {t last : Token} {s : ParseState}
    {e : SyntaxError} (heq : ts ++ [last] = us ++ t :: rest) (hadv : Advances .start us s)
    (hstep : s.step t = .error e) {j : Nat} (hj : j ≤ ts.length) :
    (∃ s', Advances .start (ts.take j) s') ↔ j ≤ us.length := by
  have htake : ts.take j = (us ++ t :: rest).take j := by
    rw [← heq, List.take_append_of_le_length hj]
  rw [htake]
  constructor
  · rintro ⟨s', h⟩
    -- with more tokens than stand before the refused one, that one is among them
    refine Nat.le_of_not_lt fun hlt => ?_
    obtain ⟨n, rfl⟩ : ∃ n, j = us.length + (n + 1) := ⟨j - us.length - 1, by omega⟩
    rw [List.take_length_add_append, List.take_succ_cons] at h
    exact not_advances_of_refused hadv hstep h
  · intro hle
    rw [List.take_append_of_le_length hle]
    rw [← List.take_append_drop j us] at hadv
    obtain ⟨s', hs', -⟩ := hadv.exists_of_append
    exact ⟨s', hs'⟩

/-! ## The refused token -/

/-- A text that has tokens but is no program is refused at one of its tokens, the end of the stream
included, and at the first one possible. The error has the place of that token. The tokens before it
can be completed to a program, and by tokens that a text can have; together with it, or with any
that follow, they cannot, whatever the tokens behind them. When the refused token is the end of the
stream, all tokens before it can be completed and they are no program themselves. -/
theorem refused_at_first_uncompletable {bytes : Bytes} {ts : List Token} {last : Token}
    {e : SyntaxError} (htokens : TokenQueue.tokens? bytes = .ok (ts ++ [last]))
    (herror : Program.ofBytes? bytes = .error (.syntactic e)) :
    ∃ (k : Nat) (t : Token) (message : String), (ts ++ [last])[k]? = some t ∧
      (SourceError.syntactic e).failure =
        .parse message { line := t.line, column := t.column } ∧
      (∀ j ≤ ts.length, (Completable (ts.take j) ↔ j ≤ k) ∧ (Viable (ts.take j) ↔ j ≤ k)) ∧
      ∀ lines p, (TokenQueue.parse ⟨ts ++ [last], lines⟩).1 ≠ .ok p := by
  obtain ⟨⟨lines, rfl⟩, hclass⟩ := TokenQueue.tokens?_append htokens
  have hts : ∀ t ∈ ts, t.kind ≠ .endOfStream := fun t ht => (hclass t ht).kind_ne_endOfStream
  have hrun : (ParseState.run .start (ts ++ [TokenQueue.endToken lines])).1 = .error e := by
    rw [Program.ofBytes?_eq_run htokens] at herror
    cases hr : (ParseState.run .start (ts ++ [TokenQueue.endToken lines])).1 with
    | error e' =>
      rw [hr] at herror
      cases herror
      rfl
    | ok p =>
      rw [hr] at herror
      cases herror
  rcases run_cases .start (ts ++ [TokenQueue.endToken lines]) with ⟨s, hadv, -⟩ |
    ⟨us, t, rest, s, x, heq, hadv, hstep, hrefused⟩ | ⟨us, t, rest, p, -, -, -, hok⟩
  -- the end of the stream is among the tokens, so they do not run out before something ends the run
  · exact absurd rfl (hadv.kind_ne_endOfStream (TokenQueue.endToken lines) (by simp))
  · rw [hrefused] at hrun
    cases hrun
    refine ⟨us.length, t, x.message, by simp [heq], rfl, ?_, ?_⟩
    · intro j hj
      have htake : ∀ u ∈ ts.take j, u.kind ≠ .endOfStream := fun u hu =>
        hts u (List.mem_of_mem_take hu)
      have hcompletable : Completable (ts.take j) ↔ j ≤ us.length := by
        rw [completable_iff_advances htake]
        exact advances_take_iff_le heq hadv hstep hj
      exact ⟨hcompletable, by rw [← completable_iff_viable htake, hcompletable]⟩
    · intro lines' p hok
      have herr : (TokenQueue.parse ⟨ts ++ [TokenQueue.endToken lines], lines'⟩).1 =
          .error (.refused x t) := congrArg Prod.fst hrefused
      rw [herr] at hok
      cases hok
  · rw [hok] at hrun
    cases hrun

/-- A number that is too large, as the seventh token. What stands before it can be completed, and
with it nothing can. -/
theorem refused_at_large_number :
    ∃ ts last, TokenQueue.tokens? (Text.encode "function f ( ) x = 2147483648 end") =
        .ok (ts ++ [last]) ∧ Completable (ts.take 6) ∧ ¬ Viable (ts.take 7) := by
  have htokens : TokenQueue.tokens? (Text.encode "function f ( ) x = 2147483648 end") = .ok
      ([⟨.functionWord, "function", 1, 1⟩, ⟨.identifier, "f", 1, 10⟩, ⟨.leftParen, "(", 1, 12⟩,
        ⟨.rightParen, ")", 1, 14⟩, ⟨.identifier, "x", 1, 16⟩, ⟨.assign, "=", 1, 18⟩,
        ⟨.integer, "2147483648", 1, 20⟩, ⟨.endWord, "end", 1, 31⟩] ++
          [⟨.endOfStream, "EOS", 1, 1⟩]) :=
    TokenQueue.eq_ok_of_toOption (by decide +kernel)
  have herror : Program.ofBytes? (Text.encode "function f ( ) x = 2147483648 end") =
      .error (.syntactic (.refused .smallLiteral ⟨.integer, "2147483648", 1, 20⟩)) := by
    rw [Program.ofBytes?_eq_run htokens]
    rfl
  obtain ⟨k, t, message, hk, hplace, htake, -⟩ :=
    refused_at_first_uncompletable htokens herror
  have hcolumn : t.column = 20 := by
    injection hplace with _ hlocation
    injection hlocation with _ _ hcolumn
    exact Int.ofNat.inj hcolumn.symm
  -- no other token of the text stands in this column
  have hsix : k = 6 := by
    obtain ⟨hlt, hget⟩ := List.getElem?_eq_some_iff.1 hk
    have hthere := (congrArg Token.column hget).trans hcolumn
    clear hk htake hget
    revert k
    decide
  subst hsix
  exact ⟨_, _, htokens, (htake 6 (by decide)).1.2 (by decide),
    fun hviable => absurd ((htake 7 (by decide)).2.1 hviable) (by decide)⟩

end MiniLua

import MiniLua.Syntax.Parse

/-!
# Runs of the reading machine

A run of the machine takes tokens one after the other until one completes the program or is refused.
Its tokens therefore split into those that only moved the machine on and the one that ended the run.
`Advances` describes the first part by itself, without the end, and `run_cases` takes every run
apart in this way. All later facts about runs come from these two.

## Delivered

- `stepBoundary_cases`, `stepOperand_cases`, `step_eq_accept_iff`, `eq_refused_of_step`: what one
  token can do.
- `not_step_next_of_endOfStream`: the end of the stream never moves the machine on.
- `Advances`: the tokens move the machine from one state to another.
- `run_cases`: every run is an advance and what ended it.
- `run_eq_ok_iff`, `run_append_last_eq_ok_iff`: the runs that give a program.
-/

set_option autoImplicit false

namespace MiniLua
namespace ParseState

/-! ## One token -/

/-- A token of the expected kind moves the machine on, and no other token does. -/
theorem expect_eq_next_iff {k : Kind} {t : Token} {s s' : ParseState} :
    expect k t s = .ok (.next s') ↔ t.kind = k ∧ s = s' := by
  unfold expect
  split
  · rename_i hk
    simp [hk]
  · rename_i hk
    simp [hk]

/-- An expected token never completes a program. -/
theorem expect_ne_accept {k : Kind} {t : Token} {s : ParseState} {p : Program} :
    expect k t s ≠ .ok (.accept p) := by
  unfold expect
  split <;> simp

/-- A token that is not of the expected kind is refused itself. -/
theorem eq_refused_of_expect {k : Kind} {t : Token} {s : ParseState} {e : SyntaxError}
    (h : expect k t s = .error e) : ∃ x, e = .refused x t := by
  unfold expect at h
  split at h
  · cases h
  · cases h
    exact ⟨_, rfl⟩

/-- A literal is refused at its own token. -/
theorem eq_refused_of_literal? {t : Token} {e : SyntaxError} (h : t.literal? = .error e) :
    ∃ x, e = .refused x t := by
  unfold Token.literal? at h
  split at h
  · cases h
    exact ⟨_, rfl⟩
  · split at h
    · cases h
    · cases h
      exact ⟨_, rfl⟩

/-- What a token between statements can do. -/
theorem stepBoundary_cases {spine : Spine} {t : Token} {m : ParseMove}
    (h : stepBoundary spine t = .ok m) :
    (t.kind = .identifier ∧ m = .next (.assignSign t.ident spine)) ∨
    (t.kind = .ifWord ∧ m = .next (.relation .branch spine)) ∨
    (t.kind = .whileWord ∧ m = .next (.relation .loopWhile spine)) ∨
    (t.kind = .printWord ∧ m = .next (.printOpen spine)) ∨
    (t.kind = .repeatWord ∧ m = .next (.boundary (.inner .loopUntil [] spine))) ∨
    (t.kind = terminator spine ∧ m = .next (close spine)) := by
  unfold stepBoundary at h
  split at h <;> rename_i hk
  · cases h; exact .inl ⟨hk, rfl⟩
  · cases h; exact .inr (.inl ⟨hk, rfl⟩)
  · cases h; exact .inr (.inr (.inl ⟨hk, rfl⟩))
  · cases h; exact .inr (.inr (.inr (.inl ⟨hk, rfl⟩)))
  · cases h; exact .inr (.inr (.inr (.inr (.inl ⟨hk, rfl⟩))))
  -- any other kind has to be the keyword that closes the innermost block
  · cases m with
    | next s =>
      obtain ⟨ht, rfl⟩ := expect_eq_next_iff.1 h
      exact .inr (.inr (.inr (.inr (.inr ⟨ht, rfl⟩))))
    | accept p => exact absurd h expect_ne_accept

/-- What a token at the start of an expression can do. -/
theorem stepOperand_cases {holes : List Hole} {goal : Goal} {spine : Spine} {t : Token}
    {m : ParseMove} (h : stepOperand holes goal spine t = .ok m) :
    (t.kind = .identifier ∧ m = .next (supply (.var t.ident) holes goal spine)) ∨
    (∃ n, t.kind = .integer ∧ Text.natural? t.lexeme.toList = some n ∧ n ≤ maxLiteral ∧
      m = .next (supply (.lit (Int32.ofNat n)) holes goal spine)) ∨
    (∃ op, ArithOp.ofKind? t.kind = some op ∧
      m = .next (.operand (.left op :: holes) goal spine)) := by
  unfold stepOperand at h
  split at h
  · rename_i hk
    cases h
    exact .inl ⟨hk, rfl⟩
  · rename_i hk
    unfold Token.literal? at h
    split at h
    · cases h
    · rename_i n hn
      split at h
      · rename_i hle
        cases h
        exact .inr (.inl ⟨n, hk, hn, hle, rfl⟩)
      · cases h
  · split at h
    · rename_i op hop
      cases h
      exact .inr (.inr ⟨op, hop, rfl⟩)
    · cases h

/-- A program is completed at its end only, and only by the end of the stream. -/
theorem step_eq_accept_iff {s : ParseState} {t : Token} {p : Program} :
    s.step t = .ok (.accept p) ↔ s = .finish p ∧ t.kind = .endOfStream := by
  constructor
  · intro h
    cases s with
    | boundary spine =>
      rcases stepBoundary_cases h with ⟨-, hm⟩ | ⟨-, hm⟩ | ⟨-, hm⟩ | ⟨-, hm⟩ | ⟨-, hm⟩ | ⟨-, hm⟩ <;>
        cases hm
    | operand holes goal spine =>
      rcases stepOperand_cases h with ⟨-, hm⟩ | ⟨n, -, -, -, hm⟩ | ⟨op, -, hm⟩ <;> cases hm
    | relation use spine =>
      simp only [step] at h
      split at h <;> cases h
    | finish program =>
      simp only [step] at h
      split at h
      · rename_i hk
        cases h
        exact ⟨rfl, hk⟩
      · cases h
    -- all other states wait for one kind of token
    | _ => exact absurd h expect_ne_accept
  · rintro ⟨rfl, hk⟩
    simp [step, hk]

/-- A refused token is the one that was just taken. -/
theorem eq_refused_of_step {s : ParseState} {t : Token} {e : SyntaxError}
    (h : s.step t = .error e) : ∃ x, e = .refused x t := by
  cases s with
  | boundary spine =>
    simp only [step, stepBoundary] at h
    split at h
    · cases h
    · cases h
    · cases h
    · cases h
    · cases h
    · exact eq_refused_of_expect h
  | operand holes goal spine =>
    simp only [step, stepOperand] at h
    split at h
    · cases h
    · cases hv : t.literal? with
      | ok value =>
        rw [hv] at h
        cases h
      | error e' =>
        rw [hv] at h
        cases h
        exact eq_refused_of_literal? hv
    · split at h
      · cases h
      · cases h
        exact ⟨_, rfl⟩
  | relation use spine =>
    simp only [step] at h
    split at h
    · cases h
    · cases h
      exact ⟨_, rfl⟩
  | finish program =>
    simp only [step] at h
    split at h
    · cases h
    · cases h
      exact ⟨_, rfl⟩
  | _ => exact eq_refused_of_expect h

/-- Blocks are closed by keywords. -/
theorem terminator_mem_keywords (spine : Spine) : terminator spine ∈ Kind.keywords := by
  cases spine with
  | body name done => simp [terminator, Kind.keywords]
  | inner owner done outer => cases owner <;> simp [terminator, Kind.keywords]

/-- The end of the stream never moves the machine on. -/
theorem not_step_next_of_endOfStream {s s' : ParseState} {t : Token}
    (ht : t.kind = .endOfStream) : s.step t ≠ .ok (.next s') := by
  intro h
  cases s with
  | boundary spine =>
    have hmem := terminator_mem_keywords spine
    rcases stepBoundary_cases h with ⟨hk, -⟩ | ⟨hk, -⟩ | ⟨hk, -⟩ | ⟨hk, -⟩ | ⟨hk, -⟩ | ⟨hk, -⟩ <;>
      rw [ht] at hk
    · cases hk
    · cases hk
    · cases hk
    · cases hk
    · cases hk
    -- the end of the stream is no keyword, so it closes no block
    · rw [← hk] at hmem
      exact absurd hmem (by decide)
  | operand holes goal spine =>
    rcases stepOperand_cases h with ⟨hk, -⟩ | ⟨n, hk, -⟩ | ⟨op, hk, -⟩ <;> rw [ht] at hk
    · cases hk
    · cases hk
    · cases hk
  | relation use spine =>
    simp [step, ht, RelOp.ofKind?] at h
  | finish program =>
    simp [step, ht] at h
  | _ =>
    have hk := (expect_eq_next_iff.1 h).1
    rw [ht] at hk
    cases hk

/-! ## Tokens that only move the machine on -/

/-- The tokens move the machine from one state to another. -/
inductive Advances : ParseState → List Token → ParseState → Prop
  | refl (s : ParseState) : Advances s [] s
  | head {s s' s'' : ParseState} {t : Token} {ts : List Token} (h : s.step t = .ok (.next s'))
      (hrest : Advances s' ts s'') : Advances s (t :: ts) s''

namespace Advances

variable {s s' s'' : ParseState} {t : Token} {ts us : List Token}

/-- One token. -/
theorem single (h : s.step t = .ok (.next s')) : Advances s [t] s' :=
  .head h (.refl s')

/-- One advance after the other. -/
theorem append (h : Advances s ts s') (h' : Advances s' us s'') : Advances s (ts ++ us) s'' := by
  induction h with
  | refl s => exact h'
  | head hstep _ ih => exact .head hstep (ih h')

/-- An advance over two lists goes through a state between them. -/
theorem exists_of_append (h : Advances s (ts ++ us) s'') :
    ∃ s', Advances s ts s' ∧ Advances s' us s'' := by
  induction ts generalizing s with
  | nil => exact ⟨s, .refl s, h⟩
  | cons t ts ih =>
    cases h with
    | head hstep hrest =>
      obtain ⟨s', hts, hus⟩ := ih hrest
      exact ⟨s', .head hstep hts, hus⟩

/-- Tokens lead to one state at most. -/
theorem unique (h : Advances s ts s') (h' : Advances s ts s'') : s' = s'' := by
  induction h with
  | refl s =>
    cases h'
    rfl
  | head hstep _ ih =>
    cases h' with
    | head hstep' hrest' =>
      rw [hstep] at hstep'
      cases hstep'
      exact ih hrest'

/-- A run goes on from where an advance ends. -/
theorem run_append (h : Advances s ts s') (rest : List Token) :
    s.run (ts ++ rest) = s'.run rest := by
  induction h with
  | refl s => rfl
  | head hstep _ ih =>
    rw [List.cons_append, run, hstep]
    exact ih

/-- The end of the stream is not among the tokens of an advance. -/
theorem kind_ne_endOfStream (h : Advances s ts s') : ∀ t ∈ ts, t.kind ≠ .endOfStream := by
  induction h with
  | refl s => simp
  | head hstep _ ih =>
    intro u hu
    rcases List.mem_cons.1 hu with rfl | hu
    · exact fun hk => not_step_next_of_endOfStream hk hstep
    · exact ih u hu

end Advances

/-! ## Whole runs -/

/-- A run advances until there are no more tokens, or until a token is refused, or until the end of
the stream completes the program. -/
theorem run_cases (s : ParseState) (ts : List Token) :
    (∃ s', Advances s ts s' ∧ s.run ts = (.error .noMoreTokens, [])) ∨
    (∃ us t rest s' x, ts = us ++ t :: rest ∧ Advances s us s' ∧
      s'.step t = .error (.refused x t) ∧ s.run ts = (.error (.refused x t), rest)) ∨
    (∃ us t rest p, ts = us ++ t :: rest ∧ Advances s us (.finish p) ∧
      t.kind = .endOfStream ∧ s.run ts = (.ok p, rest)) := by
  -- on the tokens, for every state, since the first token changes it
  induction ts generalizing s with
  | nil => exact .inl ⟨s, .refl s, rfl⟩
  | cons t ts ih =>
    cases hstep : s.step t with
    | error e =>
      obtain ⟨x, rfl⟩ := eq_refused_of_step hstep
      exact .inr (.inl ⟨[], t, ts, s, x, rfl, .refl s, hstep, by rw [run, hstep]⟩)
    | ok m =>
      cases m with
      | accept p =>
        obtain ⟨rfl, hk⟩ := step_eq_accept_iff.1 hstep
        exact .inr (.inr ⟨[], t, ts, p, rfl, .refl _, hk, by rw [run, hstep]⟩)
      | next s₁ =>
        have hrun : s.run (t :: ts) = s₁.run ts := by rw [run, hstep]
        rw [hrun]
        rcases ih s₁ with ⟨s', hadv, h⟩ | ⟨us, u, rest, s', x, rfl, hadv, hu, h⟩ |
          ⟨us, u, rest, p, rfl, hadv, hu, h⟩
        · exact .inl ⟨s', .head hstep hadv, h⟩
        · exact .inr (.inl ⟨t :: us, u, rest, s', x, rfl, .head hstep hadv, hu, h⟩)
        · exact .inr (.inr ⟨t :: us, u, rest, p, rfl, .head hstep hadv, hu, h⟩)

/-- A run gives a program exactly when it advances to the end of the program and finds the end of
the stream there. -/
theorem run_eq_ok_iff {s : ParseState} {ts rest : List Token} {p : Program} :
    s.run ts = (.ok p, rest) ↔
      ∃ us t, ts = us ++ t :: rest ∧ t.kind = .endOfStream ∧ Advances s us (.finish p) := by
  constructor
  · intro h
    rcases run_cases s ts with ⟨s', -, hrun⟩ | ⟨us, t, rest', s', x, -, -, -, hrun⟩ |
      ⟨us, t, rest', q, rfl, hadv, hk, hrun⟩
    · rw [hrun] at h
      cases h
    · rw [hrun] at h
      cases h
    · rw [hrun] at h
      cases h
      exact ⟨us, t, rfl, hk, hadv⟩
  · rintro ⟨us, t, rfl, hk, hadv⟩
    rw [hadv.run_append, run, step_eq_accept_iff.2 ⟨rfl, hk⟩]

/-- A token of a list that has one more token at its end is that last one or is before it. -/
theorem append_last_eq_append_cons {ts us rest : List Token} {last t : Token}
    (h : ts ++ [last] = us ++ t :: rest) :
    (ts = us ∧ last = t) ∨ ∃ vs, ts = us ++ t :: vs := by
  rcases List.eq_nil_or_concat rest with rfl | ⟨vs, v, rfl⟩
  · obtain ⟨hts, hlast⟩ := List.append_inj' h rfl
    exact .inl ⟨hts, (List.cons.inj hlast).1⟩
  · rw [List.concat_eq_append, ← List.cons_append, ← List.append_assoc] at h
    exact .inr ⟨vs, (List.append_inj' h rfl).1⟩

/-- On tokens with the end of the stream behind them and nowhere else, a run gives a program exactly
when it advances over all of them to the end of the program. -/
theorem run_append_last_eq_ok_iff {s : ParseState} {ts : List Token} {last : Token} {p : Program}
    (hts : ∀ t ∈ ts, t.kind ≠ .endOfStream) (hlast : last.kind = .endOfStream) :
    (s.run (ts ++ [last])).1 = .ok p ↔ Advances s ts (.finish p) := by
  constructor
  · intro h
    have hrun : s.run (ts ++ [last]) = (.ok p, (s.run (ts ++ [last])).2) := Prod.ext h rfl
    obtain ⟨us, t, heq, hk, hadv⟩ := run_eq_ok_iff.1 hrun
    -- the token that completed the program is the last one, as no other is of its kind
    rcases append_last_eq_append_cons heq with ⟨rfl, -⟩ | ⟨vs, rfl⟩
    · exact hadv
    · exact absurd hk (hts t (by simp))
  · intro hadv
    rw [hadv.run_append, run, step_eq_accept_iff.2 ⟨rfl, hlast⟩]

end ParseState
end MiniLua

import MiniLua.Syntax.Parse

/-!
# Where a token stands

The reading machine looks at the kind and the lexeme of a token. Where the token stands is kept for
the reports of failures, and decides nothing.

## Delivered

- `Failure.SameMessage`, `AlikeResult`: results that differ in the places of failures only.
- `ParseState.step_alike`: a token makes the same move wherever it stands.
-/

set_option autoImplicit false

namespace MiniLua

/-! ## Results that are alike -/

/-- Failures of one kind and with one message, whatever their places are. -/
inductive Failure.SameMessage : Failure → Failure → Prop
  | lexical (message : String) (place place' : Location) :
      SameMessage (.lexical message place) (.lexical message place')
  | parse (message : String) (place place' : Location) :
      SameMessage (.parse message place) (.parse message place')

/-- Two results that are both there, and related, or that both failed, with one message. -/
inductive AlikeResult {ε α β : Type} (report : ε → Failure) (R : α → β → Prop) :
    Except ε α → Except ε β → Prop
  | ok {a : α} {b : β} (h : R a b) : AlikeResult report R (.ok a) (.ok b)
  | error {e e' : ε} (h : (report e).SameMessage (report e')) :
      AlikeResult report R (.error e) (.error e')

/-! ## The reading machine -/

namespace ParseState

variable {t u : Token}

/-- Tokens of one kind meet or miss an expectation together. -/
theorem expect_alike (h : t.kind = u.kind) (k : Kind) (s : ParseState) :
    AlikeResult SyntaxError.failure Eq (expect k t s) (expect k u s) := by
  unfold expect
  rw [h]
  split
  · exact .ok rfl
  · exact .error (.parse _ _ _)

/-- Tokens with one lexeme are one number, or are refused for one cause. -/
theorem literal?_alike (h : t.lexeme = u.lexeme) :
    AlikeResult SyntaxError.failure Eq t.literal? u.literal? := by
  unfold Token.literal?
  rw [h]
  cases Text.natural? u.lexeme.toList with
  | none => exact .error (.parse _ _ _)
  | some n =>
    by_cases hle : n ≤ maxLiteral
    · simp only [if_pos hle]
      exact .ok rfl
    · simp only [if_neg hle]
      exact .error (.parse _ _ _)

/-- Tokens with one lexeme spell one name. -/
theorem ident_eq (h : t.lexeme = u.lexeme) : t.ident = u.ident := by
  rw [Token.ident, Token.ident, h]

/-- A token between statements does the same wherever it stands. -/
theorem stepBoundary_alike (hkind : t.kind = u.kind) (hlexeme : t.lexeme = u.lexeme)
    (spine : Spine) :
    AlikeResult SyntaxError.failure Eq (stepBoundary spine t) (stepBoundary spine u) := by
  unfold stepBoundary
  rw [hkind, ident_eq hlexeme]
  split
  · exact .ok rfl
  · exact .ok rfl
  · exact .ok rfl
  · exact .ok rfl
  · exact .ok rfl
  -- any other kind has to close the innermost block
  · exact expect_alike hkind _ _

/-- A token at the start of an expression does the same wherever it stands. -/
theorem stepOperand_alike (hkind : t.kind = u.kind) (hlexeme : t.lexeme = u.lexeme)
    (holes : List Hole) (goal : Goal) (spine : Spine) :
    AlikeResult SyntaxError.failure Eq (stepOperand holes goal spine t)
      (stepOperand holes goal spine u) := by
  unfold stepOperand
  rw [hkind, ident_eq hlexeme]
  split
  · exact .ok rfl
  · have hliteral := literal?_alike hlexeme
    generalize t.literal? = r at hliteral ⊢
    generalize u.literal? = r' at hliteral ⊢
    cases hliteral with
    | error hmessage => exact .error hmessage
    | ok hvalue =>
      rw [hvalue]
      exact .ok rfl
  · split
    · exact .ok rfl
    · exact .error (.parse _ _ _)

/-- A token makes the same move wherever it stands, or is refused with one message. -/
theorem step_alike (hkind : t.kind = u.kind) (hlexeme : t.lexeme = u.lexeme) (s : ParseState) :
    AlikeResult SyntaxError.failure Eq (s.step t) (s.step u) := by
  cases s with
  | title =>
    simp only [step]
    rw [ident_eq hlexeme]
    exact expect_alike hkind _ _
  | boundary spine => exact stepBoundary_alike hkind hlexeme spine
  | operand holes goal spine => exact stepOperand_alike hkind hlexeme holes goal spine
  | relation use spine =>
    simp only [step]
    rw [hkind]
    split
    · exact .ok rfl
    · exact .error (.parse _ _ _)
  | finish program =>
    simp only [step]
    rw [hkind]
    split
    · exact .ok rfl
    · exact .error (.parse _ _ _)
  | _ => exact expect_alike hkind _ _

end ParseState

end MiniLua

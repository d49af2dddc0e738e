import MiniLua.Proofs.Machine
import MiniLua.Proofs.Scanning
import MiniLua.Syntax.Grammar

/-!
# The machine reads the grammar

The machine takes one token at a time and never goes back; the grammar has no machine at all. Two
facts tie them together. Tokens that spell a tree move the machine over the whole tree, whatever
comes after them. And every state that the machine reaches has a meaning in the grammar: the tokens
so far spell the statements, operands and half-read constructs that the state holds, so that the
tokens before the last state spell the program.

The second fact is an invariant of the machine. It extends the relations of the grammar from trees
to what is open, one relation for each part of a state.

## Delivered

- `Expr.Spelled.advances`, `Cond.Spelled.advances`, `Stmts.Spelled.advances`: from the grammar to
  the machine.
- `Hole.Spelled`, `CondUse.Spelled`, `Goal.Spelled`, `Owner.Spelled`, `Spine.Spelled`,
  `ParseState.Spelled`: the tokens that a state stands for.
- `ParseState.Spelled.step`: the invariant is kept by every token.
- `advances_finish_iff_spelled`: the machine advances over exactly the programs of the grammar.
-/

set_option autoImplicit false

namespace MiniLua

open ParseState

/-! ## Trees move the machine -/

/-- An operator opens an operation. -/
theorem step_operator {t : Token} {op : ArithOp} (kind : ArithOp.ofKind? t.kind = some op)
    (holes : List Hole) (goal : Goal) (spine : Spine) :
    ParseState.step (.operand holes goal spine) t =
      .ok (.next (.operand (.left op :: holes) goal spine)) := by
  simp only [ParseState.step, stepOperand]
  split
  · rename_i hk
    rw [hk] at kind
    cases kind
  · rename_i hk
    rw [hk] at kind
    cases kind
  · rw [kind]

/-- The tokens of an expression take the machine from its start to its use. -/
theorem Expr.Spelled.advances {ts : List Token} {e : Expr} (h : Expr.Spelled ts e)
    (holes : List Hole) (goal : Goal) (spine : Spine) :
    Advances (.operand holes goal spine) ts (supply e holes goal spine) := by
  -- for any waiting operators, since each operand is read with one more of them
  induction h generalizing holes with
  | var kind => exact .single (by simp [ParseState.step, stepOperand, kind])
  | lit kind value bound =>
    exact .single (by simp [ParseState.step, stepOperand, kind, Token.literal?, value, bound, bind,
      Except.bind, pure, Except.pure])
  | binary kind _ _ ihl ihr =>
    exact .head (step_operator kind holes goal spine)
      ((ihl (.left _ :: holes)).append (ihr (.right _ _ :: holes)))

/-- The tokens of a condition take the machine from its start to its use. -/
theorem Cond.Spelled.advances {ts : List Token} {c : Cond} (h : Cond.Spelled ts c) (use : CondUse)
    (spine : Spine) : Advances (.relation use spine) ts (useCond use c spine) := by
  cases h with
  | @compare t op ls rs left right kind hl hr =>
    have hstep : ParseState.step (.relation use spine) t =
        .ok (.next (.operand [] (.compareLeft use op) spine)) := by
      simp only [ParseState.step, kind]
    exact .head hstep ((hl.advances [] (.compareLeft use op) spine).append
      (hr.advances [] (.compareRight use op left) spine))

/-- The keyword that closes the innermost block closes it. -/
theorem step_terminator {t : Token} {spine : Spine} (kind : t.kind = terminator spine) :
    ParseState.step (.boundary spine) t = .ok (.next (close spine)) := by
  have hexpect : expect (terminator spine) t (close spine) = .ok (.next (close spine)) :=
    expect_eq_next_iff.2 ⟨kind, rfl⟩
  cases spine with
  | body name done => simpa only [ParseState.step, stepBoundary, kind, terminator] using hexpect
  | inner owner done outer =>
    cases owner <;> simpa only [ParseState.step, stepBoundary, kind, terminator] using hexpect

/-- The spine with statements added to its innermost block. -/
def Spine.pushAll (stmts : List Stmt) : Spine → Spine
  | .body name done => .body name (stmts.reverse ++ done)
  | .inner owner done outer => .inner owner (stmts.reverse ++ done) outer

theorem Spine.pushAll_nil (spine : Spine) : spine.pushAll [] = spine := by
  cases spine <;> rfl

theorem Spine.pushAll_cons (s : Stmt) (stmts : List Stmt) (spine : Spine) :
    spine.pushAll (s :: stmts) = (spine.push s).pushAll stmts := by
  cases spine <;> simp [Spine.pushAll, Spine.push]

/-- A block that was opened with nothing in it is closed by its keyword after its statements. -/
theorem advances_close {ts : List Token} {stmts : List Stmt} {owner : Owner} {outer : Spine}
    {t : Token}
    (h : Advances (.boundary (.inner owner [] outer)) ts
      (.boundary ((Spine.inner owner [] outer).pushAll stmts)))
    (kind : t.kind = terminator (.inner owner stmts.reverse outer)) :
    Advances (.boundary (.inner owner [] outer)) (ts ++ [t])
      (close (.inner owner stmts.reverse outer)) := by
  simp only [Spine.pushAll, List.append_nil] at h
  exact h.append (.single (step_terminator kind))

mutual

/-- The tokens of a statement take the machine from one boundary to the next. -/
theorem Stmt.Spelled.advances {ts : List Token} {s : Stmt} (h : Stmt.Spelled ts s) (spine : Spine) :
    Advances (.boundary spine) ts (.boundary (spine.push s)) := by
  cases h with
  | @assign x sign _ value hx hsign hv =>
    have hstart : ParseState.step (.boundary spine) x =
        .ok (.next (.assignSign x.ident spine)) := by
      simp only [ParseState.step, stepBoundary, hx]
    refine .head hstart (.head (expect_eq_next_iff.2 ⟨hsign, rfl⟩) ?_)
    exact hv.advances [] (.assign x.ident) spine
  | @print word _ _ _ value hword hopening hv hclosing =>
    have hstart : ParseState.step (.boundary spine) word = .ok (.next (.printOpen spine)) := by
      simp only [ParseState.step, stepBoundary, hword]
    refine .head hstart (.head (expect_eq_next_iff.2 ⟨hopening, rfl⟩) ?_)
    exact (hv.advances [] .print spine).append (.single (expect_eq_next_iff.2 ⟨hclosing, rfl⟩))
  | @branch word _ _ _ _ _ _ cond onTrue onFalse hword hc hyes ht hno he hclosing =>
    have hstart : ParseState.step (.boundary spine) word =
        .ok (.next (.relation .branch spine)) := by
      simp only [ParseState.step, stepBoundary, hword]
    -- closing the first block opens the second, so the two advances meet
    have hthen := advances_close (ht.advances (.inner (.onTrue cond) [] spine)) hno
    have helse := advances_close
      (he.advances (.inner (.onFalse cond (.seq onTrue)) [] spine)) hclosing
    simp only [close, List.reverse_reverse] at hthen helse
    have hblocks := hthen.append helse
    rw [List.append_assoc, List.singleton_append] at hblocks
    exact .head hstart ((hc.advances .branch spine).append
      (.head (expect_eq_next_iff.2 ⟨hyes, rfl⟩) hblocks))
  | @loopWhile word _ _ _ _ cond body hword hc hopening ht hclosing =>
    have hstart : ParseState.step (.boundary spine) word =
        .ok (.next (.relation .loopWhile spine)) := by
      simp only [ParseState.step, stepBoundary, hword]
    have hbody := advances_close (ht.advances (.inner (.loopWhile cond) [] spine)) hclosing
    simp only [close, List.reverse_reverse] at hbody
    exact .head hstart ((hc.advances .loopWhile spine).append
      (.head (expect_eq_next_iff.2 ⟨hopening, rfl⟩) hbody))
  | @loopUntil word _ _ _ cond body hword ht hclosing hc =>
    have hstart : ParseState.step (.boundary spine) word =
        .ok (.next (.boundary (.inner .loopUntil [] spine))) := by
      simp only [ParseState.step, stepBoundary, hword]
    have hbody := advances_close (ht.advances (.inner .loopUntil [] spine)) hclosing
    simp only [close, List.reverse_reverse] at hbody
    have hloop := hbody.append (hc.advances (.loopUntil (.seq body)) spine)
    rw [List.append_assoc, List.singleton_append] at hloop
    exact .head hstart hloop

/-- The tokens of statements take the machine over all of them. -/
theorem Stmts.Spelled.advances {ts : List Token} {stmts : List Stmt} (h : Stmts.Spelled ts stmts)
    (spine : Spine) : Advances (.boundary spine) ts (.boundary (spine.pushAll stmts)) := by
  cases h with
  | nil =>
    rw [Spine.pushAll_nil]
    exact .refl _
  | cons h hrest =>
    rw [Spine.pushAll_cons]
    exact (h.advances spine).append (hrest.advances (spine.push _))

end

/-- The tokens of a program take the machine from its start to its end. -/
theorem Program.Spelled.advances {ts : List Token} {p : Program} (h : Program.Spelled ts p) :
    Advances .start ts (.finish p) := by
  cases h with
  | @intro _ title _ _ _ _ body hword htitle hopening hclosing hbody hlast =>
    have hstmts := hbody.advances (.body title.ident [])
    simp only [Spine.pushAll, List.append_nil] at hstmts
    have hend : ParseState.step (.boundary (.body title.ident body.reverse)) _ =
        .ok (.next (close (.body title.ident body.reverse))) := step_terminator hlast
    simp only [close, List.reverse_reverse] at hend
    exact .head (expect_eq_next_iff.2 ⟨hword, rfl⟩)
      (.head (expect_eq_next_iff.2 ⟨htitle, rfl⟩)
        (.head (expect_eq_next_iff.2 ⟨hopening, rfl⟩)
          (.head (expect_eq_next_iff.2 ⟨hclosing, rfl⟩) (hstmts.append (.single hend)))))

/-! ## What a state has read -/

/-- The tokens of a waiting operator, with its left operand once it is read. -/
inductive Hole.Spelled : List Token → Hole → Prop
  | left {t : Token} {op : ArithOp} (kind : ArithOp.ofKind? t.kind = some op) :
      Spelled [t] (.left op)
  | right {t : Token} {op : ArithOp} {ls : List Token} {left : Expr}
      (kind : ArithOp.ofKind? t.kind = some op) (hl : Expr.Spelled ls left) :
      Spelled (t :: ls) (.right op left)

/-- The tokens of waiting operators. The innermost operator comes first in the list and last in the
tokens. -/
inductive Holes.Spelled : List Token → List Hole → Prop
  | nil : Spelled [] []
  | cons {ts us : List Token} {hole : Hole} {holes : List Hole} (hholes : Spelled ts holes)
      (h : Hole.Spelled us hole) : Spelled (ts ++ us) (hole :: holes)

/-- The tokens of a statement before its condition. -/
inductive CondUse.Spelled : List Token → CondUse → Prop
  | branch {t : Token} (kind : t.kind = .ifWord) : Spelled [t] .branch
  | loopWhile {t : Token} (kind : t.kind = .whileWord) : Spelled [t] .loopWhile
  | loopUntil {word closing : Token} {ts : List Token} {body : List Stmt}
      (hword : word.kind = .repeatWord) (ht : Stmts.Spelled ts body)
      (hclosing : closing.kind = .untilWord) :
      Spelled (word :: (ts ++ [closing])) (.loopUntil (.seq body))

/-- The tokens of a statement before the expression that is being read. -/
inductive Goal.Spelled : List Token → Goal → Prop
  | assign {x sign : Token} (hx : x.kind = .identifier) (hsign : sign.kind = .assign) :
      Spelled [x, sign] (.assign x.ident)
  | print {word opening : Token} (hword : word.kind = .printWord)
      (hopening : opening.kind = .leftParen) : Spelled [word, opening] .print
  | compareLeft {us : List Token} {use : CondUse} {t : Token} {op : RelOp}
      (hu : CondUse.Spelled us use) (kind : RelOp.ofKind? t.kind = some op) :
      Spelled (us ++ [t]) (.compareLeft use op)
  | compareRight {us ls : List Token} {use : CondUse} {t : Token} {op : RelOp} {left : Expr}
      (hu : CondUse.Spelled us use) (kind : RelOp.ofKind? t.kind = some op)
      (hl : Expr.Spelled ls left) : Spelled (us ++ t :: ls) (.compareRight use op left)

/-- The tokens of a statement before the inner block that is being read. -/
inductive Owner.Spelled : List Token → Owner → Prop
  | onTrue {word onYes : Token} {cs : List Token} {cond : Cond} (hword : word.kind = .ifWord)
      (hc : Cond.Spelled cs cond) (hyes : onYes.kind = .thenWord) :
      Spelled (word :: (cs ++ [onYes])) (.onTrue cond)
  | onFalse {word onYes onNo : Token} {cs ts : List Token} {cond : Cond} {onTrue : List Stmt}
      (hword : word.kind = .ifWord) (hc : Cond.Spelled cs cond) (hyes : onYes.kind = .thenWord)
      (ht : Stmts.Spelled ts onTrue) (hno : onNo.kind = .elseWord) :
      Spelled (word :: (cs ++ onYes :: (ts ++ [onNo]))) (.onFalse cond (.seq onTrue))
  | loopWhile {word opening : Token} {cs : List Token} {cond : Cond}
      (hword : word.kind = .whileWord) (hc : Cond.Spelled cs cond)
      (hopening : opening.kind = .doWord) :
      Spelled (word :: (cs ++ [opening])) (.loopWhile cond)
  | loopUntil {word : Token} (hword : word.kind = .repeatWord) : Spelled [word] .loopUntil

/-- The tokens up to a boundary between statements. -/
inductive Spine.Spelled : List Token → Spine → Prop
  | body {word title opening closing : Token} {ts : List Token} {done : List Stmt}
      (hword : word.kind = .functionWord) (htitle : title.kind = .identifier)
      (hopening : opening.kind = .leftParen) (hclosing : closing.kind = .rightParen)
      (hdone : Stmts.Spelled ts done.reverse) :
      Spelled (word :: title :: opening :: closing :: ts) (.body title.ident done)
  | inner {os ws ts : List Token} {owner : Owner} {done : List Stmt} {outer : Spine}
      (houter : Spelled os outer) (howner : Owner.Spelled ws owner)
      (hdone : Stmts.Spelled ts done.reverse) :
      Spelled (os ++ (ws ++ ts)) (.inner owner done outer)

/-- The tokens that a state stands for. -/
inductive ParseState.Spelled : List Token → ParseState → Prop
  | start : Spelled [] .start
  | title {word : Token} (hword : word.kind = .functionWord) : Spelled [word] .title
  | openParen {word title : Token} (hword : word.kind = .functionWord)
      (htitle : title.kind = .identifier) : Spelled [word, title] (.openParen title.ident)
  | closeParen {word title opening : Token} (hword : word.kind = .functionWord)
      (htitle : title.kind = .identifier) (hopening : opening.kind = .leftParen) :
      Spelled [word, title, opening] (.closeParen title.ident)
  | boundary {ts : List Token} {spine : Spine} (h : Spine.Spelled ts spine) :
      Spelled ts (.boundary spine)
  | assignSign {ts : List Token} {spine : Spine} {x : Token} (h : Spine.Spelled ts spine)
      (hx : x.kind = .identifier) : Spelled (ts ++ [x]) (.assignSign x.ident spine)
  | printOpen {ts : List Token} {spine : Spine} {word : Token} (h : Spine.Spelled ts spine)
      (hword : word.kind = .printWord) : Spelled (ts ++ [word]) (.printOpen spine)
  | operand {ts gs hs : List Token} {spine : Spine} {goal : Goal} {holes : List Hole}
      (h : Spine.Spelled ts spine) (hgoal : Goal.Spelled gs goal)
      (hholes : Holes.Spelled hs holes) :
      Spelled (ts ++ (gs ++ hs)) (.operand holes goal spine)
  | printClose {ts es : List Token} {spine : Spine} {word opening : Token} {value : Expr}
      (h : Spine.Spelled ts spine) (hword : word.kind = .printWord)
      (hopening : opening.kind = .leftParen) (hv : Expr.Spelled es value) :
      Spelled (ts ++ word :: opening :: es) (.printClose value spine)
  | relation {ts us : List Token} {spine : Spine} {use : CondUse} (h : Spine.Spelled ts spine)
      (huse : CondUse.Spelled us use) : Spelled (ts ++ us) (.relation use spine)
  | thenWord {ts cs : List Token} {spine : Spine} {word : Token} {cond : Cond}
      (h : Spine.Spelled ts spine) (hword : word.kind = .ifWord) (hc : Cond.Spelled cs cond) :
      Spelled (ts ++ word :: cs) (.thenWord cond spine)
  | doWord {ts cs : List Token} {spine : Spine} {word : Token} {cond : Cond}
      (h : Spine.Spelled ts spine) (hword : word.kind = .whileWord) (hc : Cond.Spelled cs cond) :
      Spelled (ts ++ word :: cs) (.doWord cond spine)
  | finish {ts : List Token} {p : Program} (h : Program.Spelled ts p) : Spelled ts (.finish p)

/-! ## Every token keeps the reading -/

/-- A statement after other statements. -/
theorem Stmts.Spelled.concat {ts us : List Token} {stmts : List Stmt} {s : Stmt}
    (h : Stmts.Spelled ts stmts) (hs : Stmt.Spelled us s) :
    Stmts.Spelled (ts ++ us) (stmts ++ [s]) := by
  -- on the statements: the derivation is mutual with that of a single statement
  induction stmts generalizing ts with
  | nil =>
    cases h
    have hone := Stmts.Spelled.cons hs .nil
    rwa [List.append_nil] at hone
  | cons s' stmts ih =>
    cases h with
    | cons h' hrest =>
      rw [List.append_assoc]
      exact .cons h' (ih hrest)

/-- The statement that was just read joins the innermost block. -/
theorem Spine.Spelled.push {ts us : List Token} {spine : Spine} {s : Stmt}
    (h : Spine.Spelled ts spine) (hs : Stmt.Spelled us s) :
    Spine.Spelled (ts ++ us) (spine.push s) := by
  cases h with
  | body hword htitle hopening hclosing hdone =>
    refine .body hword htitle hopening hclosing ?_
    rw [List.reverse_cons]
    exact hdone.concat hs
  | inner houter howner hdone =>
    rw [List.append_assoc, List.append_assoc]
    refine .inner houter howner ?_
    rw [List.reverse_cons]
    exact hdone.concat hs

/-- An inner block starts with nothing in it. -/
theorem Spine.Spelled.enter {ts ws : List Token} {spine : Spine} {owner : Owner}
    (h : Spine.Spelled ts spine) (howner : Owner.Spelled ws owner) :
    Spine.Spelled (ts ++ ws) (.inner owner [] spine) := by
  have hnone : Stmts.Spelled [] (List.reverse []) := .nil
  have hinner := Spine.Spelled.inner h howner hnone
  rwa [List.append_nil] at hinner

/-- A condition that was just read goes to its use. -/
theorem Cond.Spelled.use {ts us cs : List Token} {spine : Spine} {use : CondUse} {c : Cond}
    (hc : Cond.Spelled cs c) (h : Spine.Spelled ts spine) (huse : CondUse.Spelled us use) :
    ParseState.Spelled (ts ++ (us ++ cs)) (useCond use c spine) := by
  cases huse with
  | branch kind => exact .thenWord h kind hc
  | loopWhile kind => exact .doWord h kind hc
  | loopUntil hword ht hclosing =>
    have hloop := h.push (.loopUntil hword ht hclosing hc)
    rw [List.cons_append, List.append_assoc, List.singleton_append]
    exact .boundary hloop

/-- An expression that was just read goes to its use. -/
theorem Expr.Spelled.use {ts gs es : List Token} {spine : Spine} {goal : Goal} {e : Expr}
    (he : Expr.Spelled es e) (h : Spine.Spelled ts spine) (hgoal : Goal.Spelled gs goal) :
    ParseState.Spelled (ts ++ (gs ++ es)) (useExpr goal e spine) := by
  cases hgoal with
  | assign hx hsign => exact .boundary (h.push (.assign hx hsign he))
  | print hword hopening => exact .printClose h hword hopening he
  | compareLeft hu kind =>
    have hright := ParseState.Spelled.operand h (.compareRight hu kind he) .nil
    rw [List.append_nil] at hright
    rwa [List.append_assoc, List.singleton_append]
  | compareRight hu kind hl =>
    have hcond := Cond.Spelled.use (.compare kind hl he) h hu
    rwa [List.append_assoc, List.cons_append]

/-- An expression that was just read goes to the innermost waiting operator, and the operation
becomes the expression that was just read when it was the right operand. -/
theorem Expr.Spelled.supply {ts gs hs es : List Token} {spine : Spine} {goal : Goal}
    {holes : List Hole} {e : Expr} (he : Expr.Spelled es e) (h : Spine.Spelled ts spine)
    (hgoal : Goal.Spelled gs goal) (hholes : Holes.Spelled hs holes) :
    ParseState.Spelled (ts ++ (gs ++ (hs ++ es))) (supply e holes goal spine) := by
  induction hholes generalizing es e with
  | nil => exact he.use h hgoal
  | cons hholes hhole ih =>
    cases hhole with
    | left kind =>
      rw [List.append_assoc]
      exact .operand h hgoal (.cons hholes (.right kind he))
    | right kind hl =>
      -- the operation is complete and goes to the next waiting operator
      rw [List.append_assoc, List.cons_append]
      exact ih (.binary kind hl he)

/-- The keyword that closes the innermost block makes a statement of what its owner has read. -/
theorem Spine.Spelled.close {ts : List Token} {spine : Spine} {t : Token}
    (h : Spine.Spelled ts spine) (kind : t.kind = terminator spine) :
    ParseState.Spelled (ts ++ [t]) (close spine) := by
  cases h with
  | body hword htitle hopening hclosing hdone =>
    exact .finish (.intro hword htitle hopening hclosing hdone kind)
  | inner houter howner hdone =>
    cases howner with
    | onTrue hword hc hyes =>
      -- not a statement yet: the other block follows
      have hnext := houter.enter (.onFalse hword hc hyes hdone kind)
      refine .boundary ?_
      simpa only [List.append_assoc, List.cons_append, List.singleton_append, List.nil_append]
        using hnext
    | onFalse hword hc hyes ht hno =>
      have hnext := houter.push (.branch hword hc hyes ht hno hdone kind)
      refine .boundary ?_
      simpa only [List.append_assoc, List.cons_append, List.singleton_append, List.nil_append]
        using hnext
    | loopWhile hword hc hopening =>
      have hnext := houter.push (.loopWhile hword hc hopening hdone kind)
      refine .boundary ?_
      simpa only [List.append_assoc, List.cons_append, List.singleton_append, List.nil_append]
        using hnext
    | loopUntil hword =>
      have hnext := ParseState.Spelled.relation houter (.loopUntil hword hdone kind)
      simpa only [ParseState.close, List.append_assoc, List.cons_append, List.singleton_append,
        List.nil_append] using hnext

/-- Every token that moves the machine on keeps the reading. -/
theorem ParseState.Spelled.step {ts : List Token} {s s' : ParseState} {t : Token}
    (h : ParseState.Spelled ts s) (hstep : s.step t = .ok (.next s')) :
    ParseState.Spelled (ts ++ [t]) s' := by
  cases h with
  | start =>
    obtain ⟨hk, rfl⟩ := expect_eq_next_iff.1 hstep
    exact .title hk
  | title hword =>
    obtain ⟨hk, rfl⟩ := expect_eq_next_iff.1 hstep
    exact .openParen hword hk
  | openParen hword htitle =>
    obtain ⟨hk, rfl⟩ := expect_eq_next_iff.1 hstep
    exact .closeParen hword htitle hk
  | closeParen hword htitle hopening =>
    obtain ⟨hk, rfl⟩ := expect_eq_next_iff.1 hstep
    exact .boundary (.body hword htitle hopening hk .nil)
  | boundary h =>
    rcases stepBoundary_cases hstep with ⟨hk, hm⟩ | ⟨hk, hm⟩ | ⟨hk, hm⟩ | ⟨hk, hm⟩ | ⟨hk, hm⟩ |
      ⟨hk, hm⟩ <;> cases hm
    · exact .assignSign h hk
    · exact .relation h (.branch hk)
    · exact .relation h (.loopWhile hk)
    · exact .printOpen h hk
    · exact .boundary (h.enter (.loopUntil hk))
    · exact h.close hk
  | assignSign h hx =>
    obtain ⟨hk, rfl⟩ := expect_eq_next_iff.1 hstep
    have hnext := ParseState.Spelled.operand h (.assign hx hk) .nil
    rwa [List.append_assoc]
  | printOpen h hword =>
    obtain ⟨hk, rfl⟩ := expect_eq_next_iff.1 hstep
    have hnext := ParseState.Spelled.operand h (.print hword hk) .nil
    rwa [List.append_assoc]
  | operand h hgoal hholes =>
    rw [List.append_assoc, List.append_assoc]
    rcases stepOperand_cases hstep with ⟨hk, hm⟩ | ⟨n, hk, hn, hle, hm⟩ | ⟨op, hk, hm⟩ <;> cases hm
    · exact Expr.Spelled.supply (.var hk) h hgoal hholes
    · exact Expr.Spelled.supply (.lit hk hn hle) h hgoal hholes
    · exact .operand h hgoal (.cons hholes (.left hk))
  | printClose h hword hopening hv =>
    obtain ⟨hk, rfl⟩ := expect_eq_next_iff.1 hstep
    have hnext := h.push (.print hword hopening hv hk)
    rw [List.append_assoc]
    exact .boundary hnext
  | relation h huse =>
    simp only [ParseState.step] at hstep
    split at hstep
    · rename_i op hop
      cases hstep
      have hnext := ParseState.Spelled.operand h (.compareLeft huse hop) .nil
      rwa [List.append_nil, ← List.append_assoc] at hnext
    · cases hstep
  | thenWord h hword hc =>
    obtain ⟨hk, rfl⟩ := expect_eq_next_iff.1 hstep
    have hnext := h.enter (.onTrue hword hc hk)
    rw [List.append_assoc]
    exact .boundary hnext
  | doWord h hword hc =>
    obtain ⟨hk, rfl⟩ := expect_eq_next_iff.1 hstep
    have hnext := h.enter (.loopWhile hword hc hk)
    rw [List.append_assoc]
    exact .boundary hnext
  | finish h =>
    simp only [ParseState.step] at hstep
    split at hstep <;> cases hstep

/-- Every advance keeps the reading. -/
theorem ParseState.Spelled.advances {ts us : List Token} {s s' : ParseState}
    (h : ParseState.Spelled ts s) (hadv : Advances s us s') :
    ParseState.Spelled (ts ++ us) s' := by
  induction hadv generalizing ts with
  | refl s => rwa [List.append_nil]
  | head hstep _ ih =>
    have hnext := ih (h.step hstep)
    rwa [List.append_assoc] at hnext

/-- The machine advances over exactly the programs of the grammar. -/
theorem advances_finish_iff_spelled {ts : List Token} {p : Program} :
    Advances .start ts (.finish p) ↔ Program.Spelled ts p := by
  constructor
  · intro hadv
    have h := ParseState.Spelled.advances .start hadv
    cases h with
    | finish h => exact h
  · intro h
    exact h.advances

/-- Tokens spell one program at most. -/
theorem Program.Spelled.unique {ts : List Token} {p q : Program} (h : Program.Spelled ts p)
    (h' : Program.Spelled ts q) : p = q := by
  have heq := h.advances.unique h'.advances
  cases heq
  rfl

/-! ## Texts -/

/-- A text that has tokens is read by a run over them. -/
theorem Program.ofBytes?_eq_run {bytes : Bytes} {ts : List Token}
    (h : TokenQueue.tokens? bytes = .ok ts) :
    Program.ofBytes? bytes = (ParseState.run .start ts).1.mapError .syntactic := by
  unfold TokenQueue.tokens? at h
  unfold Program.ofBytes?
  cases hq : TokenQueue.ofBytes bytes with
  | error e =>
    rw [hq] at h
    cases h
  | ok q =>
    rw [hq] at h
    cases h
    rfl

/-- A text that has tokens is read as a program exactly when the machine advances over the tokens
before the end of the stream. -/
theorem Program.ofBytes?_eq_ok_iff_advances {bytes : Bytes} {ts : List Token} {last : Token}
    {p : Program} (h : TokenQueue.tokens? bytes = .ok (ts ++ [last])) :
    Program.ofBytes? bytes = .ok p ↔ Advances .start ts (.finish p) := by
  obtain ⟨⟨lines, rfl⟩, hclass⟩ := TokenQueue.tokens?_append h
  have hrun := run_append_last_eq_ok_iff (s := .start) (p := p)
    (fun t ht => (hclass t ht).kind_ne_endOfStream)
    (show (TokenQueue.endToken lines).kind = .endOfStream from rfl)
  rw [← hrun, Program.ofBytes?_eq_run h]
  cases (ParseState.run .start (ts ++ [TokenQueue.endToken lines])).1 with
  | error e =>
    constructor
    · intro hok
      cases hok
    · intro hok
      cases hok
  | ok q =>
    constructor
    · intro hok
      cases hok
      rfl
    · intro hok
      cases hok
      rfl

/-- Reading accepts exactly the grammar. The tokens of a text end with the end of the stream, and
the text is read as a program exactly when the tokens before it spell that program. No tokens spell
two programs. And tokens that spell a program are read to their end with the end of the stream
behind them, whatever comes later: that blocks take every statement they can never loses a
program. -/
theorem Program.ofBytes?_eq_ok_iff_spelled :
    (∀ (bytes : Bytes) (all : List Token), TokenQueue.tokens? bytes = .ok all →
      ∃ ts last, all = ts ++ [last] ∧ last.kind = .endOfStream ∧
        ∀ p, Program.ofBytes? bytes = .ok p ↔ Program.Spelled ts p) ∧
    (∀ (ts : List Token) (p q : Program),
      Program.Spelled ts p → Program.Spelled ts q → p = q) ∧
    (∀ (ts rest : List Token) (last : Token) (p : Program),
      Program.Spelled ts p → last.kind = .endOfStream →
        ParseState.run .start (ts ++ last :: rest) = (.ok p, rest)) := by
  refine ⟨?_, fun ts p q => Program.Spelled.unique, ?_⟩
  · intro bytes all h
    obtain ⟨ts, lines, rfl, -, -⟩ := TokenQueue.tokens?_spec h
    refine ⟨ts, TokenQueue.endToken lines, rfl, rfl, fun p => ?_⟩
    rw [Program.ofBytes?_eq_ok_iff_advances h, advances_finish_iff_spelled]
  · intro ts rest last p h hlast
    exact run_eq_ok_iff.2 ⟨ts, last, rfl, hlast, h.advances⟩

/-- An assignment on a line of its own, with zeros in front of its number. -/
theorem Program.ofBytes?_assignment :
    ∃ (ts : List Token) (last : Token) (p : Program),
      TokenQueue.tokens? (Text.encode "function f ( )\n  x = 007\nend") = .ok (ts ++ [last]) ∧
      p = { name := some ⟨102, false⟩, body := .seq [.assign ⟨120, false⟩ (.lit 7)] } ∧
      Program.ofBytes? (Text.encode "function f ( )\n  x = 007\nend") = .ok p ∧
      (∀ q, Program.Spelled ts q → p = q) ∧
      ParseState.run .start (ts ++ [last]) = (.ok p, []) := by
  have htokens : TokenQueue.tokens? (Text.encode "function f ( )\n  x = 007\nend") = .ok
      ([⟨.functionWord, "function", 1, 1⟩, ⟨.identifier, "f", 1, 10⟩, ⟨.leftParen, "(", 1, 12⟩,
        ⟨.rightParen, ")", 1, 14⟩, ⟨.identifier, "x", 2, 3⟩, ⟨.assign, "=", 2, 5⟩,
        ⟨.integer, "007", 2, 7⟩, ⟨.endWord, "end", 3, 1⟩] ++ [⟨.endOfStream, "EOS", 3, 1⟩]) :=
    TokenQueue.eq_ok_of_toOption (by decide +kernel)
  have hnumber : Expr.Spelled [⟨.integer, "007", 2, 7⟩] (.lit 7) :=
    .lit (n := 7) rfl rfl (by decide)
  have hassign : Stmt.Spelled [⟨.identifier, "x", 2, 3⟩, ⟨.assign, "=", 2, 5⟩,
      ⟨.integer, "007", 2, 7⟩] (.assign ⟨120, false⟩ (.lit 7)) :=
    .assign (x := ⟨.identifier, "x", 2, 3⟩) rfl rfl hnumber
  have hbody : Stmts.Spelled [⟨.identifier, "x", 2, 3⟩, ⟨.assign, "=", 2, 5⟩,
      ⟨.integer, "007", 2, 7⟩] [.assign ⟨120, false⟩ (.lit 7)] := .cons hassign .nil
  obtain ⟨hread, hunique, hrun⟩ := Program.ofBytes?_eq_ok_iff_spelled
  obtain ⟨ts, last, heq, hlast, hiff⟩ := hread _ _ htokens
  obtain ⟨rfl, -⟩ := List.append_inj' heq rfl
  have hprogram := (hiff _).2 (.intro rfl rfl rfl rfl hbody rfl)
  have hspelled := (hiff _).1 hprogram
  exact ⟨_, last, _, heq ▸ htokens, rfl, hprogram, fun q => hunique _ _ q hspelled,
    hrun _ [] last _ hspelled hlast⟩

end MiniLua

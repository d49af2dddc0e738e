import MiniLua.Proofs.Derivation
import MiniLua.Proofs.Layout
import MiniLua.Proofs.Places
import MiniLua.Syntax.Desugar
import MiniLua.Syntax.WellFormed

/-!
# Trees and their words

The words of a well-formed tree, read as tokens, spell the tree without its negative literals.

Tokens are compared by kind and lexeme only. Where a token stands decides nothing but the place of
an error.

## Delivered

- `Token.view`: kind and lexeme; `Program.Spelled.of_view`: nothing else of a token matters.
- `Program.words`, `Program.layout_words`: the words of a tree, and that its lines hold them.
- `Expr.exists_spelled`, `Stmt.exists_spelled`, `Program.exists_spelled`: from trees to tokens.
-/

set_option autoImplicit false

namespace MiniLua

open ParseState

/-! ## Kind and lexeme -/

/-- The kind and the lexeme of a token, without its place. -/
def Token.view (t : Token) : Kind × String :=
  (t.kind, t.lexeme)

/-- A token that moves the machine does so wherever it stands. -/
theorem step_of_view {s s' : ParseState} {t u : Token} (h : t.view = u.view)
    (hstep : s.step t = .ok (.next s')) : s.step u = .ok (.next s') := by
  obtain ⟨hkind, hlexeme⟩ := Prod.mk.inj h
  have halike := step_alike hkind hlexeme s
  rw [hstep] at halike
  generalize s.step u = r at halike
  cases halike with
  | ok hmove => rw [hmove]

/-- An advance depends on the views of its tokens only. -/
theorem Advances.of_view {s s' : ParseState} {ts us : List Token}
    (h : ts.map Token.view = us.map Token.view) (hadv : Advances s ts s') : Advances s us s' := by
  induction hadv generalizing us with
  | refl s =>
    cases us with
    | nil => exact .refl s
    | cons u us => cases h
  | head hstep _ ih =>
    cases us with
    | nil => cases h
    | cons u us =>
      obtain ⟨hview, hrest⟩ := List.cons.inj h
      exact .head (step_of_view hview hstep) (ih hrest)

/-- The program that tokens spell depends on their views only. -/
theorem Program.Spelled.of_view {ts us : List Token} {p : Program}
    (h : ts.map Token.view = us.map Token.view) (hp : Program.Spelled ts p) :
    Program.Spelled us p :=
  advances_finish_iff_spelled.1 (Advances.of_view h hp.advances)

/-- A classified token is known by its lexeme. -/
theorem map_view_eq_of_map_lexeme_eq {ts us : List Token} (hts : ∀ t ∈ ts, t.IsClassified)
    (hus : ∀ u ∈ us, u.IsClassified)
    (h : ts.map (fun t => t.lexeme.toList) = us.map (fun u => u.lexeme.toList)) :
    ts.map Token.view = us.map Token.view := by
  induction ts generalizing us with
  | nil =>
    cases us with
    | nil => rfl
    | cons u us => cases h
  | cons t ts ih =>
    cases us with
    | nil => cases h
    | cons u us =>
      obtain ⟨hhead, hrest⟩ := List.cons.inj h
      have hlexeme : t.lexeme.toList = u.lexeme.toList := hhead
      have ht := hts t List.mem_cons_self
      have hu := hus u List.mem_cons_self
      have hkind : t.kind = u.kind := by
        rw [Token.IsClassified, hlexeme] at ht
        exact Except.ok.inj (ht.symm.trans hu)
      have hview : t.view = u.view := Prod.ext hkind (String.toList_inj.1 hlexeme)
      have htail := ih (fun t' ht' => hts t' (List.mem_cons_of_mem t ht'))
        (fun u' hu' => hus u' (List.mem_cons_of_mem u hu')) hrest
      rw [List.map_cons, List.map_cons, hview, htail]

/-! ## Tokens of words -/

/-- The token of a name. -/
def Ident.token (x : Ident) : Token :=
  ⟨.identifier, x.text, 1, 1⟩

/-- The token of a number. -/
def numeralToken (n : Nat) : Token :=
  ⟨.integer, numeral n, 1, 1⟩

/-- A byte is the code of a character. -/
theorem toNat_charOfByte (b : UInt8) : (Char.ofNat b.toNat).toNat = b.toNat := by
  have hvalid : b.toNat.isValidChar := .inl (Nat.lt_of_lt_of_le b.toNat_lt (by decide))
  rw [Char.ofNat, dif_pos hvalid]
  rfl

/-- A well-formed name is a letter. -/
theorem Ident.isLetter_of_isWellFormed {x : Ident} (h : x.isWellFormed = true) :
    Lexeme.isLetter (Char.ofNat x.letter.toNat) = true := by
  simp only [Ident.isWellFormed, Bool.and_eq_true] at h
  exact h.1

theorem Ident.isClassified_token {x : Ident} (h : x.isWellFormed = true) :
    x.token.IsClassified := by
  refine Lexeme.classify_eq_ok_iff.2 (.inr (.inl ⟨rfl, Char.ofNat x.letter.toNat, ?_, ?_⟩))
  · exact String.toList_singleton _
  · exact Ident.isLetter_of_isWellFormed h

/-- Reading the token of a name gives the name. -/
theorem Ident.ident_token {x : Ident} (h : x.isWellFormed = true) : x.token.ident = x := by
  obtain ⟨letter, bare⟩ := x
  simp only [Ident.isWellFormed, Bool.and_eq_true, Bool.not_eq_true'] at h
  obtain ⟨-, rfl⟩ := h
  simp only [Token.ident, Ident.token, Ident.text, String.toList_singleton, toNat_charOfByte,
    Nat.toUInt8, UInt8.ofNat_toNat]

/-- The characters of a numeral. -/
theorem toList_numeral (n : Nat) : (numeral n).toList = Nat.toDigits 10 n :=
  String.toList_ofList

theorem isClassified_numeralToken (n : Nat) : (numeralToken n).IsClassified := by
  have htext : (numeralToken n).lexeme.toList = Nat.toDigits 10 n := toList_numeral n
  rw [Token.IsClassified, htext]
  exact Lexeme.classify_toDigits n

/-- The token of a number that is not too large spells its literal. -/
theorem spelled_numeralToken {n : Nat} (hn : n ≤ maxLiteral) :
    Expr.Spelled [numeralToken n] (.lit (Int32.ofNat n)) := by
  refine .lit rfl ?_ hn
  have htext : (numeralToken n).lexeme.toList = Nat.toDigits 10 n := toList_numeral n
  rw [htext, Text.natural?_toDigits]

/-- An operator has a symbol of its own. -/
theorem ArithOp.exists_kind {op : ArithOp} (h : op.isValid = true) :
    ∃ k ∈ Kind.keywords ++ Kind.symbols, ArithOp.ofKind? k = some op ∧ k.name = op.text := by
  cases op with
  | add => exact ⟨.plus, by decide, rfl, rfl⟩
  | sub => exact ⟨.minus, by decide, rfl, rfl⟩
  | mul => exact ⟨.times, by decide, rfl, rfl⟩
  | div => exact ⟨.divide, by decide, rfl, rfl⟩
  | other text => cases h

/-- A relation has a symbol of its own. -/
theorem RelOp.exists_kind {op : RelOp} (h : op.isValid = true) :
    ∃ k ∈ Kind.keywords ++ Kind.symbols, RelOp.ofKind? k = some op ∧ k.name = op.text := by
  cases op with
  | eq => exact ⟨.equal, by decide, rfl, rfl⟩
  | ne => exact ⟨.unequal, by decide, rfl, rfl⟩
  | lt => exact ⟨.less, by decide, rfl, rfl⟩
  | le => exact ⟨.lessEqual, by decide, rfl, rfl⟩
  | gt => exact ⟨.greater, by decide, rfl, rfl⟩
  | ge => exact ⟨.greaterEqual, by decide, rfl, rfl⟩
  | other text => cases h

/-! ## Words of trees -/

/-- The words of an expression come before what follows them. -/
theorem Expr.words_append (e : Expr) (rest : List String) : e.words rest = e.words [] ++ rest := by
  induction e generalizing rest with
  | missing => rfl
  | var x => rfl
  | lit value => simp [Expr.words]
  | binary op left right bare ihl ihr =>
    rw [Expr.words, Expr.words, ihl, ihr, ihl (right.words []), List.cons_append,
      List.append_assoc]

/-- The words of a condition come before what follows them. -/
theorem Cond.words_append (c : Cond) (rest : List String) : c.words rest = c.words [] ++ rest := by
  cases c with
  | missing => rfl
  | compare op left right bare =>
    rw [Cond.words, Cond.words, left.words_append, right.words_append,
      left.words_append (right.words []), List.cons_append, List.append_assoc]

mutual

/-- The words of a statement, without its lines. -/
def Stmt.words : Stmt → List String
  | .missing => []
  | .assign target value _ => target.text :: "=" :: value.words []
  | .print value _ => "print" :: "(" :: (value.words [] ++ [")"])
  | .branch cond onTrue onFalse _ =>
    "if" :: (cond.words [] ++ "then" :: (onTrue.words ++ "else" :: (onFalse.words ++ ["end"])))
  | .loopWhile cond body _ => "while" :: (cond.words [] ++ "do" :: (body.words ++ ["end"]))
  | .loopUntil body cond _ => "repeat" :: (body.words ++ "until" :: cond.words [])

/-- The words of a block, without its lines. -/
def Block.words : Block → List String
  | .missing => []
  | .seq stmts _ => wordsAll stmts

/-- The words of statements one after the other. -/
def wordsAll : List Stmt → List String
  | [] => []
  | stmt :: stmts => stmt.words ++ wordsAll stmts

end

mutual

/-- The lines of a statement hold its words. -/
theorem Stmt.layout_words : ∀ (s : Stmt) (depth : Nat) (rest : List Line),
    (s.layout depth rest).flatMap Line.words = s.words ++ rest.flatMap Line.words
  | .missing, depth, rest => by simp [Stmt.layout, Stmt.words]
  | .assign target value bare, depth, rest => by simp [Stmt.layout, Stmt.words]
  | .print value bare, depth, rest => by
    simp [Stmt.layout, Stmt.words, value.words_append [")"]]
  | .branch cond onTrue onFalse bare, depth, rest => by
    simp [Stmt.layout, Stmt.words, cond.words_append ["then"], Block.layout_words]
  | .loopWhile cond body bare, depth, rest => by
    simp [Stmt.layout, Stmt.words, cond.words_append ["do"], Block.layout_words]
  | .loopUntil body cond bare, depth, rest => by
    simp [Stmt.layout, Stmt.words, Block.layout_words]

/-- The lines of a block hold its words. -/
theorem Block.layout_words : ∀ (b : Block) (depth : Nat) (rest : List Line),
    (b.layout depth rest).flatMap Line.words = b.words ++ rest.flatMap Line.words
  | .missing, depth, rest => by simp [Block.layout, Block.words]
  | .seq stmts bare, depth, rest => by
    rw [Block.layout, Block.words, layoutAll_words]

/-- The lines of statements hold their words. -/
theorem layoutAll_words : ∀ (stmts : List Stmt) (depth : Nat) (rest : List Line),
    (layoutAll stmts depth rest).flatMap Line.words = wordsAll stmts ++ rest.flatMap Line.words
  | [], depth, rest => by simp [layoutAll, wordsAll]
  | s :: stmts, depth, rest => by
    rw [layoutAll, wordsAll, Stmt.layout_words, layoutAll_words, List.append_assoc]

end

/-- The words of a program. -/
def Program.words (p : Program) : List String :=
  "function" :: p.title :: "(" :: ")" :: (p.body.words ++ ["end"])

/-- The lines of a program hold its words. -/
theorem Program.layout_words (p : Program) : p.layout.flatMap Line.words = p.words := by
  simp [Program.layout, Program.words, Block.layout_words]

/-! ## From trees to tokens -/

/-- Classified tokens with the given lexemes. -/
def Say (ts : List Token) (words : List String) : Prop :=
  (∀ t ∈ ts, t.IsClassified) ∧ ts.map Token.lexeme = words

theorem Say.nil : Say [] [] :=
  ⟨by simp, rfl⟩

theorem Say.cons {t : Token} {ts : List Token} {words : List String} (ht : t.IsClassified)
    (h : Say ts words) : Say (t :: ts) (t.lexeme :: words) := by
  obtain ⟨hts, rfl⟩ := h
  exact ⟨List.forall_mem_cons.2 ⟨ht, hts⟩, rfl⟩

theorem Say.append {ts us : List Token} {words words' : List String} (h : Say ts words)
    (h' : Say us words') : Say (ts ++ us) (words ++ words') := by
  obtain ⟨hts, rfl⟩ := h
  obtain ⟨hus, rfl⟩ := h'
  exact ⟨List.forall_mem_append.2 ⟨hts, hus⟩, List.map_append⟩

/-- What tokens say are words. -/
theorem Say.isWord {ts : List Token} {words : List String} (h : Say ts words) :
    ∀ w ∈ words, Lexeme.IsWord w.toList := by
  obtain ⟨hts, rfl⟩ := h
  intro w hw
  obtain ⟨t, ht, rfl⟩ := List.mem_map.1 hw
  exact ⟨t.kind, hts t ht⟩

/-- The words of a literal spell its tree. -/
theorem exists_spelled_literal (value : Int32) :
    ∃ ts, Say ts (literalWords value) ∧ Expr.Spelled ts (literalTree value) := by
  have hlt := value.toInt_lt
  have hge := value.le_toInt
  have hminus : Kind.minus.token.IsClassified := Kind.isClassified_token (by decide)
  unfold literalWords literalTree
  by_cases hpos : 0 ≤ value.toInt
  · have hback : Int32.ofNat value.toInt.toNat = value := by
      rw [← Int32.ofInt_eq_ofNat, Int.toNat_of_nonneg hpos, Int32.ofInt_toInt]
    have hspelled := spelled_numeralToken (n := value.toInt.toNat) (by unfold maxLiteral; omega)
    rw [hback] at hspelled
    rw [if_pos hpos, if_pos hpos]
    exact ⟨_, .cons (isClassified_numeralToken _) .nil, hspelled⟩
  · rw [if_neg hpos, if_neg hpos]
    by_cases hmin : value.toInt = -2147483648
    -- its absolute value is too large for a literal
    · rw [if_pos hmin, if_pos hmin]
      refine ⟨[Kind.minus.token, Kind.minus.token, numeralToken 0, numeralToken 2147483647,
        numeralToken 1], ?_, ?_⟩
      · exact .cons hminus (.cons hminus (.cons (isClassified_numeralToken 0)
          (.cons (isClassified_numeralToken _) (.cons (isClassified_numeralToken 1) .nil))))
      · have hinner := Expr.Spelled.binary (t := Kind.minus.token) rfl
          (spelled_numeralToken (n := 0) (by decide))
          (spelled_numeralToken (n := 2147483647) (by decide))
        exact .binary rfl hinner (spelled_numeralToken (by decide))
    · have hback : Int32.ofNat (-value.toInt).toNat = -value := by
        rw [← Int32.ofInt_eq_ofNat, Int.toNat_of_nonneg (by omega), Int32.ofInt_neg,
          Int32.ofInt_toInt]
      have hspelled := spelled_numeralToken (n := (-value.toInt).toNat)
        (by unfold maxLiteral; omega)
      rw [hback] at hspelled
      rw [if_neg hmin, if_neg hmin]
      refine ⟨[Kind.minus.token, numeralToken 0, numeralToken (-value.toInt).toNat], ?_, ?_⟩
      · exact .cons hminus (.cons (isClassified_numeralToken 0)
          (.cons (isClassified_numeralToken _) .nil))
      · exact .binary rfl (spelled_numeralToken (by decide)) hspelled

/-- The words of a well-formed expression spell it without its negative literals. -/
theorem Expr.exists_spelled {e : Expr} (h : e.isWellFormed = true) :
    ∃ ts, Say ts (e.words []) ∧ Expr.Spelled ts e.desugar := by
  induction e with
  | missing => cases h
  | var x =>
    have hspelled := Expr.Spelled.var (t := x.token) rfl
    rw [Ident.ident_token h] at hspelled
    exact ⟨[x.token], .cons (Ident.isClassified_token h) .nil, hspelled⟩
  | lit value =>
    obtain ⟨ts, hsay, hspelled⟩ := exists_spelled_literal value
    exact ⟨ts, by rwa [Expr.words, List.append_nil], hspelled⟩
  | binary op left right bare ihl ihr =>
    simp only [Expr.isWellFormed, Bool.and_eq_true, Bool.not_eq_true'] at h
    obtain ⟨⟨⟨hop, hl⟩, hr⟩, rfl⟩ := h
    obtain ⟨k, hmem, hkind, hname⟩ := ArithOp.exists_kind hop
    obtain ⟨ls, hls, hleft⟩ := ihl hl
    obtain ⟨rs, hrs, hright⟩ := ihr hr
    refine ⟨k.token :: (ls ++ rs), ?_, .binary hkind hleft hright⟩
    have hsay := Say.cons (Kind.isClassified_token hmem) (hls.append hrs)
    rwa [← left.words_append, show k.token.lexeme = op.text from hname] at hsay

/-- The words of a well-formed condition spell it without its negative literals. -/
theorem Cond.exists_spelled {c : Cond} (h : c.isWellFormed = true) :
    ∃ ts, Say ts (c.words []) ∧ Cond.Spelled ts c.desugar := by
  cases c with
  | missing => cases h
  | compare op left right bare =>
    simp only [Cond.isWellFormed, Bool.and_eq_true, Bool.not_eq_true'] at h
    obtain ⟨⟨⟨hop, hl⟩, hr⟩, rfl⟩ := h
    obtain ⟨k, hmem, hkind, hname⟩ := RelOp.exists_kind hop
    obtain ⟨ls, hls, hleft⟩ := Expr.exists_spelled hl
    obtain ⟨rs, hrs, hright⟩ := Expr.exists_spelled hr
    refine ⟨k.token :: (ls ++ rs), ?_, .compare hkind hleft hright⟩
    have hsay := Say.cons (Kind.isClassified_token hmem) (hls.append hrs)
    rwa [← left.words_append, show k.token.lexeme = op.text from hname] at hsay

/-- The token of a keyword or a symbol says its name. -/
theorem Say.cons_name {k : Kind} (hk : k ∈ Kind.keywords ++ Kind.symbols) {ts : List Token}
    {words : List String} (h : Say ts words) : Say (k.token :: ts) (k.name :: words) :=
  .cons (Kind.isClassified_token hk) h

mutual

/-- The words of a well-formed statement spell it without its negative literals. -/
theorem Stmt.exists_spelled : ∀ {s : Stmt}, s.isWellFormed = true →
    ∃ ts, Say ts s.words ∧ Stmt.Spelled ts s.desugar
  | .missing, h => by simp [Stmt.isWellFormed] at h
  | .assign target value bare, h => by
    simp only [Stmt.isWellFormed, Bool.and_eq_true, Bool.not_eq_true'] at h
    obtain ⟨⟨hx, hv⟩, rfl⟩ := h
    obtain ⟨vs, hvs, hvalue⟩ := Expr.exists_spelled hv
    have hspelled : Stmt.Spelled (target.token :: Kind.assign.token :: vs)
        (.assign target.token.ident value.desugar) := .assign rfl rfl hvalue
    rw [Ident.ident_token hx] at hspelled
    exact ⟨_, .cons (Ident.isClassified_token hx) (.cons_name (by decide) hvs), hspelled⟩
  | .print value bare, h => by
    simp only [Stmt.isWellFormed, Bool.and_eq_true, Bool.not_eq_true'] at h
    obtain ⟨hv, rfl⟩ := h
    obtain ⟨vs, hvs, hvalue⟩ := Expr.exists_spelled hv
    refine ⟨Kind.printWord.token :: Kind.leftParen.token :: (vs ++ [Kind.rightParen.token]), ?_,
      .print rfl rfl hvalue rfl⟩
    exact .cons_name (by decide) (.cons_name (by decide)
      (hvs.append (.cons_name (by decide) .nil)))
  | .branch cond onTrue onFalse bare, h => by
    simp only [Stmt.isWellFormed, Bool.and_eq_true, Bool.not_eq_true'] at h
    obtain ⟨⟨⟨hc, ht⟩, hf⟩, rfl⟩ := h
    obtain ⟨cs, hcs, hcond⟩ := Cond.exists_spelled hc
    obtain ⟨ts, yes, hts, hyes, htrue⟩ := Block.exists_spelled ht
    obtain ⟨es, no, hes, hno, hfalse⟩ := Block.exists_spelled hf
    rw [Stmt.desugar, htrue, hfalse]
    refine ⟨Kind.ifWord.token :: (cs ++ Kind.thenWord.token ::
      (ts ++ Kind.elseWord.token :: (es ++ [Kind.endWord.token]))), ?_,
      .branch rfl hcond rfl hyes rfl hno rfl⟩
    exact .cons_name (by decide) (hcs.append (.cons_name (by decide)
      (hts.append (.cons_name (by decide) (hes.append (.cons_name (by decide) .nil))))))
  | .loopWhile cond body bare, h => by
    simp only [Stmt.isWellFormed, Bool.and_eq_true, Bool.not_eq_true'] at h
    obtain ⟨⟨hc, hb⟩, rfl⟩ := h
    obtain ⟨cs, hcs, hcond⟩ := Cond.exists_spelled hc
    obtain ⟨ts, stmts, hts, hstmts, hbody⟩ := Block.exists_spelled hb
    rw [Stmt.desugar, hbody]
    refine ⟨Kind.whileWord.token :: (cs ++ Kind.doWord.token :: (ts ++ [Kind.endWord.token])), ?_,
      .loopWhile rfl hcond rfl hstmts rfl⟩
    exact .cons_name (by decide) (hcs.append (.cons_name (by decide)
      (hts.append (.cons_name (by decide) .nil))))
  | .loopUntil body cond bare, h => by
    simp only [Stmt.isWellFormed, Bool.and_eq_true, Bool.not_eq_true'] at h
    obtain ⟨⟨hb, hc⟩, rfl⟩ := h
    obtain ⟨cs, hcs, hcond⟩ := Cond.exists_spelled hc
    obtain ⟨ts, stmts, hts, hstmts, hbody⟩ := Block.exists_spelled hb
    rw [Stmt.desugar, hbody]
    refine ⟨Kind.repeatWord.token :: (ts ++ Kind.untilWord.token :: cs), ?_,
      .loopUntil rfl hstmts rfl hcond⟩
    exact .cons_name (by decide) (hts.append (.cons_name (by decide) hcs))

/-- The words of a well-formed block spell its statements without their negative literals. -/
theorem Block.exists_spelled : ∀ {b : Block}, b.isWellFormed = true →
    ∃ ts stmts, Say ts b.words ∧ Stmts.Spelled ts stmts ∧ b.desugar = .seq stmts
  | .missing, h => by simp [Block.isWellFormed] at h
  | .seq stmts bare, h => by
    simp only [Block.isWellFormed, Bool.and_eq_true, Bool.not_eq_true'] at h
    obtain ⟨hs, rfl⟩ := h
    obtain ⟨ts, hts, hspelled⟩ := exists_spelled_all hs
    exact ⟨ts, desugarAll stmts, hts, hspelled, rfl⟩

/-- The words of well-formed statements spell them without their negative literals. -/
theorem exists_spelled_all : ∀ {stmts : List Stmt}, areWellFormed stmts = true →
    ∃ ts, Say ts (wordsAll stmts) ∧ Stmts.Spelled ts (desugarAll stmts)
  | [], _ => ⟨[], .nil, .nil⟩
  | s :: stmts, h => by
    simp only [areWellFormed, Bool.and_eq_true] at h
    obtain ⟨ts, hts, hs⟩ := Stmt.exists_spelled h.1
    obtain ⟨us, hus, hstmts⟩ := exists_spelled_all h.2
    exact ⟨ts ++ us, hts.append hus, .cons hs hstmts⟩

end

/-- The words of a well-formed program spell it without its negative literals and with a name. -/
theorem Program.exists_spelled {p : Program} (h : p.isWellFormed = true) :
    ∃ ts, Say ts p.words ∧ Program.Spelled ts p.desugar := by
  obtain ⟨name, body, bare⟩ := p
  simp only [Program.isWellFormed, Bool.and_eq_true, Bool.not_eq_true'] at h
  obtain ⟨⟨hname, hb⟩, rfl⟩ := h
  obtain ⟨ts, stmts, hts, hstmts, hbody⟩ := Block.exists_spelled hb
  -- a program without a name is laid out under the stand-in, which is itself a well-formed name
  have htitle : (name.getD standInName).isWellFormed = true := by
    cases name with
    | none => rfl
    | some x => exact hname
  have htext : (name.getD standInName).text = Program.title ⟨name, body, false⟩ := by
    cases name with
    | none => rfl
    | some x => rfl
  refine ⟨Kind.functionWord.token :: (name.getD standInName).token :: Kind.leftParen.token ::
    Kind.rightParen.token :: (ts ++ [Kind.endWord.token]), ?_, ?_⟩
  · rw [Program.words, ← htext]
    exact .cons_name (by decide) (.cons (Ident.isClassified_token htitle)
      (.cons_name (by decide) (.cons_name (by decide) (hts.append (.cons_name (by decide) .nil)))))
  · have hspelled : Program.Spelled (Kind.functionWord.token :: (name.getD standInName).token ::
        Kind.leftParen.token :: Kind.rightParen.token :: (ts ++ [Kind.endWord.token]))
        { name := some (name.getD standInName).token.ident, body := .seq stmts } :=
      .intro rfl rfl rfl rfl hstmts rfl
    rw [Ident.ident_token htitle, ← hbody] at hspelled
    exact hspelled

end MiniLua

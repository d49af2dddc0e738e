import MiniLua.Proofs.Spelling

/-!
# Trees that tokens spell

A tree that tokens of a text spell is well formed and has no negative literals, so it is the tree
that its own text spells. Its words are the lexemes of the tokens, except that numerals have lost
their superfluous zeros.

## Delivered

- `Program.Spelled.isWellFormed`, `Program.Spelled.desugar_eq`: what a spelled tree is like.
- `Token.canonical`: a token with the numeral that is written for its value.
- `Program.Spelled.say`: the canonical tokens of a tree say its words.
-/

set_option autoImplicit false

namespace MiniLua

/-! ## Classified tokens -/

/-- The lexeme of a keyword or a symbol is its name. -/
theorem Token.IsClassified.lexeme_eq_name {t : Token} (h : t.IsClassified)
    (hk : t.kind ∈ Kind.keywords ++ Kind.symbols) : t.lexeme = t.kind.name := by
  rcases Lexeme.classify_eq_ok_iff.1 h with ⟨hkind, -⟩ | ⟨hkind, -⟩ | ⟨-, hname⟩
  · exact absurd hk (by rw [hkind]; decide)
  · exact absurd hk (by rw [hkind]; decide)
  · exact String.toList_inj.1 hname

/-- The name that an identifier token stands for is a letter, and is written as the token. -/
theorem Token.IsClassified.ident_spec {t : Token} (h : t.IsClassified)
    (hk : t.kind = .identifier) : t.ident.isWellFormed = true ∧ t.ident.text = t.lexeme := by
  rcases Lexeme.classify_eq_ok_iff.1 h with ⟨hkind, -⟩ | ⟨-, c, hchars, hletter⟩ | ⟨hmem, -⟩
  · exact absurd (hk.symm.trans hkind) (by decide)
  · have hcode := Lexeme.isLetter_iff.1 hletter
    have hback : Char.ofNat c.toNat.toUInt8.toNat = c := by
      rw [Text.toNat_toUInt8_of_ascii (by omega), Char.ofNat_toNat]
    have hident : t.ident = ⟨c.toNat.toUInt8, false⟩ := by rw [Token.ident, hchars]
    rw [hident]
    refine ⟨?_, ?_⟩
    · rw [Ident.isWellFormed, isVariable, hback, hletter]
      rfl
    · rw [Ident.text, hback, ← String.toList_inj, String.toList_singleton, hchars]
  · exact absurd hmem (by rw [hk]; decide)

/-- The kinds of arithmetic operators are symbols with the texts of the operators. -/
theorem ArithOp.ofKind?_spec {k : Kind} {op : ArithOp} (h : ArithOp.ofKind? k = some op) :
    k ∈ Kind.keywords ++ Kind.symbols ∧ k.name = op.text ∧ op.isValid = true := by
  cases k
  case plus | minus | times | divide =>
    cases h
    decide
  all_goals cases h

/-- The kinds of relations are symbols with the texts of the relations. -/
theorem RelOp.ofKind?_spec {k : Kind} {op : RelOp} (h : RelOp.ofKind? k = some op) :
    k ∈ Kind.keywords ++ Kind.symbols ∧ k.name = op.text ∧ op.isValid = true := by
  cases k
  case equal | unequal | less | lessEqual | greater | greaterEqual =>
    cases h
    decide
  all_goals cases h

/-! ## Spelled trees are well formed -/

theorem Expr.Spelled.isWellFormed {ts : List Token} {e : Expr} (h : Expr.Spelled ts e)
    (hts : ∀ t ∈ ts, t.IsClassified) : e.isWellFormed = true := by
  induction h with
  | var kind => exact ((hts _ List.mem_cons_self).ident_spec kind).1
  | lit kind value bound => rfl
  | binary kind hl hr ihl ihr =>
    simp only [List.forall_mem_cons, List.forall_mem_append] at hts
    simp [Expr.isWellFormed, (ArithOp.ofKind?_spec kind).2.2, ihl hts.2.1, ihr hts.2.2]

theorem Cond.Spelled.isWellFormed {ts : List Token} {c : Cond} (h : Cond.Spelled ts c)
    (hts : ∀ t ∈ ts, t.IsClassified) : c.isWellFormed = true := by
  cases h with
  | compare kind hl hr =>
    simp only [List.forall_mem_cons, List.forall_mem_append] at hts
    simp [Cond.isWellFormed, (RelOp.ofKind?_spec kind).2.2, hl.isWellFormed hts.2.1,
      hr.isWellFormed hts.2.2]

mutual

theorem Stmt.Spelled.isWellFormed : ∀ {ts : List Token} {s : Stmt}, Stmt.Spelled ts s →
    (∀ t ∈ ts, t.IsClassified) → s.isWellFormed = true
  | _, _, .assign hx hsign hvalue, hts => by
    simp only [List.forall_mem_cons] at hts
    simp [Stmt.isWellFormed, (hts.1.ident_spec hx).1, hvalue.isWellFormed hts.2.2]
  | _, _, .print hword hopening hvalue hclosing, hts => by
    simp only [List.forall_mem_cons, List.forall_mem_append] at hts
    simp [Stmt.isWellFormed, hvalue.isWellFormed hts.2.2.1]
  | _, _, .branch hword hc hyes ht hno he hclosing, hts => by
    simp only [List.forall_mem_cons, List.forall_mem_append] at hts
    obtain ⟨-, hcs, -, hys, -, hns, -⟩ := hts
    simp [Stmt.isWellFormed, Block.isWellFormed, hc.isWellFormed hcs, ht.areWellFormed hys,
      he.areWellFormed hns]
  | _, _, .loopWhile hword hc hopening ht hclosing, hts => by
    simp only [List.forall_mem_cons, List.forall_mem_append] at hts
    obtain ⟨-, hcs, -, hbs, -⟩ := hts
    simp [Stmt.isWellFormed, Block.isWellFormed, hc.isWellFormed hcs, ht.areWellFormed hbs]
  | _, _, .loopUntil hword ht hclosing hc, hts => by
    simp only [List.forall_mem_cons, List.forall_mem_append] at hts
    obtain ⟨-, hbs, -, hcs⟩ := hts
    simp [Stmt.isWellFormed, Block.isWellFormed, hc.isWellFormed hcs, ht.areWellFormed hbs]

theorem Stmts.Spelled.areWellFormed : ∀ {ts : List Token} {stmts : List Stmt},
    Stmts.Spelled ts stmts → (∀ t ∈ ts, t.IsClassified) → areWellFormed stmts = true
  | _, _, .nil, _ => rfl
  | _, _, .cons h hrest, hts => by
    simp only [List.forall_mem_append] at hts
    simp [MiniLua.areWellFormed, h.isWellFormed hts.1, hrest.areWellFormed hts.2]

end

/-- A program that tokens of a text spell is well formed. -/
theorem Program.Spelled.isWellFormed {ts : List Token} {p : Program} (h : Program.Spelled ts p)
    (hts : ∀ t ∈ ts, t.IsClassified) : p.isWellFormed = true := by
  cases h with
  | intro hword htitle hopening hclosing hbody hlast =>
    simp only [List.forall_mem_cons, List.forall_mem_append] at hts
    obtain ⟨-, hname, -, -, hbs, -⟩ := hts
    simp [Program.isWellFormed, Block.isWellFormed, (hname.ident_spec htitle).1,
      hbody.areWellFormed hbs]

/-! ## Spelled trees have no negative literals -/

/-- The value of a literal that a text can spell is not negative. -/
theorem toInt_ofNat_of_le_maxLiteral {n : Nat} (h : n ≤ maxLiteral) :
    (Int32.ofNat n).toInt = n :=
  Int32.toInt_ofNat_of_lt (Nat.lt_succ_of_le h)

theorem Expr.Spelled.desugar_eq {ts : List Token} {e : Expr} (h : Expr.Spelled ts e) :
    e.desugar = e := by
  induction h with
  | var kind => rfl
  | lit kind value bound =>
    have hnonneg := toInt_ofNat_of_le_maxLiteral bound
    rw [Expr.desugar, literalTree, if_pos (by omega)]
  | binary kind hl hr ihl ihr => rw [Expr.desugar, ihl, ihr]

theorem Cond.Spelled.desugar_eq {ts : List Token} {c : Cond} (h : Cond.Spelled ts c) :
    c.desugar = c := by
  cases h with
  | compare kind hl hr => rw [Cond.desugar, hl.desugar_eq, hr.desugar_eq]

mutual

theorem Stmt.Spelled.desugar_eq : ∀ {ts : List Token} {s : Stmt}, Stmt.Spelled ts s →
    s.desugar = s
  | _, _, .assign hx hsign hvalue => by rw [Stmt.desugar, hvalue.desugar_eq]
  | _, _, .print hword hopening hvalue hclosing => by rw [Stmt.desugar, hvalue.desugar_eq]
  | _, _, .branch hword hc hyes ht hno he hclosing => by
    rw [Stmt.desugar, Block.desugar, Block.desugar, hc.desugar_eq, ht.desugar_eq, he.desugar_eq]
  | _, _, .loopWhile hword hc hopening ht hclosing => by
    rw [Stmt.desugar, Block.desugar, hc.desugar_eq, ht.desugar_eq]
  | _, _, .loopUntil hword ht hclosing hc => by
    rw [Stmt.desugar, Block.desugar, hc.desugar_eq, ht.desugar_eq]

theorem Stmts.Spelled.desugar_eq : ∀ {ts : List Token} {stmts : List Stmt},
    Stmts.Spelled ts stmts → desugarAll stmts = stmts
  | _, _, .nil => rfl
  | _, _, .cons h hrest => by rw [desugarAll, h.desugar_eq, hrest.desugar_eq]

end

/-- A program that tokens spell is the program that its own text spells. -/
theorem Program.Spelled.desugar_eq {ts : List Token} {p : Program} (h : Program.Spelled ts p) :
    p.desugar = p := by
  cases h with
  | intro hword htitle hopening hclosing hbody hlast =>
    rw [Program.desugar, Block.desugar, hbody.desugar_eq]
    rfl

/-! ## Canonical tokens -/

/-- The token with the numeral that is written for its value, if it is a number. -/
def Token.canonical (t : Token) : Token :=
  if t.kind = .integer then { t with lexeme := String.ofList (Text.stripZeros t.lexeme.toList) }
  else t

/-- Numbers apart, tokens are canonical. -/
theorem Token.canonical_of_ne {t : Token} (h : t.kind ≠ .integer) : t.canonical = t :=
  if_neg h

/-- The characters of a canonical number are its digits without superfluous zeros. -/
theorem Token.canonical_toList {t : Token} (h : t.kind = .integer) :
    t.canonical.lexeme.toList = Text.stripZeros t.lexeme.toList := by
  rw [Token.canonical, if_pos h]
  exact String.toList_ofList

/-- The canonical token of a number has the number's numeral. -/
theorem Token.canonical_lexeme {t : Token} {n : Nat} (hk : t.kind = .integer)
    (h : Text.natural? t.lexeme.toList = some n) : t.canonical.lexeme = numeral n := by
  rw [← String.toList_inj, Token.canonical_toList hk, toList_numeral, Text.toDigits_of_natural? h]

theorem Token.canonical_kind (t : Token) : t.canonical.kind = t.kind := by
  rw [Token.canonical]
  split <;> rfl

/-- Dropping superfluous zeros keeps the class of a lexeme. -/
theorem Token.IsClassified.canonical {t : Token} (h : t.IsClassified) :
    t.canonical.IsClassified := by
  by_cases hk : t.kind = .integer
  · rcases Lexeme.classify_eq_ok_iff.1 h with ⟨-, -, hdigits⟩ | ⟨hkind, -⟩ | ⟨hmem, -⟩
    -- what is left of the digits is the numeral of their value
    · rw [Token.IsClassified, Token.canonical_toList hk, Token.canonical_kind, hk,
        ← Text.toDigits_digitsValue hdigits]
      exact Lexeme.classify_toDigits _
    · exact absurd (hk.symm.trans hkind) (by decide)
    · exact absurd hmem (by rw [hk]; decide)
  · rwa [Token.canonical_of_ne hk]

/-- The canonical token of a keyword or a symbol says its name. -/
theorem Say.cons_kind {t : Token} {k : Kind} (h : t.IsClassified) (hk : t.kind = k)
    (hmem : k ∈ Kind.keywords ++ Kind.symbols) {us : List Token} {words : List String}
    (hs : Say us words) : Say (t.canonical :: us) (k.name :: words) := by
  subst hk
  have hne : t.kind ≠ .integer := fun hint => absurd hmem (by rw [hint]; decide)
  rw [Token.canonical_of_ne hne, ← h.lexeme_eq_name hmem]
  exact .cons h hs

/-- The canonical token of a name says the name. -/
theorem Say.cons_ident {t : Token} (h : t.IsClassified) (hk : t.kind = .identifier)
    {us : List Token} {words : List String} (hs : Say us words) :
    Say (t.canonical :: us) (t.ident.text :: words) := by
  rw [Token.canonical_of_ne (by rw [hk]; decide), (h.ident_spec hk).2]
  exact .cons h hs

theorem Expr.Spelled.say {ts : List Token} {e : Expr} (h : Expr.Spelled ts e)
    (hts : ∀ t ∈ ts, t.IsClassified) : Say (ts.map Token.canonical) (e.words []) := by
  induction h with
  | var kind => exact .cons_ident (hts _ List.mem_cons_self) kind .nil
  | lit kind value bound =>
    have hint := toInt_ofNat_of_le_maxLiteral bound
    have hsay := Say.cons (hts _ List.mem_cons_self).canonical .nil
    rw [Token.canonical_lexeme kind value] at hsay
    rw [Expr.words, literalWords, if_pos (by omega), hint, Int.toNat_natCast]
    exact hsay
  | @binary t op ls rs left right kind hl hr ihl ihr =>
    simp only [List.forall_mem_cons, List.forall_mem_append] at hts
    obtain ⟨hmem, hname, -⟩ := ArithOp.ofKind?_spec kind
    rw [Expr.words, left.words_append, List.map_cons, List.map_append, ← hname]
    exact .cons_kind hts.1 rfl hmem ((ihl hts.2.1).append (ihr hts.2.2))

theorem Cond.Spelled.say {ts : List Token} {c : Cond} (h : Cond.Spelled ts c)
    (hts : ∀ t ∈ ts, t.IsClassified) : Say (ts.map Token.canonical) (c.words []) := by
  cases h with
  | @compare t op ls rs left right kind hl hr =>
    simp only [List.forall_mem_cons, List.forall_mem_append] at hts
    obtain ⟨hmem, hname, -⟩ := RelOp.ofKind?_spec kind
    rw [Cond.words, left.words_append, List.map_cons, List.map_append, ← hname]
    exact .cons_kind hts.1 rfl hmem ((hl.say hts.2.1).append (hr.say hts.2.2))

mutual

theorem Stmt.Spelled.say : ∀ {ts : List Token} {s : Stmt}, Stmt.Spelled ts s →
    (∀ t ∈ ts, t.IsClassified) → Say (ts.map Token.canonical) s.words
  | _, _, .assign hx hsign hvalue, hts => by
    simp only [List.forall_mem_cons] at hts
    exact .cons_ident hts.1 hx (.cons_kind hts.2.1 hsign (by decide) (hvalue.say hts.2.2))
  | _, _, .print hword hopening hvalue hclosing, hts => by
    simp only [List.forall_mem_cons, List.forall_mem_append] at hts
    obtain ⟨htw, hto, hvs, htc, -⟩ := hts
    rw [List.map_cons, List.map_cons, List.map_append]
    exact .cons_kind htw hword (by decide) (.cons_kind hto hopening (by decide)
      ((hvalue.say hvs).append (.cons_kind htc hclosing (by decide) .nil)))
  | _, _, .branch hword hc hyes ht hno he hclosing, hts => by
    simp only [List.forall_mem_cons, List.forall_mem_append] at hts
    obtain ⟨htw, hcs, hty, hys, htn, hns, htc, -⟩ := hts
    simp only [List.map_cons, List.map_append]
    exact .cons_kind htw hword (by decide) ((hc.say hcs).append
      (.cons_kind hty hyes (by decide) ((ht.say hys).append
        (.cons_kind htn hno (by decide) ((he.say hns).append
          (.cons_kind htc hclosing (by decide) .nil))))))
  | _, _, .loopWhile hword hc hopening ht hclosing, hts => by
    simp only [List.forall_mem_cons, List.forall_mem_append] at hts
    obtain ⟨htw, hcs, hto, hbs, htc, -⟩ := hts
    simp only [List.map_cons, List.map_append]
    exact .cons_kind htw hword (by decide) ((hc.say hcs).append
      (.cons_kind hto hopening (by decide) ((ht.say hbs).append
        (.cons_kind htc hclosing (by decide) .nil))))
  | _, _, .loopUntil hword ht hclosing hc, hts => by
    simp only [List.forall_mem_cons, List.forall_mem_append] at hts
    obtain ⟨htw, hbs, htc, hcs⟩ := hts
    simp only [List.map_cons, List.map_append]
    exact .cons_kind htw hword (by decide) ((ht.say hbs).append
      (.cons_kind htc hclosing (by decide) (hc.say hcs)))

theorem Stmts.Spelled.say : ∀ {ts : List Token} {stmts : List Stmt}, Stmts.Spelled ts stmts →
    (∀ t ∈ ts, t.IsClassified) → Say (ts.map Token.canonical) (wordsAll stmts)
  | _, _, .nil, _ => .nil
  | _, _, .cons h hrest, hts => by
    simp only [List.forall_mem_append] at hts
    rw [List.map_append, wordsAll]
    exact (h.say hts.1).append (hrest.say hts.2)

end

/-- The canonical tokens of a program say its words. -/
theorem Program.Spelled.say {ts : List Token} {p : Program} (h : Program.Spelled ts p)
    (hts : ∀ t ∈ ts, t.IsClassified) : Say (ts.map Token.canonical) p.words := by
  cases h with
  | intro hword htitle hopening hclosing hbody hlast =>
    simp only [List.forall_mem_cons, List.forall_mem_append] at hts
    obtain ⟨htw, htt, hto, htc, hbs, htl, -⟩ := hts
    simp only [List.map_cons, List.map_append]
    exact .cons_kind htw hword (by decide) (.cons_ident htt htitle
      (.cons_kind hto hopening (by decide) (.cons_kind htc hclosing (by decide)
        ((hbody.say hbs).append (.cons_kind htl hlast (by decide) .nil)))))

end MiniLua

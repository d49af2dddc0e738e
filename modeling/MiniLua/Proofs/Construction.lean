import MiniLua.Syntax.WellFormed

/-!
# Trees built by the constructors

A tree is built when each of its nodes came out of its checked constructor, given built parts. This
describes trees by how they are made; being well formed describes them by what they are. The two
agree, so a property of well-formed trees is one of everything that the constructors can make.

## Delivered

- `Ident.Built`, `Expr.Built`, `Cond.Built`, `Stmt.Built`, `Block.Built`, `Program.Built`: the trees
  that the constructors make.
- `Program.built_iff_isWellFormed` and its companions: built trees are the well-formed ones.
-/

set_option autoImplicit false

namespace MiniLua

/-- The name came out of its constructor. -/
def Ident.Built (x : Ident) : Prop :=
  ∃ letter, Ident.make? letter = .ok x

/-- Every node of the expression came out of its constructor. -/
inductive Expr.Built : Expr → Prop
  | var {x : Ident} (hx : x.Built) : Built (.var x)
  | lit (value : Int32) : Built (.lit value)
  | binary {op : ArithOp} {left right e : Expr} (hl : Built left) (hr : Built right)
      (h : Expr.binary? op left right = .ok e) : Built e

/-- Every node of the condition came out of its constructor. -/
inductive Cond.Built : Cond → Prop
  | compare {op : RelOp} {left right : Expr} {c : Cond} (hl : left.Built) (hr : right.Built)
      (h : Cond.compare? op left right = .ok c) : Built c

mutual

/-- Every node of the statement came out of its constructor. -/
inductive Stmt.Built : Stmt → Prop
  | assign {x : Ident} {value : Expr} {s : Stmt} (hx : x.Built) (hv : value.Built)
      (h : Stmt.assign? (some x) value = .ok s) : Stmt.Built s
  | print {value : Expr} {s : Stmt} (hv : value.Built) (h : Stmt.print? value = .ok s) :
      Stmt.Built s
  | branch {cond : Cond} {onTrue onFalse : Block} {s : Stmt} (hc : cond.Built)
      (ht : Block.Built onTrue) (he : Block.Built onFalse)
      (h : Stmt.branch? cond onTrue onFalse = .ok s) : Stmt.Built s
  | loopWhile {cond : Cond} {body : Block} {s : Stmt} (hc : cond.Built) (hb : Block.Built body)
      (h : Stmt.loopWhile? cond body = .ok s) : Stmt.Built s
  | loopUntil {body : Block} {cond : Cond} {s : Stmt} (hb : Block.Built body) (hc : cond.Built)
      (h : Stmt.loopUntil? body cond = .ok s) : Stmt.Built s

/-- Every node of the block came out of its constructor, or was appended to a block that did. -/
inductive Block.Built : Block → Prop
  | ofList {stmts : List Stmt} {b : Block} (hs : ∀ s ∈ stmts, Stmt.Built s)
      (h : Block.ofList? stmts = .ok b) : Block.Built b
  | append {b b' : Block} {s : Stmt} (hb : Block.Built b) (hs : Stmt.Built s)
      (h : b.append? s = .ok b') : Block.Built b'

end

/-- Every node of the program came out of its constructor; its name may be left out. -/
inductive Program.Built : Program → Prop
  | make {name : Option Ident} {body : Block} {p : Program} (hname : ∀ x ∈ name, x.Built)
      (hbody : body.Built) (h : Program.make? name body = .ok p) : Built p

/-! ## What the constructors accept -/

theorem Expr.binary?_eq_ok_iff {op : ArithOp} {left right e : Expr} :
    Expr.binary? op left right = .ok e ↔
      op.isValid = true ∧ left.isPresent = true ∧ right.isPresent = true ∧
        e = .binary op left right := by
  unfold Expr.binary?
  cases op.isValid <;> cases left.isPresent <;> cases right.isPresent <;> simp [eq_comm]

theorem Cond.compare?_eq_ok_iff {op : RelOp} {left right : Expr} {c : Cond} :
    Cond.compare? op left right = .ok c ↔
      op.isValid = true ∧ left.isPresent = true ∧ right.isPresent = true ∧
        c = .compare op left right := by
  unfold Cond.compare?
  cases op.isValid <;> cases left.isPresent <;> cases right.isPresent <;> simp [eq_comm]

theorem Stmt.assign?_eq_ok_iff {x : Ident} {value : Expr} {s : Stmt} :
    Stmt.assign? (some x) value = .ok s ↔ value.isPresent = true ∧ s = .assign x value := by
  unfold Stmt.assign?
  cases value.isPresent <;> simp [eq_comm]

theorem Stmt.print?_eq_ok_iff {value : Expr} {s : Stmt} :
    Stmt.print? value = .ok s ↔ value.isPresent = true ∧ s = .print value := by
  unfold Stmt.print?
  cases value.isPresent <;> simp [eq_comm]

theorem Stmt.branch?_eq_ok_iff {cond : Cond} {onTrue onFalse : Block} {s : Stmt} :
    Stmt.branch? cond onTrue onFalse = .ok s ↔
      cond.isPresent = true ∧ onTrue.isPresent = true ∧ onFalse.isPresent = true ∧
        s = .branch cond onTrue onFalse := by
  unfold Stmt.branch?
  cases cond.isPresent <;> cases onTrue.isPresent <;> cases onFalse.isPresent <;> simp [eq_comm]

theorem Stmt.loopWhile?_eq_ok_iff {cond : Cond} {body : Block} {s : Stmt} :
    Stmt.loopWhile? cond body = .ok s ↔
      cond.isPresent = true ∧ body.isPresent = true ∧ s = .loopWhile cond body := by
  unfold Stmt.loopWhile?
  cases cond.isPresent <;> cases body.isPresent <;> simp [eq_comm]

theorem Stmt.loopUntil?_eq_ok_iff {body : Block} {cond : Cond} {s : Stmt} :
    Stmt.loopUntil? body cond = .ok s ↔
      body.isPresent = true ∧ cond.isPresent = true ∧ s = .loopUntil body cond := by
  unfold Stmt.loopUntil?
  cases body.isPresent <;> cases cond.isPresent <;> simp [eq_comm]

theorem Block.ofList?_eq_ok_iff {stmts : List Stmt} {b : Block} :
    Block.ofList? stmts = .ok b ↔ (∀ s ∈ stmts, s.isPresent = true) ∧ b = .seq stmts := by
  rw [← List.all_eq_true]
  unfold Block.ofList?
  cases stmts.all Stmt.isPresent <;> simp [eq_comm]

theorem Program.make?_eq_ok_iff {name : Option Ident} {body : Block} {p : Program} :
    Program.make? name body = .ok p ↔
      body.isPresent = true ∧ p = { name := name, body := body } := by
  unfold Program.make?
  cases body.isPresent <;> simp [eq_comm]

/-- A well-formed expression is present. -/
theorem Expr.isPresent_of_isWellFormed {e : Expr} (h : e.isWellFormed = true) :
    e.isPresent = true := by
  cases e with
  | missing => cases h
  | _ => rfl

/-- A well-formed condition is present. -/
theorem Cond.isPresent_of_isWellFormed {c : Cond} (h : c.isWellFormed = true) :
    c.isPresent = true := by
  cases c with
  | missing => cases h
  | compare op left right bare => rfl

/-- A well-formed statement is present. -/
theorem Stmt.isPresent_of_isWellFormed {s : Stmt} (h : s.isWellFormed = true) :
    s.isPresent = true := by
  cases s with
  | missing => simp [Stmt.isWellFormed] at h
  | _ => rfl

/-- A well-formed block is present. -/
theorem Block.isPresent_of_isWellFormed {b : Block} (h : b.isWellFormed = true) :
    b.isPresent = true := by
  cases b with
  | missing => simp [Block.isWellFormed] at h
  | seq stmts bare => rfl

/-- A block stays well formed when a well-formed statement is added to it. -/
theorem Block.isWellFormed_of_append? {b b' : Block} {s : Stmt} (h : b.append? s = .ok b')
    (hb : b.isWellFormed = true) (hs : s.isWellFormed = true) : b'.isWellFormed = true := by
  cases b with
  | missing => simp [Block.isWellFormed] at hb
  | seq stmts bare =>
    simp only [Block.isWellFormed, Bool.and_eq_true, Bool.not_eq_true', areWellFormed_iff] at hb
    simp only [Block.append?, Stmt.isPresent_of_isWellFormed hs] at h
    cases h
    simp only [Block.isWellFormed, Bool.and_eq_true, Bool.not_eq_true', areWellFormed_iff]
    refine ⟨fun s' hmem => ?_, hb.2⟩
    rcases List.mem_append.1 hmem with hmem | hmem
    · exact hb.1 s' hmem
    · rw [List.mem_singleton.1 hmem]
      exact hs

/-! ## Built trees are well formed -/

/-- A built name is a letter that has passed its check. -/
theorem Ident.built_iff_isWellFormed {x : Ident} : x.Built ↔ x.isWellFormed = true := by
  constructor
  · rintro ⟨letter, h⟩
    exact Ident.isWellFormed_of_make? h
  · intro h
    obtain ⟨letter, bare⟩ := x
    simp only [Ident.isWellFormed, Bool.and_eq_true, Bool.not_eq_true'] at h
    obtain ⟨hletter, rfl⟩ := h
    exact ⟨letter, by rw [Ident.make?, if_pos hletter]⟩

/-- Built expressions are the well-formed ones. -/
theorem Expr.built_iff_isWellFormed {e : Expr} : e.Built ↔ e.isWellFormed = true := by
  constructor
  · intro h
    induction h with
    | var hx => exact Ident.built_iff_isWellFormed.1 hx
    | lit value => rfl
    | binary _ _ h ihl ihr => exact Expr.isWellFormed_of_binary? h ihl ihr
  · intro h
    induction e with
    | missing => cases h
    | var x => exact .var (Ident.built_iff_isWellFormed.2 h)
    | lit value => exact .lit value
    | binary op left right bare ihl ihr =>
      simp only [Expr.isWellFormed, Bool.and_eq_true, Bool.not_eq_true'] at h
      obtain ⟨⟨⟨hop, hl⟩, hr⟩, rfl⟩ := h
      exact .binary (ihl hl) (ihr hr) (Expr.binary?_eq_ok_iff.2
        ⟨hop, Expr.isPresent_of_isWellFormed hl, Expr.isPresent_of_isWellFormed hr, rfl⟩)

/-- Built conditions are the well-formed ones. -/
theorem Cond.built_iff_isWellFormed {c : Cond} : c.Built ↔ c.isWellFormed = true := by
  constructor
  · rintro ⟨hl, hr, h⟩
    exact Cond.isWellFormed_of_compare? h (Expr.built_iff_isWellFormed.1 hl)
      (Expr.built_iff_isWellFormed.1 hr)
  · intro h
    cases c with
    | missing => cases h
    | compare op left right bare =>
      simp only [Cond.isWellFormed, Bool.and_eq_true, Bool.not_eq_true'] at h
      obtain ⟨⟨⟨hop, hl⟩, hr⟩, rfl⟩ := h
      exact .compare (Expr.built_iff_isWellFormed.2 hl) (Expr.built_iff_isWellFormed.2 hr)
        (Cond.compare?_eq_ok_iff.2
          ⟨hop, Expr.isPresent_of_isWellFormed hl, Expr.isPresent_of_isWellFormed hr, rfl⟩)

mutual

/-- A built statement is well formed. -/
theorem Stmt.Built.isWellFormed : ∀ {s : Stmt}, s.Built → s.isWellFormed = true
  | _, .assign hx hv h => by
    obtain ⟨-, rfl⟩ := Stmt.assign?_eq_ok_iff.1 h
    simp [Stmt.isWellFormed, Ident.built_iff_isWellFormed.1 hx, Expr.built_iff_isWellFormed.1 hv]
  | _, .print hv h => by
    obtain ⟨-, rfl⟩ := Stmt.print?_eq_ok_iff.1 h
    simp [Stmt.isWellFormed, Expr.built_iff_isWellFormed.1 hv]
  | _, .branch hc ht he h => by
    -- before the statement is replaced, as the recursion is on these derivations
    have ht' := ht.isWellFormed
    have he' := he.isWellFormed
    obtain ⟨-, -, -, rfl⟩ := Stmt.branch?_eq_ok_iff.1 h
    simp [Stmt.isWellFormed, Cond.built_iff_isWellFormed.1 hc, ht', he']
  | _, .loopWhile hc hb h => by
    have hb' := hb.isWellFormed
    obtain ⟨-, -, rfl⟩ := Stmt.loopWhile?_eq_ok_iff.1 h
    simp [Stmt.isWellFormed, Cond.built_iff_isWellFormed.1 hc, hb']
  | _, .loopUntil hb hc h => by
    have hb' := hb.isWellFormed
    obtain ⟨-, -, rfl⟩ := Stmt.loopUntil?_eq_ok_iff.1 h
    simp [Stmt.isWellFormed, Cond.built_iff_isWellFormed.1 hc, hb']

/-- A built block is well formed. -/
theorem Block.Built.isWellFormed : ∀ {b : Block}, b.Built → b.isWellFormed = true
  | _, .ofList hs h => by
    have hs' := areWellFormed_iff.2 fun s hmem => (hs s hmem).isWellFormed
    obtain ⟨-, rfl⟩ := Block.ofList?_eq_ok_iff.1 h
    simpa [Block.isWellFormed] using hs'
  | _, .append hb hs h => Block.isWellFormed_of_append? h hb.isWellFormed hs.isWellFormed

end

mutual

/-- A well-formed statement can be built. -/
theorem Stmt.built_of_isWellFormed : ∀ {s : Stmt}, s.isWellFormed = true → s.Built
  | .missing, h => by simp [Stmt.isWellFormed] at h
  | .assign target value bare, h => by
    simp only [Stmt.isWellFormed, Bool.and_eq_true, Bool.not_eq_true'] at h
    obtain ⟨⟨hx, hv⟩, rfl⟩ := h
    exact .assign (Ident.built_iff_isWellFormed.2 hx) (Expr.built_iff_isWellFormed.2 hv)
      (Stmt.assign?_eq_ok_iff.2 ⟨Expr.isPresent_of_isWellFormed hv, rfl⟩)
  | .print value bare, h => by
    simp only [Stmt.isWellFormed, Bool.and_eq_true, Bool.not_eq_true'] at h
    obtain ⟨hv, rfl⟩ := h
    exact .print (Expr.built_iff_isWellFormed.2 hv)
      (Stmt.print?_eq_ok_iff.2 ⟨Expr.isPresent_of_isWellFormed hv, rfl⟩)
  | .branch cond onTrue onFalse bare, h => by
    simp only [Stmt.isWellFormed, Bool.and_eq_true, Bool.not_eq_true'] at h
    obtain ⟨⟨⟨hc, ht⟩, he⟩, rfl⟩ := h
    exact .branch (Cond.built_iff_isWellFormed.2 hc) (Block.built_of_isWellFormed ht)
      (Block.built_of_isWellFormed he) (Stmt.branch?_eq_ok_iff.2
        ⟨Cond.isPresent_of_isWellFormed hc, Block.isPresent_of_isWellFormed ht,
          Block.isPresent_of_isWellFormed he, rfl⟩)
  | .loopWhile cond body bare, h => by
    simp only [Stmt.isWellFormed, Bool.and_eq_true, Bool.not_eq_true'] at h
    obtain ⟨⟨hc, hb⟩, rfl⟩ := h
    exact .loopWhile (Cond.built_iff_isWellFormed.2 hc) (Block.built_of_isWellFormed hb)
      (Stmt.loopWhile?_eq_ok_iff.2
        ⟨Cond.isPresent_of_isWellFormed hc, Block.isPresent_of_isWellFormed hb, rfl⟩)
  | .loopUntil body cond bare, h => by
    simp only [Stmt.isWellFormed, Bool.and_eq_true, Bool.not_eq_true'] at h
    obtain ⟨⟨hb, hc⟩, rfl⟩ := h
    exact .loopUntil (Block.built_of_isWellFormed hb) (Cond.built_iff_isWellFormed.2 hc)
      (Stmt.loopUntil?_eq_ok_iff.2
        ⟨Block.isPresent_of_isWellFormed hb, Cond.isPresent_of_isWellFormed hc, rfl⟩)

/-- A well-formed block can be built. -/
theorem Block.built_of_isWellFormed : ∀ {b : Block}, b.isWellFormed = true → b.Built
  | .missing, h => by simp [Block.isWellFormed] at h
  | .seq stmts bare, h => by
    simp only [Block.isWellFormed, Bool.and_eq_true, Bool.not_eq_true'] at h
    obtain ⟨hs, rfl⟩ := h
    have hpresent : ∀ s ∈ stmts, s.isPresent = true := fun s hmem =>
      Stmt.isPresent_of_isWellFormed (areWellFormed_iff.1 hs s hmem)
    exact .ofList (built_of_areWellFormed hs) (Block.ofList?_eq_ok_iff.2 ⟨hpresent, rfl⟩)

/-- Well-formed statements can be built. -/
theorem built_of_areWellFormed : ∀ {stmts : List Stmt}, areWellFormed stmts = true →
    ∀ s ∈ stmts, s.Built
  | [], _, s, hmem => by cases hmem
  | s' :: stmts, h, s, hmem => by
    simp only [areWellFormed, Bool.and_eq_true] at h
    have hhead := Stmt.built_of_isWellFormed h.1
    have htail := built_of_areWellFormed h.2
    rcases List.mem_cons.1 hmem with rfl | hmem
    · exact hhead
    · exact htail s hmem

end

/-- Built programs are the well-formed ones. -/
theorem Program.built_iff_isWellFormed {p : Program} : p.Built ↔ p.isWellFormed = true := by
  constructor
  · rintro ⟨hname, hbody, h⟩
    obtain ⟨-, rfl⟩ := Program.make?_eq_ok_iff.1 h
    simp only [Program.isWellFormed, hbody.isWellFormed, Bool.and_true, Bool.not_false]
    exact (Option.all_eq_true _ _).2 fun x hx => Ident.built_iff_isWellFormed.1 (hname x hx)
  · intro h
    obtain ⟨name, body, bare⟩ := p
    simp only [Program.isWellFormed, Bool.and_eq_true, Bool.not_eq_true', Option.all_eq_true] at h
    obtain ⟨⟨hname, hbody⟩, rfl⟩ := h
    exact .make (fun x hx => Ident.built_iff_isWellFormed.2 (hname x hx))
      (Block.built_of_isWellFormed hbody)
      (Program.make?_eq_ok_iff.2 ⟨Block.isPresent_of_isWellFormed hbody, rfl⟩)

end MiniLua

import MiniLua.Yaml.Node

/-!
# What aliases stand for

An alias cannot have an anchor, so the values with anchors are scalars, sequences and mappings. An
alias of a known value is therefore followed in one step.

## Delivered

- `Read.Keeps` and its lemmas: steps after which no alias has an anchor if none had one before.
- `Read.ReadersKeep`, `Read.readersKeep`: all readers of nodes are such steps.
- `Document.Direct`, `Document.direct_of_ofBytes?`: no alias of a document stands for another.
-/

set_option autoImplicit false

namespace MiniLua.Yaml

/-- The node is an alias. -/
def Node.isAlias : Node → Bool
  | .alias _ _ _ _ => true
  | _ => false

/-- No alias among the values with anchors. -/
def ReadState.Direct (s : ReadState) : Prop :=
  ∀ pair ∈ s.anchored, pair.2.isAlias = false

namespace Read

variable {α β : Type}

/-- Steps after which no alias has an anchor if none had one before. -/
def Keeps (m : Read α) : Prop :=
  ∀ before a after, before.Direct → m before = .ok (a, after) → after.Direct

namespace Keeps

theorem pure (a : α) : Keeps (Pure.pure a) := by
  intro before a after hbefore hrun
  cases hrun
  exact hbefore

theorem throw (defect : Defect) : Keeps (MonadExcept.throw defect : Read α) := by
  intro before a after hbefore hrun
  cases hrun

theorem bind {m : Read α} {f : α → Read β} (hm : Keeps m) (hf : ∀ a, Keeps (f a)) :
    Keeps (m >>= f) := by
  intro before b after hbefore hrun
  change (m before >>= fun r => f r.1 r.2) = .ok (b, after) at hrun
  cases hfirst : m before with
  | error defect =>
    rw [hfirst] at hrun
    cases hrun
  | ok r =>
    rw [hfirst] at hrun
    exact hf r.1 r.2 b after (hm before r.1 r.2 hbefore hfirst) hrun

/-- A look at the state, which has no alias with an anchor either. -/
theorem get_bind {f : ReadState → Read β} (hf : ∀ s, s.Direct → Keeps (f s)) :
    Keeps (MonadState.get >>= f) := by
  intro before b after hbefore hrun
  exact hf before hbefore before b after hbefore hrun

theorem set {s : ReadState} (h : s.Direct) : Keeps (MonadStateOf.set s : Read PUnit) := by
  intro before a after _ hrun
  cases hrun
  exact h

theorem change {f : ReadState → ReadState} (h : ∀ s, s.Direct → (f s).Direct) :
    Keeps (modify f : Read PUnit) := by
  intro before a after hbefore hrun
  cases hrun
  exact h before hbefore

theorem lift (result : Except Defect α) : Keeps (liftM result : Read α) := by
  intro before a after hbefore hrun
  cases result with
  | error defect => cases hrun
  | ok value =>
    cases hrun
    exact hbefore

theorem ite {p : Prop} [Decidable p] {m m' : Read α} (hm : Keeps m) (hm' : Keeps m') :
    Keeps (if p then m else m') := by
  split
  · exact hm
  · exact hm'

end Keeps

/-! ## Tokens -/

theorem keeps_peek : Keeps peek := by
  apply Keeps.get_bind
  intro s hs
  split
  · refine .bind (.lift _) ?_
    rintro ⟨_, scanner⟩
    refine .bind (.set hs) fun _ => .get_bind fun s _ => ?_
    split
    · exact .throw _
    · exact .pure _
  · refine .get_bind fun s _ => ?_
    split
    · exact .throw _
    · exact .pure _

theorem keeps_peekKind : Keeps peekKind := by
  have heq : peekKind = peek >>= fun t => pure t.kind := (bind_pure_comp _ _).symm
  rw [heq]
  exact .bind keeps_peek fun _ => .pure _

theorem keeps_skip : Keeps skip := by
  apply Keeps.change
  intro s hs
  exact hs

theorem keeps_properties : Keeps properties := by
  refine .bind keeps_peek ?_
  intro first
  split
  · refine .bind keeps_skip fun _ => .bind keeps_peekKind ?_
    intro kind
    split
    · exact .bind keeps_skip fun _ => .pure _
    · exact .pure _
  · refine .bind keeps_skip fun _ => .bind keeps_peekKind ?_
    intro kind
    split
    · exact .bind keeps_skip fun _ => .pure _
    · exact .pure _
  · exact .pure _

theorem keeps_tag? (p : Properties) : Keeps p.tag? := by
  unfold Properties.tag?
  split
  · exact .pure _
  · split
    · exact .bind (.pure _) fun _ => .pure _
    · apply Keeps.get_bind
      intro s _
      split
      · exact .bind (.pure _) fun _ => .pure _
      · exact .bind (.throw _) fun _ => .pure _

theorem keeps_define (name : String) : Keeps (define name) := by
  apply Keeps.get_bind
  intro s hs
  exact .bind (.set hs) fun _ => .pure _

theorem keeps_mapM_define (name? : Option String) : Keeps (name?.mapM define) := by
  cases name? with
  | none => exact .pure _
  | some name => exact .bind (keeps_define name) fun _ => .pure _

theorem keeps_flowComma (first : Bool) (ending : TokenKind) : Keeps (flowComma first ending) := by
  refine .bind keeps_peekKind ?_
  intro kind
  exact .ite (.pure _) (.ite keeps_skip (.throw _))

/-- A value that is no alias is complete. -/
theorem keeps_complete (number : Option Nat) {n : Node} (h : n.isAlias = false) :
    Keeps (complete number n) := by
  unfold complete
  split
  · refine .bind (.change ?_) fun _ => .pure n
    intro s hs pair hpair
    rcases List.mem_cons.1 hpair with rfl | hmem
    · exact h
    · exact hs pair hmem
  · exact .pure n

/-! ## Nodes -/

/-- All readers of nodes with this much fuel. -/
structure ReadersKeep (fuel : Nat) : Prop where
  node (block inMapping : Bool) : Keeps (node block inMapping fuel)
  blockItems : Keeps (blockItems fuel)
  looseItems : Keeps (looseItems fuel)
  blockPairs : Keeps (blockPairs fuel)
  blockValue : Keeps (blockValue fuel)
  flowItems (first : Bool) : Keeps (flowItems first fuel)
  flowPair : Keeps (flowPair fuel)
  flowValue (ending : TokenKind) : Keeps (flowValue ending fuel)
  flowPairs (first : Bool) : Keeps (flowPairs first fuel)

variable {fuel : Nat}

theorem keeps_node (h : ReadersKeep fuel) (block inMapping : Bool) :
    Keeps (node block inMapping (fuel + 1)) := by
  unfold node
  refine .bind keeps_peek ?_
  intro first
  split
  · -- an alias, which has no anchor of its own
    refine .bind keeps_skip fun _ => .get_bind ?_
    intro s hs
    split
    · exact .bind (.set hs) fun _ => .pure _
    · exact .throw _
  · refine .bind keeps_properties fun p => .bind (keeps_tag? p) fun tag => ?_
    refine .bind keeps_peek fun next => .bind (keeps_mapM_define p.anchor) fun number => ?_
    split
    · exact .bind keeps_skip fun _ => keeps_complete number rfl
    · exact .bind keeps_skip fun _ => .bind (h.flowItems true) fun _ => keeps_complete number rfl
    · exact .bind keeps_skip fun _ => .bind (h.flowPairs true) fun _ => keeps_complete number rfl
    · exact .bind keeps_skip fun _ => .bind h.blockItems fun _ => keeps_complete number rfl
    · exact .bind keeps_skip fun _ => .bind h.blockPairs fun _ => keeps_complete number rfl
    · exact .bind h.looseItems fun _ => keeps_complete number rfl
    · exact .ite (keeps_complete number rfl) (.throw _)

theorem keeps_blockItems (h : ReadersKeep fuel) : Keeps (blockItems (fuel + 1)) := by
  unfold blockItems
  refine .bind keeps_peek fun t => ?_
  split
  · refine .bind keeps_skip fun _ => .bind keeps_peekKind fun k => ?_
    split
    · exact .bind (.pure _) fun _ => .bind h.blockItems fun _ => .pure _
    · exact .bind (h.node true false) fun _ => .bind h.blockItems fun _ => .pure _
  · exact .bind keeps_skip fun _ => .pure _
  · exact .throw _

theorem keeps_looseItems (h : ReadersKeep fuel) : Keeps (looseItems (fuel + 1)) := by
  unfold looseItems
  refine .bind keeps_peek fun t => ?_
  split
  · refine .bind keeps_skip fun _ => .bind keeps_peekKind fun k => ?_
    split
    · exact .bind (.pure _) fun _ => .bind h.looseItems fun _ => .pure _
    · exact .bind (h.node true false) fun _ => .bind h.looseItems fun _ => .pure _
  · exact .pure _

theorem keeps_blockPairs (h : ReadersKeep fuel) : Keeps (blockPairs (fuel + 1)) := by
  have hrest (key : Node) : Keeps (do
      let value ← blockValue fuel
      return (key, value) :: (← blockPairs fuel)) :=
    .bind h.blockValue fun _ => .bind h.blockPairs fun _ => .pure _
  unfold blockPairs
  refine .bind keeps_peek fun t => ?_
  split
  · refine .bind keeps_skip fun _ => .bind keeps_peekKind fun k => ?_
    split
    · exact .bind (.pure _) hrest
    · exact .bind (h.node true true) hrest
  · exact .bind keeps_skip fun _ => .pure _
  · exact .throw _

theorem keeps_blockValue (h : ReadersKeep fuel) : Keeps (blockValue (fuel + 1)) := by
  unfold blockValue
  refine .bind keeps_peek fun t => ?_
  split
  · refine .bind keeps_skip fun _ => .bind keeps_peekKind fun k => ?_
    exact .ite (.pure _) (h.node true true)
  · exact .pure _

theorem keeps_flowItems (h : ReadersKeep fuel) (first : Bool) :
    Keeps (flowItems first (fuel + 1)) := by
  unfold flowItems
  refine .bind (keeps_flowComma _ _) fun _ => .bind keeps_peek fun t => ?_
  split
  · exact .bind keeps_skip fun _ => .pure _
  · refine .bind keeps_skip fun _ => .bind h.flowPair fun pair => ?_
    exact .bind (h.flowItems false) fun _ => .pure _
  · exact .bind (h.node false false) fun _ => .bind (h.flowItems false) fun _ => .pure _

theorem keeps_flowPair (h : ReadersKeep fuel) : Keeps (flowPair (fuel + 1)) := by
  unfold flowPair
  refine .bind keeps_peek fun t => ?_
  split
  · refine .bind (.bind keeps_skip fun _ => .pure _) fun key => ?_
    exact .bind (h.flowValue _) fun _ => .pure _
  · exact .bind (h.node false false) fun key => .bind (h.flowValue _) fun _ => .pure _

theorem keeps_flowValue (h : ReadersKeep fuel) (ending : TokenKind) :
    Keeps (flowValue ending (fuel + 1)) := by
  unfold flowValue
  refine .bind keeps_peek fun t => .ite ?_ (.pure _)
  refine .bind keeps_skip fun _ => .bind keeps_peek fun next => ?_
  exact .ite (.pure _) (h.node false false)

theorem keeps_flowPairs (h : ReadersKeep fuel) (first : Bool) :
    Keeps (flowPairs first (fuel + 1)) := by
  have hrest (key : Node) : Keeps (do
      let value ← flowValue .flowMappingEnd fuel
      return (key, value) :: (← flowPairs false fuel)) :=
    .bind (h.flowValue _) fun _ => .bind (h.flowPairs false) fun _ => .pure _
  unfold flowPairs
  refine .bind (keeps_flowComma _ _) fun _ => .bind keeps_peek fun t => ?_
  split
  · exact .bind keeps_skip fun _ => .pure _
  · refine .bind keeps_skip fun _ => .bind keeps_peek fun next => ?_
    split
    · exact .bind (.pure _) hrest
    · exact .bind (h.node false false) hrest
  · refine .bind (h.node false false) fun key => .bind keeps_peek fun next => ?_
    exact .bind (h.flowPairs false) fun _ => .pure _

theorem readersKeep (fuel : Nat) : ReadersKeep fuel := by
  induction fuel with
  | zero =>
    exact ⟨fun _ _ => .throw _, .throw _, .throw _, .throw _, .throw _, fun _ => .throw _, .throw _,
      fun _ => .throw _, fun _ => .throw _⟩
  | succ fuel h =>
    exact ⟨keeps_node h, keeps_blockItems h, keeps_looseItems h, keeps_blockPairs h,
      keeps_blockValue h, keeps_flowItems h, keeps_flowPair h, keeps_flowValue h, keeps_flowPairs h⟩

/-! ## Documents -/

theorem keeps_directives (limit : Nat) (versioned : Bool) : Keeps (directives limit versioned) := by
  induction limit generalizing versioned with
  | zero => exact .throw _
  | succ limit ih =>
    unfold directives
    refine .bind keeps_peekKind fun kind => ?_
    split
    · have hrest : Keeps (do
          skip
          directives limit true) :=
        .bind keeps_skip fun _ => ih true
      apply Keeps.ite
      · exact .bind (.throw _) fun _ => .ite (.bind (.throw _) fun _ => hrest) hrest
      · exact .ite (.bind (.throw _) fun _ => hrest) hrest
    · rename_i name meaning
      apply Keeps.get_bind
      intro s hs
      have hrest : Keeps (do
          set { s with handles := (name, meaning) :: s.handles }
          skip
          directives limit versioned) :=
        .bind (.set hs) fun _ => .bind keeps_skip fun _ => ih versioned
      exact .ite (.bind (.throw _) fun _ => hrest) hrest
    · exact .change fun s hs => hs

theorem keeps_content (limit : Nat) : Keeps (content limit) := by
  refine .bind keeps_peek fun t => ?_
  exact .ite (.pure _) ((readersKeep limit).node true false)

theorem keeps_document (limit : Nat) : Keeps (document limit) := by
  refine .bind keeps_peekKind fun first => .ite (.pure _) ?_
  refine .bind (keeps_directives limit false) fun _ => ?_
  have hrest (root : Node) : Keeps (do
      let _ ← peek
      return some root) :=
    .bind keeps_peek fun _ => .pure _
  split
  · refine .bind keeps_peekKind fun kind => ?_
    have hcontent : Keeps (do
        skip
        let root ← content limit
        let _ ← peek
        return some root) :=
      .bind keeps_skip fun _ => .bind (keeps_content limit) hrest
    exact .ite (.bind (.throw _) fun _ => hcontent) hcontent
  · exact .bind ((readersKeep limit).node true false) hrest

end Read

/-- No alias stands for another. -/
def Document.Direct (d : Document) : Prop :=
  ∀ pair ∈ d.anchored, pair.2.isAlias = false

theorem Document.direct_of_ofBytes? {bytes : Bytes} {d : Document}
    (h : ofBytes? bytes = .ok (some d)) : d.Direct := by
  unfold ofBytes? at h
  dsimp only at h
  split at h
  · cases h
  · cases h
  · rename_i root s hrun
    cases h
    exact Read.keeps_document _ _ _ s (by simp [ReadState.Direct]) hrun

end MiniLua.Yaml

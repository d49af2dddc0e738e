import MiniLua.Proofs.Anchors
import MiniLua.Proofs.Records

/-!
# Readings that do not depend on what was read before

The reads of a document are counted, and a reading is given up when too many of them are inside of
aliases. Apart from this the counts decide nothing: two readings from states that differ in their
counts give the same values and report the same problems, or one of them is given up. On the way
problems are only added, and every alias that is entered is left again. In a document without anchors
no reading is given up.

## Delivered

- `Progress.Alike`: states that differ in their counts only.
- `Decoding.Agree`: readings with related values, up to being given up; its lemmas follow the steps of
  reading.
- `Decoding.Steady`: a reading that agrees with itself; `Agree.problems_suffix`: it only adds problems.
- `Decoding.Quiet`: a reading that changes nothing but the counts.
- `Agree.result`: the results of whole readings that agree.
- `Document.steady_readText` and its companions: the readings of values are steady.
-/

set_option autoImplicit false

namespace MiniLua.Yaml

theorem Document.mem_anchored {d : Document} {target : Nat} {n : Node}
    (h : d.anchored.lookup target = some n) : (target, n) ∈ d.anchored := by
  obtain ⟨before, after, hsplit, -⟩ := List.lookup_eq_some_iff.1 h
  simp [hsplit]

/-- The three ways to arrive: at the node itself, inside of an alias, and nowhere when the alias stands
for nothing. -/
theorem Document.arrive_cases (d : Document) (n : Node) :
    (d.follow n = n ∧ n.isAlias = false ∧
      ∀ {α : Type} (step : Node → Decoding α), d.arrive n step = (do Decoding.count; step n)) ∨
    (∃ name target number, (target, d.follow n) ∈ d.anchored ∧
      ∀ {α : Type} (step : Node → Decoding α), d.arrive n step = (do
        Decoding.count
        Decoding.entering name number (do Decoding.count; step (d.follow n)))) ∨
    (d.follow n).isAlias = true ∧ ∃ cause,
      ∀ {α : Type} (step : Node → Decoding α), d.arrive n step = (do Decoding.count; throw cause) := by
  cases n with
  | scalar line tag text => exact .inl ⟨rfl, rfl, fun _ => rfl⟩
  | sequence line tag items => exact .inl ⟨rfl, rfl, fun _ => rfl⟩
  | mapping line tag pairs => exact .inl ⟨rfl, rfl, fun _ => rfl⟩
  | _ =>
    rename_i line name target number
    right
    unfold follow arrive
    dsimp only
    cases hlookup : d.anchored.lookup target with
    | none => exact .inr ⟨rfl, _, fun _ => rfl⟩
    | some value => exact .inl ⟨name, target, number, mem_anchored hlookup, fun _ => rfl⟩

/-- Too much was read inside of aliases. -/
def excess : Failure :=
  .malformed "document contains excessive aliasing"

/-- The same aliases are being read and the same problems were found, however much was read. Without
anchors nothing was read inside of an alias. -/
structure Progress.Alike (d : Document) (inside : List Nat) (p q : Progress) : Prop where
  left : p.entered = inside
  right : q.entered = inside
  problems : p.problems = q.problems
  direct : d.anchored = [] → inside = [] ∧ p.aliased = 0 ∧ q.aliased = 0

theorem Progress.Alike.symm {d : Document} {inside : List Nat} {p q : Progress}
    (h : p.Alike d inside q) : q.Alike d inside p := by
  refine ⟨h.right, h.left, h.problems.symm, ?_⟩
  intro hd
  obtain ⟨hinside, hp, hq⟩ := h.direct hd
  exact ⟨hinside, hq, hp⟩

namespace Decoding

variable {α β γ δ : Type} {d : Document} {inside : List Nat} {R : α → β → Prop} {S : γ → δ → Prop}

/-! ## Readings that agree -/

/-- The results of two readings: the same error, or related values and the same problems behind those
given. Where there are anchors, one of the readings may have been given up. -/
inductive Meets (d : Document) (inside : List Nat) (R : α → β → Prop) (problems : List String) :
    Except Failure (α × Progress) → Except Failure (β × Progress) → Prop
  | error (cause : Failure) : Meets d inside R problems (.error cause) (.error cause)
  | ok {a : α} {b : β} {p q : Progress} (h : R a b) (halike : p.Alike d inside q)
      (hmore : problems <:+ p.problems) : Meets d inside R problems (.ok (a, p)) (.ok (b, q))
  | left (h : d.anchored ≠ []) (r : Except Failure (β × Progress)) :
      Meets d inside R problems (.error excess) r
  | right (h : d.anchored ≠ []) (r : Except Failure (α × Progress)) :
      Meets d inside R problems r (.error excess)

/-- Fewer problems were given. -/
theorem Meets.of_suffix {problems problems' : List String} {r : Except Failure (α × Progress)}
    {r' : Except Failure (β × Progress)} (h : Meets d inside R problems' r r')
    (hmore : problems <:+ problems') : Meets d inside R problems r r' := by
  cases h with
  | error cause => exact .error cause
  | ok h halike hmore' => exact .ok h halike (hmore.trans hmore')
  | left hd => exact .left hd _
  | right hd => exact .right hd _

/-- From states that differ in their counts, the two readings have results that meet. -/
def Agree (d : Document) (inside : List Nat) (R : α → β → Prop) (m : Decoding α) (m' : Decoding β) :
    Prop :=
  ∀ p q : Progress, p.Alike d inside q → Meets d inside R p.problems (m p) (m' q)

/-- The reading agrees with itself, whatever aliases are being read. -/
def Steady (d : Document) (m : Decoding α) : Prop :=
  ∀ inside, Agree d inside Eq m m

namespace Agree

theorem pure {a : α} {b : β} (h : R a b) : Agree d inside R (Pure.pure a) (Pure.pure b) := by
  intro p q hpq
  exact .ok h hpq (List.suffix_refl _)

theorem throw (cause : Failure) :
    Agree d inside R (MonadExcept.throw cause) (MonadExcept.throw cause) := by
  intro p q hpq
  exact .error cause

theorem bind {m : Decoding α} {m' : Decoding β} {f : α → Decoding γ} {f' : β → Decoding δ}
    (hm : Agree d inside R m m') (hf : ∀ a b, R a b → Agree d inside S (f a) (f' b)) :
    Agree d inside S (m >>= f) (m' >>= f') := by
  intro p q hpq
  have h := hm p q hpq
  change Meets d inside S p.problems (m p >>= fun r => f r.1 r.2) (m' q >>= fun r => f' r.1 r.2)
  generalize m p = r at h ⊢
  generalize m' q = r' at h ⊢
  cases h with
  | error cause => exact .error cause
  | ok h halike hmore => exact (hf _ _ h _ _ halike).of_suffix hmore
  | left hd => exact .left hd _
  | right hd => exact .right hd _

theorem mono {R' : α → β → Prop} {m : Decoding α} {m' : Decoding β} (h : Agree d inside R m m')
    (hR : ∀ a b, R a b → R' a b) : Agree d inside R' m m' := by
  intro p q hpq
  have hmeets := h p q hpq
  generalize m p = r at hmeets ⊢
  generalize m' q = r' at hmeets ⊢
  cases hmeets with
  | error cause => exact .error cause
  | ok h halike hmore => exact .ok (hR _ _ h) halike hmore
  | left hd => exact .left hd _
  | right hd => exact .right hd _

/-- The same items one after the other, some of which do nothing but to be read. -/
theorem foldlM_filter {ι : Type} {R : α → α → Prop} {f : α → ι → Decoding α} {keep : ι → Bool}
    {items : List ι} {a b : α} (hab : R a b)
    (hkeep : ∀ a b item, R a b → Agree d inside R (f a item) (f b item))
    (hskip : ∀ a b, ∀ item ∈ items, keep item = false → R a b →
      Agree d inside R (f a item) (Pure.pure b)) :
    Agree d inside R (items.foldlM f a) ((items.filter keep).foldlM f b) := by
  induction items generalizing a b with
  | nil => exact pure hab
  | cons item items ih =>
    have hrest : ∀ a b, R a b →
        Agree d inside R (items.foldlM f a) ((items.filter keep).foldlM f b) := by
      intro a b hab
      apply ih hab
      intro a b item hitem
      exact hskip a b item (List.mem_cons_of_mem _ hitem)
    rw [List.foldlM_cons]
    cases hk : keep item with
    | true =>
      rw [List.filter_cons_of_pos hk, List.foldlM_cons]
      exact bind (hkeep a b item hab) hrest
    | false =>
      rw [List.filter_cons_of_neg (by simp [hk])]
      have h := bind (hskip a b item List.mem_cons_self hk hab) hrest
      rwa [pure_bind] at h

theorem foldlM {ι : Type} {R : α → α → Prop} {f : α → ι → Decoding α} {items : List ι} {a b : α}
    (hab : R a b) (hf : ∀ a b item, R a b → Agree d inside R (f a item) (f b item)) :
    Agree d inside R (items.foldlM f a) (items.foldlM f b) := by
  have h : Agree d inside R (items.foldlM f a) ((items.filter fun _ => true).foldlM f b) :=
    foldlM_filter hab hf (by simp)
  rwa [List.filter_eq_self.2 fun _ _ => rfl] at h

end Agree

/-! ## Counts, problems and aliases -/

/-- The state with one more read. -/
def counted (p : Progress) : Progress :=
  { p with
    reads := p.reads + 1, aliased := if p.entered.isEmpty then p.aliased else p.aliased + 1 }

theorem count_eq (p : Progress) :
    count p = if isExcessive (counted p).aliased (counted p).reads then .error excess
      else .ok ((), counted p) := by
  have hsteps : count p = (if isExcessive (counted p).aliased (counted p).reads then
      (do throw excess; set (counted p)) else set (counted p) : Decoding Unit) p := rfl
  rw [hsteps]
  split
  · rfl
  · rfl

/-- A read changes the counts alone, or it is the one at which the reading is given up. -/
theorem count_cases {p q : Progress} (h : p.Alike d inside q) :
    (d.anchored ≠ [] ∧ count p = .error excess) ∨
      count p = .ok ((), counted p) ∧ (counted p).Alike d inside q := by
  rw [count_eq]
  by_cases hd : d.anchored = []
  · -- without anchors no read is inside of an alias, and no count is excessive
    obtain ⟨hinside, hp, hq⟩ := h.direct hd
    have haliased : (counted p).aliased = 0 := by simp [counted, h.left, hinside, hp]
    refine .inr ⟨by simp [haliased, isExcessive], h.left, h.right, h.problems, ?_⟩
    intro _
    exact ⟨hinside, haliased, hq⟩
  · split
    · exact .inl ⟨hd, rfl⟩
    · exact .inr ⟨rfl, h.left, h.right, h.problems, fun hd' => absurd hd' hd⟩

theorem steady_count : Steady d count := by
  intro inside p q hpq
  rcases count_cases hpq with ⟨hd, hcount⟩ | ⟨hcount, halike⟩
  · rw [hcount]
    exact .left hd _
  · rw [hcount]
    rcases count_cases halike.symm with ⟨hd, hcount'⟩ | ⟨hcount', halike'⟩
    · rw [hcount']
      exact .right hd _
    · rw [hcount']
      exact .ok rfl halike'.symm (List.suffix_refl _)

theorem steady_reportAll (problems : List String) : Steady d (reportAll problems) := by
  intro inside p q hpq
  refine .ok rfl ⟨hpq.left, hpq.right, ?_, hpq.direct⟩ (List.suffix_append _ _)
  exact congrArg (problems.reverse ++ ·) hpq.problems

theorem steady_report (problem : String) : Steady d (report problem) :=
  steady_reportAll [problem]

/-- What does not look at the state at all. -/
theorem steady_lift (result : Except Failure α) : Steady d (liftM result : Decoding α) := by
  intro inside p q hpq
  cases result with
  | error cause => exact .error cause
  | ok a => exact .ok rfl hpq (List.suffix_refl _)

theorem entering_eq (name : String) (number : Nat) (step : Decoding α) (p : Progress) :
    entering name number step p =
      if number ∈ p.entered then .error (.malformed ("anchor '" ++ name ++ "' value contains itself"))
      else (step { p with entered := number :: p.entered }).map fun r =>
        (r.1, { r.2 with entered := r.2.entered.drop 1 }) := by
  have hsteps : entering name number step p = (if number ∈ p.entered then
      (do throw (.malformed ("anchor '" ++ name ++ "' value contains itself"))
          modify fun p => { p with entered := number :: p.entered }
          let a ← step
          modify fun p => { p with entered := p.entered.drop 1 }
          return a)
      else (do
        modify fun p => { p with entered := number :: p.entered }
        let a ← step
        modify fun p => { p with entered := p.entered.drop 1 }
        return a) : Decoding α) p := rfl
  rw [hsteps]
  split
  · rfl
  · change (step { p with entered := number :: p.entered } >>= fun r =>
      Except.ok (r.1, { r.2 with entered := r.2.entered.drop 1 })) = _
    cases step { p with entered := number :: p.entered } with
    | error cause => rfl
    | ok r => rfl

/-- An alias that is entered is left again. -/
theorem Agree.entering {name : String} {number : Nat} {m : Decoding α} {m' : Decoding β}
    (hd : d.anchored ≠ []) (h : Agree d (number :: inside) R m m') :
    Agree d inside R (entering name number m) (entering name number m') := by
  intro p q hpq
  rw [entering_eq, entering_eq, hpq.left, hpq.right]
  split
  · exact .error _
  · have hmeets := h { p with entered := number :: inside } { q with entered := number :: inside }
      ⟨rfl, rfl, hpq.problems, fun hnone => absurd hnone hd⟩
    generalize m { p with entered := number :: inside } = r at hmeets ⊢
    generalize m' { q with entered := number :: inside } = r' at hmeets ⊢
    cases hmeets with
    | error cause => exact .error cause
    | left hd => exact .left hd _
    | right hd => exact .right hd _
    | ok hR halike hmore =>
      refine .ok hR ⟨?_, ?_, halike.problems, fun hnone => absurd hnone hd⟩ hmore
      · exact congrArg (List.drop 1) halike.left
      · exact congrArg (List.drop 1) halike.right

/-- The values at a node, or at what its alias stands for. -/
theorem Agree.arrive {n : Node} {step : Node → Decoding α} {step' : Node → Decoding β}
    (h : ∀ inside n, Agree d inside R (step n) (step' n)) :
    Agree d inside R (d.arrive n step) (d.arrive n step') := by
  rcases d.arrive_cases n with ⟨-, -, heq⟩ | ⟨name, target, number, hmem, heq⟩ | ⟨-, cause, heq⟩
  · rw [heq, heq]
    exact (steady_count inside).bind fun _ _ _ => h inside n
  · rw [heq, heq]
    refine (steady_count inside).bind fun _ _ _ => ?_
    apply Agree.entering (List.ne_nil_of_mem hmem)
    exact (steady_count _).bind fun _ _ _ => h _ _
  · rw [heq, heq]
    exact (steady_count inside).bind fun _ _ _ => .throw cause

/-! ## Readings that leave nothing behind -/

/-- The reading gives a value with the property and changes nothing but the counts. -/
def Quiet (d : Document) (inside : List Nat) (P : α → Prop) (m : Decoding α) : Prop :=
  Agree d inside (fun a (_ : Unit) => P a) m (Pure.pure ())

namespace Quiet

variable {P : α → Prop} {Q : β → Prop}

theorem pure {a : α} (h : P a) : Quiet d inside P (Pure.pure a) :=
  Agree.pure h

theorem count : Quiet d inside (fun _ => True) Decoding.count := by
  intro p q hpq
  rcases count_cases hpq with ⟨hd, hcount⟩ | ⟨hcount, halike⟩
  · rw [hcount]
    exact .left hd _
  · rw [hcount]
    exact .ok trivial halike (List.suffix_refl _)

/-- In front of other readings it makes no difference. -/
theorem bind_agree {m : Decoding α} {f : α → Decoding γ} {m' : Decoding δ} (hm : Quiet d inside P m)
    (hf : ∀ a, P a → Agree d inside S (f a) m') : Agree d inside S (m >>= f) m' := by
  have h : Agree d inside S (m >>= f) (Pure.pure () >>= fun _ => m') :=
    Agree.bind hm fun a _ ha => hf a ha
  rwa [pure_bind] at h

theorem entering {name : String} {number : Nat} {m : Decoding α} (hd : d.anchored ≠ [])
    (hnew : number ∉ inside) (h : Quiet d (number :: inside) P m) :
    Quiet d inside P (Decoding.entering name number m) := by
  intro p q hpq
  rw [entering_eq, hpq.left, if_neg hnew]
  have hmeets := h { p with entered := number :: inside } { q with entered := number :: inside }
    ⟨rfl, rfl, hpq.problems, fun hnone => absurd hnone hd⟩
  generalize m { p with entered := number :: inside } = r at hmeets ⊢
  cases hmeets with
  | left hd => exact .left hd _
  | ok ha halike hmore =>
    refine .ok ha ⟨?_, hpq.right, halike.problems, fun hnone => absurd hnone hd⟩ hmore
    exact congrArg (List.drop 1) halike.left

/-- The value at a node outside of all aliases. -/
theorem arrive {n : Node} {step : Node → Decoding α} (halias : (d.follow n).isAlias = false)
    (h : ∀ inside, Quiet d inside P (step (d.follow n))) : Quiet d [] P (d.arrive n step) := by
  rcases d.arrive_cases n with ⟨hself, -, heq⟩ | ⟨name, target, number, hmem, heq⟩ | ⟨hnone, -⟩
  · rw [heq, ← hself]
    exact count.bind_agree fun _ _ => h []
  · rw [heq]
    refine count.bind_agree fun _ _ => ?_
    apply entering (List.ne_nil_of_mem hmem) List.not_mem_nil
    exact count.bind_agree fun _ _ => h _
  · rw [hnone] at halias
    cases halias

end Quiet

/-! ## Steady readings -/

namespace Steady

theorem pure (a : α) : Steady d (Pure.pure a : Decoding α) :=
  fun _ => Agree.pure rfl

theorem throw (cause : Failure) : Steady d (MonadExcept.throw cause : Decoding α) :=
  fun _ => Agree.throw cause

theorem bind {m : Decoding α} {f : α → Decoding γ} (hm : Steady d m) (hf : ∀ a, Steady d (f a)) :
    Steady d (m >>= f) := by
  intro inside
  refine (hm inside).bind ?_
  rintro a _ rfl
  exact hf a inside

theorem arrive {n : Node} {step : Node → Decoding α} (h : ∀ n, Steady d (step n)) :
    Steady d (d.arrive n step) :=
  fun _ => Agree.arrive fun inside n => h n inside

theorem foldlM {ι : Type} {f : α → ι → Decoding α} {items : List ι} {a : α}
    (hf : ∀ a item, Steady d (f a item)) : Steady d (items.foldlM f a) := by
  intro inside
  apply Agree.foldlM rfl
  rintro a _ item rfl
  exact hf a item inside

theorem forIn {ι : Type} {f : ι → α → Decoding (ForInStep α)} {items : List ι} {a : α}
    (hf : ∀ item a, Steady d (f item a)) : Steady d (ForIn.forIn items a f) := by
  induction items generalizing a with
  | nil => exact pure a
  | cons item items ih =>
    rw [List.forIn_cons]
    refine bind (hf item a) ?_
    intro step
    cases step with
    | done b => exact pure b
    | yield b => exact ih

theorem mapM {ι : Type} {f : ι → Decoding α} {items : List ι} (hf : ∀ item, Steady d (f item)) :
    Steady d (items.mapM f) := by
  induction items with
  | nil => exact pure []
  | cons item items ih =>
    rw [List.mapM_cons]
    exact bind (hf item) fun _ => bind ih fun _ => pure _

end Steady

/-- A reading that agrees with itself only adds problems. -/
theorem Agree.problems_suffix {R : α → α → Prop} {m : Decoding α} (hm : Agree d inside R m m)
    {p q : Progress} {a : α} (hp : p.Alike d inside p) (h : m p = .ok (a, q)) :
    p.problems <:+ q.problems ∧ q.Alike d inside q := by
  have hmeets := hm p p hp
  rw [h] at hmeets
  cases hmeets with
  | ok hsame halike hmore => exact ⟨hmore, halike⟩

/-- Whole readings that agree have one result, unless one of them is given up. -/
theorem Agree.result {m m' : Decoding α} (h : Agree d [] Eq m m') :
    result m = result m' ∨
      d.anchored ≠ [] ∧ (result m = .error excess ∨ result m' = .error excess) := by
  have hmeets := h {} {} ⟨rfl, rfl, rfl, fun _ => ⟨rfl, rfl, rfl⟩⟩
  unfold Decoding.result StateT.run
  generalize m {} = r at hmeets ⊢
  generalize m' {} = r' at hmeets ⊢
  cases hmeets with
  | error cause => exact .inl rfl
  | left hd => exact .inr ⟨hd, .inl rfl⟩
  | right hd => exact .inr ⟨hd, .inr rfl⟩
  | ok hsame halike hmore =>
    subst hsame
    dsimp only
    rw [halike.problems]
    exact .inl rfl

end Decoding

/-! ## The readings of values -/

namespace Document

open Decoding

variable {d : Document}

theorem steady_refuse {α : Type} (n : Node) (typeName : String) :
    Steady d (refuse n typeName : Decoding (Option α)) := by
  unfold refuse
  cases n with
  | scalar line tag text => exact .bind (steady_report _) fun _ => .pure none
  | sequence line tag items => exact .bind (steady_report _) fun _ => .pure none
  | mapping line tag pairs =>
    dsimp only
    split
    · exact .bind (steady_report _) fun _ => .pure none
    · exact .bind (steady_reportAll _) fun _ => .pure none
  | _ => exact .pure none

theorem steady_readText (n : Node) : Steady d (d.readText n) := by
  apply Steady.arrive
  intro n
  split
  · refine .bind (steady_lift _) ?_
    intro resolved
    split
    · exact .pure none
    · exact .pure _
    · exact .pure _
  · exact steady_refuse n "string"

theorem steady_readTruth (n : Node) : Steady d (d.readTruth n) := by
  apply Steady.arrive
  intro n
  split
  · refine .bind (steady_lift _) ?_
    intro resolved
    split
    · exact .pure none
    · exact .pure _
    · split
      · exact .pure _
      · exact steady_refuse _ "bool"
    · exact steady_refuse _ "bool"
  · exact steady_refuse n "bool"

theorem steady_examine (limit : Nat) (n : Node) : Steady d (d.examine limit n) := by
  induction limit generalizing n with
  | zero => exact .throw tooNested
  | succ limit ih =>
    unfold examine
    apply Steady.arrive
    intro n
    split
    · exact .bind (steady_lift _) fun _ => .pure true
    · exact .bind (.forIn fun item _ => .bind (ih item) fun _ => .pure _) fun _ => .pure true
    · dsimp only
      split
      · refine .bind (.forIn ?_) ?_
        · intro pair _
          split
          · refine .bind (ih pair.1) ?_
            intro well
            split
            · split
              · exact .bind (.throw _) fun _ => .bind (ih pair.2) fun _ => .pure _
              · exact .bind (ih pair.2) fun _ => .pure _
            · exact .pure _
          · exact .pure _
        · intro _
          split
          · refine .bind (.forIn ?_) fun _ => .pure true
            intro item _
            split
            · exact .bind (ih item) fun _ => .pure _
            · exact .bind (.throw _) fun _ => .bind (ih item) fun _ => .pure _
          · exact .pure true
      · exact .bind (steady_reportAll _) fun _ => .pure false
    · exact .pure true

end Document
end MiniLua.Yaml

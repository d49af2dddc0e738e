import MiniLua.Diagnostic

/-!
# Diagnoses through layers

A failure is a cause under layers, in any number and order: words in front of it, and sources that could
not be obtained. A diagnostic looks for one kind of failure after the other in the whole chain. Only the
cause can be a lexical failure, a parse failure or a refused call, so these are found through all
layers; any other cause shows in the diagnostic only as the text under the outermost loading layer, or
as the whole text where there is no such layer. Words in front of a failure are therefore seen by
nothing but a failure of the run.

## Delivered

- `Layer`, `Failure.under`: a cause under layers; `Failure.exists_under`: every failure is one.
- `Failure.findSome?_chain_under`: a search that layers do not answer.
- `Failure.findSome?_load?_under`: the search for the outermost loading layer.
- `Failure.diagnosed`: the diagnostic of every failure.
-/

set_option autoImplicit false

namespace MiniLua

/-! ## Layers -/

/-- A layer of a failure. -/
inductive Layer where
  /-- Words in front of the text. -/
  | words (front : String)
  /-- A source that could not be obtained. -/
  | load (source : String)

/-- The failure under one more layer. -/
def Layer.over : Layer → Failure → Failure
  | .words front, f => .behind front f
  | .load path, f => .load path f

/-- The layer is a loading layer. -/
def Layer.isLoad : Layer → Bool
  | .words _ => false
  | .load _ => true

/-- The layers under the outermost loading layer. -/
def Layer.inside (layers : List Layer) : List Layer :=
  (layers.dropWhile fun layer => !layer.isLoad).tail

namespace Failure

/-- The failure under layers, outermost first. -/
def under (f : Failure) (layers : List Layer) : Failure :=
  layers.foldr Layer.over f

/-- The failure has no layer. -/
def isCause : Failure → Bool
  | .load _ _ => false
  | .behind _ _ => false
  | _ => true

/-- The failure is a cause that carries nothing but its text. -/
def isUntyped : Failure → Bool
  | .lexical _ _ => false
  | .parse _ _ => false
  | .misuse _ => false
  | f => f.isCause

/-- Every failure is a cause under its layers. -/
theorem exists_under (f : Failure) : ∃ cause layers, isCause cause = true ∧ cause.under layers = f := by
  induction f with
  | load source f ih =>
    obtain ⟨cause, layers, hcause, rfl⟩ := ih
    exact ⟨cause, .load source :: layers, hcause, rfl⟩
  | behind words f ih =>
    obtain ⟨cause, layers, hcause, rfl⟩ := ih
    exact ⟨cause, .words words :: layers, hcause, rfl⟩
  | _ => exact ⟨_, [], rfl, rfl⟩

theorem isCause_of_isUntyped {f : Failure} (h : f.isUntyped = true) : f.isCause = true := by
  cases f with
  | lexical message place => cases h
  | parse message place => cases h
  | misuse cause => cases h
  | _ => exact h

/-! ## Searches in a chain -/

variable {α : Type} {f cause : Failure} {layers outer inner : List Layer} {path : String}

theorem chain_of_isCause (h : f.isCause = true) : f.chain = [f] := by
  cases f with
  | load source f => cases h
  | behind words f => cases h
  | _ => rfl

/-- The chain under one more layer. -/
theorem chain_over (layer : Layer) (f : Failure) :
    (layer.over f).chain = layer.over f :: f.chain := by
  cases layer with
  | words words => rfl
  | load source => rfl

/-- A search that no layer answers goes on to what is under the layers. -/
theorem findSome?_chain_under (ask : Failure → Option α)
    (hask : ∀ layer ∈ layers, ∀ f, ask (layer.over f) = none) (f : Failure) :
    (f.under layers).chain.findSome? ask = f.chain.findSome? ask := by
  induction layers with
  | nil => rfl
  | cons layer layers ih =>
    have hfirst : ask (layer.over (f.under layers)) = none := hask layer List.mem_cons_self _
    have hrest := ih fun l hl => hask l (List.mem_cons_of_mem layer hl)
    calc ((layer.over (f.under layers)).chain).findSome? ask
        = (f.under layers).chain.findSome? ask := by
          rw [chain_over, List.findSome?_cons_of_isNone (by simp [hfirst])]
      _ = f.chain.findSome? ask := hrest

@[simp] theorem findSome?_lexical?_under (f : Failure) (layers : List Layer) :
    (f.under layers).chain.findSome? lexical? = f.chain.findSome? lexical? :=
  findSome?_chain_under lexical? (fun layer _ _ => by cases layer <;> rfl) f

@[simp] theorem findSome?_parse?_under (f : Failure) (layers : List Layer) :
    (f.under layers).chain.findSome? parse? = f.chain.findSome? parse? :=
  findSome?_chain_under parse? (fun layer _ _ => by cases layer <;> rfl) f

@[simp] theorem findSome?_misuse?_under (f : Failure) (layers : List Layer) :
    (f.under layers).chain.findSome? misuse? = f.chain.findSome? misuse? :=
  findSome?_chain_under misuse? (fun layer _ _ => by cases layer <;> rfl) f

/-- The search for a loading layer finds the outermost one. -/
theorem findSome?_load?_under (h : layers.any Layer.isLoad = true) (f : Failure) :
    (f.under layers).chain.findSome? load? = some (f.under (Layer.inside layers)) := by
  induction layers with
  | nil => cases h
  | cons layer layers ih =>
    cases layer with
    | words front => exact ih h
    | load source => rfl

/-- Where there are words alone, the search for a loading layer goes on under them. -/
theorem findSome?_load?_under_words (h : layers.any Layer.isLoad = false) (f : Failure) :
    (f.under layers).chain.findSome? load? = f.chain.findSome? load? := by
  apply findSome?_chain_under
  intro layer hlayer g
  cases layer with
  | words front => rfl
  | load source => exact absurd rfl (List.any_eq_false.1 h _ hlayer)

/-! ## Diagnostics -/

/-- The kinds of failures that only a cause can have are found through all layers. -/
theorem diagnostic_under_of_typed (htyped : cause.isCause = true) (huntyped : cause.isUntyped = false)
    (layers : List Layer) (path : String) :
    (cause.under layers).diagnostic path = cause.diagnostic path := by
  simp only [diagnostic, findSome?_lexical?_under, findSome?_parse?_under, findSome?_misuse?_under,
    chain_of_isCause htyped]
  cases cause with
  | lexical message place => rfl
  | parse message place => rfl
  | misuse cause => rfl
  | load source f => cases htyped
  | behind words f => cases htyped
  | _ => cases huntyped

/-- For any other cause the diagnostic depends on the loading layers alone. -/
theorem diagnostic_under_of_untyped (h : cause.isUntyped = true) (layers : List Layer)
    (path : String) : (cause.under layers).diagnostic path =
      ((cause.under layers).chain.findSome? load?).elim
        ⟨.runtime, (cause.under layers).text, { path := path }⟩
        fun f => ⟨.load, f.text, { path := path }⟩ := by
  have hnone : lexical? cause = none ∧ parse? cause = none ∧ misuse? cause = none := by
    cases cause with
    | lexical message place => cases h
    | parse message place => cases h
    | misuse cause => cases h
    | _ => exact ⟨rfl, rfl, rfl⟩
  simp only [diagnostic, findSome?_lexical?_under, findSome?_parse?_under, findSome?_misuse?_under,
    chain_of_isCause (isCause_of_isUntyped h), List.findSome?_singleton, hnone]
  cases (cause.under layers).chain.findSome? load? with
  | none => rfl
  | some f => rfl

/-- Words in front of a failure change its diagnostic only when it is one of the run. -/
theorem diagnostic_under_of_ne_runtime (hwords : layers.any Layer.isLoad = false)
    (h : (f.diagnostic path).stage ≠ .runtime) :
    (f.under layers).diagnostic path = f.diagnostic path := by
  have hload := findSome?_load?_under_words hwords f
  simp only [diagnostic, findSome?_lexical?_under, findSome?_parse?_under, findSome?_misuse?_under,
    hload] at h ⊢
  -- what is found does not depend on the words; only where nothing is found does the text count
  cases hl : f.chain.findSome? lexical? with
  | some found => rfl
  | none =>
    cases hp : f.chain.findSome? parse? with
    | some found => rfl
    | none =>
      cases hm : f.chain.findSome? misuse? with
      | some found => rfl
      | none =>
        cases hd : f.chain.findSome? load? with
        | some found => rfl
        | none =>
          rw [hl, hp, hm, hd] at h
          exact absurd rfl h

/-- What the diagnostic says of a cause under layers. -/
structure Diagnosed (path : String) (layers : List Layer) : Prop where
  /-- A lexical failure has its own message and place, in the text at the path. -/
  lexical : ∀ message place, ((lexical message place).under layers).diagnostic path =
    ⟨.lexical, message, { path := path, line := place.line, column := place.column }⟩
  /-- So has a parse failure. -/
  parse : ∀ message place, ((parse message place).under layers).diagnostic path =
    ⟨.parse, message, { path := path, line := place.line, column := place.column }⟩
  /-- A refused call has its own text, and the path as its place. -/
  misuse : ∀ cause, ((misuse cause).under layers).diagnostic path =
    ⟨.argument, cause.text, { path := path }⟩
  /-- Under a loading layer any other cause has the text of what lies directly under the outermost
  one. -/
  load : ∀ cause, isUntyped cause = true → layers.any Layer.isLoad = true →
    (cause.under layers).diagnostic path =
      ⟨.load, (cause.under (Layer.inside layers)).text, { path := path }⟩
  /-- Under words alone it has the whole text. -/
  runtime : ∀ cause, isUntyped cause = true → layers.any Layer.isLoad = false →
    (cause.under layers).diagnostic path =
      ⟨.runtime, (cause.under layers).text, { path := path }⟩
  /-- Words in front of any failure change nothing, unless it is one of the run. -/
  outside : ∀ f, (diagnostic f path).stage ≠ .runtime → layers.any Layer.isLoad = false →
    (f.under layers).diagnostic path = f.diagnostic path

/-- Every failure is a cause under layers, and its diagnostic sees through them. -/
theorem diagnosed :
    (∀ f, ∃ cause layers, isCause cause = true ∧ cause.under layers = f) ∧
    ∀ path layers, Diagnosed path layers := by
  refine ⟨exists_under, ?_⟩
  intro path layers
  constructor
  case lexical =>
    intro message place
    rw [diagnostic_under_of_typed rfl rfl]
    rfl
  case parse =>
    intro message place
    rw [diagnostic_under_of_typed rfl rfl]
    rfl
  case misuse =>
    intro cause
    rw [diagnostic_under_of_typed rfl rfl]
    rfl
  case load =>
    intro cause huntyped hload
    rw [diagnostic_under_of_untyped huntyped, findSome?_load?_under hload]
    rfl
  case runtime =>
    intro cause huntyped hwords
    have hnone : cause.chain.findSome? load? = none := by
      rw [chain_of_isCause (isCause_of_isUntyped huntyped)]
      cases cause with
      | load source f => cases huntyped
      | _ => rfl
    rw [diagnostic_under_of_untyped huntyped, findSome?_load?_under_words hwords, hnone]
    rfl
  case outside =>
    intro f hstage hwords
    exact diagnostic_under_of_ne_runtime hwords hstage

/-- A missing file under two sources with words outside and between, and a parse failure under a source
and words. -/
theorem diagnosed_nested_sources :
    ((plain "no such file").under
        [.words "check: ", .load "m.yml", .words "read ", .load "a.lua"]).diagnostic "m.yml" =
      ⟨.load, ((plain "no such file").under [.words "read ", .load "a.lua"]).text,
        { path := "m.yml" }⟩ ∧
    ((parse "end expected" { line := 3, column := 5 }).under
        [.load "m.yml", .words "parse "]).diagnostic "a.lua" =
      ⟨.parse, "end expected", { path := "a.lua", line := 3, column := 5 }⟩ := by
  refine ⟨?_, (diagnosed.2 _ _).parse _ _⟩
  exact (diagnosed.2 "m.yml" [.words "check: ", .load "m.yml", .words "read ", .load "a.lua"]).load
    (plain "no such file") rfl rfl

end Failure
end MiniLua

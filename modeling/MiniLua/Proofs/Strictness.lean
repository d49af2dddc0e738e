import MiniLua.Manifest.Decode
import MiniLua.Proofs.RecordKeys
import MiniLua.Proofs.Scanning

/-!
# Keys that a manifest does not have

The mapping of a manifest has no other keys than those of a draft: any other name among them is an
error, and so is a key that is no text at all. The mappings of its programs are read by themselves and
may have other keys, which are passed over.

## Delivered

- `Decoding.Vouches` and its lemmas: what is known of the values that are read without a problem.
- `Document.knows`, `Document.vouches_readRecord`: the keys of a record without other fields.
- `Draft.readsSteadily_shape`: the fields of a draft are read in the same way at all times.
- `Draft.knows_of_ofDocument?`: every key of a draft that is read is known.
- `Manifest.foreign_keys`: other keys of a manifest, and of its programs.
-/

set_option autoImplicit false

namespace MiniLua.Yaml

namespace Decoding

variable {α β : Type} {d : Document} {inside : List Nat} {P : α → Prop} {Q : β → Prop}

/-! ## Values that are read without a problem -/

/-- Every value that is read without a problem has the property. -/
def Vouches (d : Document) (inside : List Nat) (P : α → Prop) (m : Decoding α) : Prop :=
  ∀ before a after, before.Alike d inside before → m before = .ok (a, after) →
    P a ∨ after.problems ≠ []

namespace Vouches

theorem pure {a : α} (h : P a) : Vouches d inside P (Pure.pure a) := by
  intro before a after _ hrun
  cases hrun
  exact .inl h

theorem throw (cause : Failure) : Vouches d inside P (MonadExcept.throw cause) := by
  intro before a after _ hrun
  cases hrun

theorem of_forall {m : Decoding α} (h : ∀ a, P a) : Vouches d inside P m := by
  intro before a after _ _
  exact .inl (h a)

/-- A problem that was found is not forgotten. -/
theorem bind {R : α → α → Prop} {S : β → β → Prop} {m : Decoding α} {f : α → Decoding β}
    (hm : Vouches d inside P m) (hagree : Agree d inside R m m)
    (hf : ∀ a, P a → Vouches d inside Q (f a)) (hmore : ∀ a, Agree d inside S (f a) (f a)) :
    Vouches d inside Q (m >>= f) := by
  intro before b after hbefore hrun
  obtain ⟨a, between, ha, hb⟩ := exists_of_bind_eq_ok hrun
  obtain ⟨-, hbetween⟩ := hagree.problems_suffix hbefore ha
  rcases hm before a between hbefore ha with hP | hproblems
  · exact hf a hP between b after hbetween hb
  · obtain ⟨hsuffix, -⟩ := (hmore a).problems_suffix hbetween hb
    right
    intro hnone
    rw [hnone, List.suffix_nil] at hsuffix
    exact hproblems hsuffix

/-- A reading whose value does not matter. -/
theorem bind_any {R : α → α → Prop} {m : Decoding α} {f : α → Decoding β}
    (hagree : Agree d inside R m m) (hf : ∀ a, Vouches d inside Q (f a)) :
    Vouches d inside Q (m >>= f) := by
  intro before b after hbefore hrun
  obtain ⟨a, between, ha, hb⟩ := exists_of_bind_eq_ok hrun
  exact hf a between b after (hagree.problems_suffix hbefore ha).2 hb

theorem mono {P' : α → Prop} {m : Decoding α} (hm : Vouches d inside P m)
    (h : ∀ a, P a → P' a) : Vouches d inside P' m := by
  intro before a after hbefore hrun
  exact (hm before a after hbefore hrun).imp (h a) id

/-- After a problem nothing is claimed. -/
theorem reportAll_pure {problems : List String} (h : problems ≠ []) (a : α) :
    Vouches d inside P (reportAll problems >>= fun _ => Pure.pure a) := by
  intro before a after _ hrun
  cases hrun
  right
  simp [h]

theorem report_pure (problem : String) (a : α) :
    Vouches d inside P (report problem >>= fun _ => Pure.pure a) :=
  reportAll_pure (List.cons_ne_nil problem []) a

theorem entering {name : String} {number : Nat} {m : Decoding α} (hd : d.anchored ≠ [])
    (h : Vouches d (number :: inside) P m) : Vouches d inside P (entering name number m) := by
  intro before a after hbefore hrun
  rw [entering_eq] at hrun
  split at hrun
  · cases hrun
  · cases hm : m { before with entered := number :: before.entered } with
    | error cause =>
      rw [hm] at hrun
      cases hrun
    | ok r =>
      rw [hm] at hrun
      cases hrun
      have hentered : number :: before.entered = number :: inside :=
        congrArg (number :: ·) hbefore.left
      exact h _ r.1 r.2 ⟨hentered, hentered, rfl, fun hnone => absurd hnone hd⟩ hm

/-- The value at a node, or the one that its alias stands for. -/
theorem arrive {n : Node} {step : Node → Decoding α}
    (hdirect : d.Direct)
    (h : ∀ inside, (d.follow n).isAlias = false → Vouches d inside P (step (d.follow n))) :
    Vouches d inside P (d.arrive n step) := by
  rcases d.arrive_cases n with ⟨hself, hn, heq⟩ | ⟨name, target, number, hmem, heq⟩ | ⟨-, cause, heq⟩
  · rw [hself] at h
    rw [heq]
    exact bind_any (steady_count inside) fun _ => h inside hn
  · rw [heq]
    refine bind_any (steady_count inside) fun _ => ?_
    apply entering (List.ne_nil_of_mem hmem)
    exact bind_any (steady_count _) fun _ => h _ (hdirect _ hmem)
  · rw [heq]
    exact bind_any (steady_count inside) fun _ => throw cause

/-- Items one after the other, each with a property of its own. -/
theorem foldlM {ι : Type} {R : α → α → Prop} {f : α → ι → Decoding α} {K : ι → Prop}
    {items : List ι} {a : α} (ha : P a) (hrefl : ∀ a, R a a)
    (hagree : ∀ a b item, R a b → Agree d inside R (f a item) (f b item))
    (hf : ∀ a item, P a → Vouches d inside (fun a' => P a' ∧ K item) (f a item)) :
    Vouches d inside (fun _ => ∀ item ∈ items, K item) (items.foldlM f a) := by
  induction items generalizing a with
  | nil => exact pure (by simp)
  | cons item items ih =>
    rw [List.foldlM_cons]
    -- a problem of the first item stays; without one the item has its property
    refine bind (S := R) (hf a item ha) (hagree a a item (hrefl a)) ?_ ?_
    · rintro a' ⟨ha', hitem⟩
      refine (ih ha').mono ?_
      intro _ hitems
      exact List.forall_mem_cons.2 ⟨hitem, hitems⟩
    · intro a'
      exact Agree.foldlM (hrefl a') hagree

end Vouches

/-- The value of a whole reading. -/
theorem Vouches.of_result {m : Decoding α} {a : α} (hm : Vouches d [] P m) (h : result m = .ok a) :
    P a := by
  unfold result at h
  split at h
  · cases h
  · rename_i a' p hrun
    split at h
    · rename_i hproblems
      cases h
      have hstart : Progress.Alike d [] {} {} := ⟨rfl, rfl, rfl, fun _ => ⟨rfl, rfl, rfl⟩⟩
      refine (hm {} a p hstart hrun).resolve_right ?_
      simpa using hproblems
    · cases h

end Decoding

/-! ## Keys of records -/

namespace Document

open Decoding

variable {α : Type} {d : Document} {shape : Shape α} {inside : List Nat}

/-- The key is the merge key, says nothing, or is a field. -/
def knows (d : Document) (shape : Shape α) (key : Node) : Bool :=
  key.isMergeKey || (d.nameOf? key).any fun name? => name?.all (· ∈ shape.fields)

theorem vouches_refuse {P : Option α → Prop} {n : Node} (h : n.isCollection = true)
    (typeName : String) : Vouches d inside P (refuse n typeName) := by
  unfold refuse
  cases n with
  | sequence line tag items => exact .report_pure _ none
  | mapping line tag pairs =>
    dsimp only
    split
    · exact .report_pure _ none
    · exact .reportAll_pure (by assumption) none
  | _ => cases h

/-- A text that is read without a problem is what the key says. -/
theorem vouches_readText (hdirect : d.Direct) (key : Node) :
    Vouches d inside (fun name? => d.nameOf? key = some name?) (d.readText key) := by
  apply Vouches.arrive hdirect
  intro inside halias
  unfold nameOf?
  cases hfollow : d.follow key with
  | scalar line tag text =>
    dsimp only
    cases resolve tag text with
    | error cause => exact .throw cause
    | ok resolved => cases resolved <;> exact .pure rfl
  | sequence line tag items => exact vouches_refuse rfl "string"
  | mapping line tag pairs => exact vouches_refuse rfl "string"
  | _ =>
    rw [hfollow] at halias
    cases halias

/-- A name that is read without a problem is a field, where there are no others. -/
theorem vouches_readNamed (hread : d.ReadsSteadily shape) (hstrict : shape.strict = true)
    {s : RecordState α} (hs : s.taken = none) (line : Nat) (name : String) (value : Node) :
    Vouches d inside (fun s' => s'.taken = none ∧ name ∈ shape.fields)
      (d.readNamed shape s line name value) := by
  unfold readNamed
  simp only [hs, Option.any_none, Option.map_none, hstrict, if_true]
  split
  · cases ‹false = true›
  · split
    · rename_i hfield
      split
      · exact .report_pure _ _
      · exact .bind_any (hread _ _ _ inside) fun _ => .pure ⟨rfl, hfield⟩
    · exact .report_pure _ _

theorem vouches_readPair (hread : d.ReadsSteadily shape) (hdirect : d.Direct)
    (hstrict : shape.strict = true) {s : RecordState α} (hs : s.taken = none) (pair : Node × Node) :
    Vouches d inside (fun s' => s'.taken = none ∧ d.knows shape pair.1 = true)
      (d.readPair shape s pair) := by
  unfold readPair
  split
  · rename_i hmerge
    exact .pure ⟨hs, by simp [knows, hmerge]⟩
  · refine .bind (S := RecordState.Alike shape) (vouches_readText hdirect pair.1)
      (steady_readText pair.1 inside) ?_ ?_
    · intro name? hnamed
      split
      · refine (vouches_readNamed hread hstrict hs _ _ _).mono ?_
        rintro s' ⟨hs', hfield⟩
        exact ⟨hs', by simp [knows, hnamed, hfield]⟩
      · exact .pure ⟨hs, by simp [knows, hnamed]⟩
    · intro name?
      split
      · exact readNamed_agree hread (.refl s) _ _ _
      · exact .pure (.refl s)

theorem vouches_foldlM_readPair (hread : d.ReadsSteadily shape) (hdirect : d.Direct)
    (hstrict : shape.strict = true) (pairs : List (Node × Node)) (start : α) :
    Vouches d inside (fun _ => ∀ pair ∈ pairs, d.knows shape pair.1 = true)
      (pairs.foldlM (d.readPair shape) { record := start, taken := none }) := by
  apply Vouches.foldlM (P := fun s => s.taken = none) (R := RecordState.Alike shape) rfl .refl
  · intro s s' pair hs
    exact readPair_agree hread hs pair
  · intro s pair hs
    exact vouches_readPair hread hdirect hstrict hs pair

theorem vouches_readPairs (hread : d.ReadsSteadily shape) (hdirect : d.Direct)
    (hstrict : shape.strict = true) (limit : Nat) (pairs : List (Node × Node)) (start : α) :
    Vouches d inside (fun _ => ∀ pair ∈ pairs, d.knows shape pair.1 = true)
      (d.readPairs shape limit none pairs start) := by
  cases limit with
  | zero => exact .throw tooNested
  | succ limit =>
    by_cases hdistinct : repeatedKeys (pairs.map Prod.fst) = []
    · rw [readPairs_succ hdistinct]
      refine .bind (S := SameRead shape) (vouches_foldlM_readPair hread hdirect hstrict pairs start)
        (foldlM_readPair_agree hread (.refl _) pairs) ?_ ?_
      · intro _ hknown
        exact .of_forall fun _ => hknown
      · -- what is merged afterwards may only add problems
        intro s
        exact finishPairs_agree (readPairs_agree hread limit) (ownKeys_agree pairs) (.refl s)
    · unfold readPairs
      split
      · contradiction
      · exact .reportAll_pure hdistinct _

/-- Every key of a record that is read without a problem is known. -/
theorem vouches_readRecord (hread : d.ReadsSteadily shape) (hdirect : d.Direct)
    (hstrict : shape.strict = true) (pairs : List (Node × Node)) (start : α) :
    Vouches d inside (fun _ => ∀ pair ∈ pairs, d.knows shape pair.1 = true)
      (d.readRecord shape pairs start) := by
  refine .bind (S := Eq) (vouches_readPairs hread hdirect hstrict d.limit pairs start)
    (readPairs_agree hread _ _ _ _ _ _ .none) ?_ ?_
  · intro _ hknown
    exact .pure hknown
  · intro _
    exact .pure rfl

end Document
end MiniLua.Yaml

namespace MiniLua

open Yaml (Document Decoding)
open Yaml.Decoding (Steady Vouches steady_count steady_lift)
open Yaml.Document (steady_readText steady_readTruth steady_refuse steady_readRecord)

variable {d : Document}

/-! ## The fields of entries and drafts -/

namespace ProgramEntry

/-- A field that is a text, with a change to the text. -/
theorem steady_put (value : Yaml.Node) (e : ProgramEntry) (name : String)
    (change : String → String) : Steady d (do
      match ← d.readText value with
      | some text => return e.put name (change text)
      | none => return e) := by
  refine .bind (steady_readText value) ?_
  intro text?
  split
  · exact .pure _
  · exact .pure _

theorem readsSteadily_shape : d.ReadsSteadily shape :=
  fun name value e => steady_put value e name Text.trim

theorem readsSteadily_plainShape : d.ReadsSteadily plainShape :=
  fun name value e => steady_put value e name id

end ProgramEntry

theorem steady_readPlainEntry (n : Yaml.Node) : Steady d (readPlainEntry d n) := by
  apply Steady.arrive
  intro n
  split
  · refine .bind (steady_lift _) ?_
    intro resolved
    split
    · exact .pure none
    · exact steady_refuse _ _
  · split
    · exact steady_refuse _ _
    · exact .bind (steady_readRecord ProgramEntry.readsSteadily_plainShape _ _) fun _ => .pure _
  · exact steady_refuse _ _
  · exact .pure none

theorem steady_readPrograms (n : Yaml.Node) : Steady d (readPrograms d n) := by
  apply Steady.arrive
  intro n
  dsimp only
  split
  · split
    · exact .bind (steady_lift _) fun _ => .pure _
    · exact .throw _
  · split
    · exact .bind (.mapM steady_readPlainEntry) fun _ => .pure _
    · exact .bind (steady_lift _) fun _ => .pure _
  · split
    · exact steady_refuse _ _
    · exact .throw _
  · exact .pure none

namespace Draft

theorem readsSteadily_shape : d.ReadsSteadily shape := by
  intro name value draft
  unfold shape readField
  dsimp only
  split
  · exact .bind (steady_readText value) fun _ => .pure _
  · exact .bind (steady_readTruth value) fun _ => .pure _
  · exact .bind (steady_readPrograms value) fun _ => .pure _

/-- Every key of a draft is known. -/
theorem knows_of_ofDocument? (hdirect : d.Direct) {line : Nat} {tag : Yaml.Tag}
    {pairs : List (Yaml.Node × Yaml.Node)} (hroot : d.root = .mapping line tag pairs) {draft : Draft}
    (h : ofDocument? d = .ok draft) : ∀ pair ∈ pairs, d.knows shape pair.1 = true := by
  have hread : Vouches d [] (fun _ => ∀ pair ∈ pairs, d.knows shape pair.1 = true)
      (readDocument d) := by
    refine .bind_any (steady_count []) fun _ => ?_
    apply Vouches.arrive hdirect
    intro inside _
    rw [hroot]
    exact Document.vouches_readRecord readsSteadily_shape hdirect rfl pairs {}
  exact hread.of_result h

end Draft

/-! ## Manifests -/

/-- A key of a manifest that is neither the merge key nor null and no name of a field is an error. A
key of a program that is passed over makes no difference, unless the reading is given up with it or
without it. -/
theorem Manifest.foreign_keys {bytes : Bytes} {line : Nat} {tag : Yaml.Tag}
    {pairs : List (Yaml.Node × Yaml.Node)} (hd : Document.ofBytes? bytes = .ok (some d))
    (hroot : d.root = .mapping line tag pairs) :
    ((∃ pair ∈ pairs, d.knows Draft.shape pair.1 = false) → ∃ cause, ofBytes? bytes = .error cause) ∧
    ∀ (n : Yaml.Node) (line : Nat) (tag : Yaml.Tag) (pairs : List (Yaml.Node × Yaml.Node)),
      d.follow n = .mapping line tag pairs → Yaml.repeatedKeys (pairs.map Prod.fst) = [] →
      let kept : Yaml.Node := .mapping line tag
        (pairs.filter fun pair => !d.passesOver ProgramEntry.shape pair.1)
      ProgramEntry.ofNode? d n = ProgramEntry.ofNode? d kept ∨
        d.anchored ≠ [] ∧ (ProgramEntry.ofNode? d n = .error Yaml.excess ∨
          ProgramEntry.ofNode? d kept = .error Yaml.excess) := by
  constructor
  · rintro ⟨pair, hpair, hforeign⟩
    unfold ofBytes?
    rw [hd]
    dsimp only
    cases hdraft : Draft.ofDocument? d with
    | error cause => exact ⟨cause, rfl⟩
    | ok draft =>
      have hknown := Draft.knows_of_ofDocument? (Document.direct_of_ofBytes? hd) hroot hdraft
      rw [hknown pair hpair] at hforeign
      cases hforeign
  · intro n line tag pairs hn hdistinct
    dsimp only
    have hkept := Document.readRecord_agree_filter
      (ProgramEntry.readsSteadily_shape (d := d)) hdistinct {}
    unfold ProgramEntry.ofNode?
    rw [hn]
    apply Decoding.Agree.result
    exact (steady_count []).bind fun _ _ _ => hkept

/-- A manifest with a misspelt key. -/
def misspelt : String :=
  "prgrams: [a.lua]\n"

/-- A program with a misspelt key. -/
def misspeltEntry : Yaml.Node :=
  .mapping 1 .map
    [(.scalar 1 .str "path", .scalar 1 .str "a.lua"), (.scalar 1 .str "nmae", .scalar 1 .str "main")]

/-- The pairs of a mapping. -/
def Yaml.Node.pairs : Yaml.Node → List (Yaml.Node × Yaml.Node)
  | .mapping _ _ pairs => pairs
  | _ => []

theorem exists_document_misspelt : ∃ d line tag pairs,
    Document.ofBytes? (Text.encode misspelt) = .ok (some d) ∧ d.root = .mapping line tag pairs ∧
      d.anchored = [] ∧ ∃ pair ∈ pairs, d.knows Draft.shape pair.1 = false := by
  have hread : (Document.ofBytes? (Text.encode misspelt)).toOption.join.any (fun d =>
      d.anchored.isEmpty && d.root.pairs.any fun pair => !d.knows Draft.shape pair.1) = true := by
    decide +kernel
  obtain ⟨d, hd, hforeign⟩ := (Option.any_eq_true _ _).1 hread
  have hbytes := TokenQueue.eq_ok_of_toOption (Option.join_eq_some_iff.1 hd)
  cases hroot : d.root with
  | mapping line tag pairs =>
    rw [hroot] at hforeign
    exact ⟨d, line, tag, pairs, hbytes, hroot, by simpa [Yaml.Node.pairs] using hforeign⟩
  | _ => simp [hroot, Yaml.Node.pairs] at hforeign

theorem Manifest.foreign_keys_misspelt :
    ∃ d, Document.ofBytes? (Text.encode misspelt) = .ok (some d) ∧
      (∃ cause, ofBytes? (Text.encode misspelt) = .error cause) ∧
      ProgramEntry.ofNode? d misspeltEntry =
        ProgramEntry.ofNode? d (.mapping 1 .map [(.scalar 1 .str "path", .scalar 1 .str "a.lua")]) := by
  obtain ⟨d, line, tag, pairs, hd, hroot, hanchored, hforeign⟩ := exists_document_misspelt
  obtain ⟨hrefused, hpassed⟩ := foreign_keys hd hroot
  refine ⟨d, hd, hrefused hforeign, ?_⟩
  have hentry := hpassed misspeltEntry 1 .map _ rfl rfl
  exact hentry.resolve_right fun h => h.1 hanchored

/-- A program with a misspelt key is accepted, and so is a manifest with a key that is null. -/
theorem Manifest.accepted_misspelt_program :
    (∃ m, ofBytes? (Text.encode "programs:\n  - \x7bpath: a.lua, nmae: main\x7d\n") = .ok m ∧
      m.programs = [some { name := "a", path := "a.lua" }]) ∧
    (∃ m, ofBytes? (Text.encode "~: x\nprograms: [a.lua]\n") = .ok m ∧
      m.programs = [some { name := "a", path := "a.lua" }]) := by
  have haccept : ∀ text, (ofBytes? (Text.encode text)).toOption.map programs =
      some [some { name := "a", path := "a.lua" }] →
        ∃ m, ofBytes? (Text.encode text) = .ok m ∧
          m.programs = [some { name := "a", path := "a.lua" }] := by
    intro text h
    obtain ⟨m, hm, hprograms⟩ := Option.map_eq_some_iff.1 h
    exact ⟨m, TokenQueue.eq_ok_of_toOption hm, hprograms⟩
  exact ⟨haccept _ (by decide +kernel), haccept _ (by decide +kernel)⟩

end MiniLua

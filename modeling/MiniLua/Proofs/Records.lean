import MiniLua.Yaml.Record

/-!
# What the reading of records keeps

A record is read field by field: by the pairs of its mapping, and by the pairs of the mappings that
are merged into it. Problems on the way are gathered and do not stop the reading. A property that the
reading of each single field keeps is therefore a property of the whole record, in whatever order the
fields come and however deep the merges go.

## Delivered

- `Decoding.Ensures` and its lemmas: every value that a reading can give has a property.
- `Document.readRecord_ensures`: a property that every field keeps is one of the record.
-/

set_option autoImplicit false

namespace MiniLua.Yaml

namespace Decoding

variable {α β : Type} {P : α → Prop} {Q : β → Prop}

/-- Every value that the reading can give has the property. -/
def Ensures (P : α → Prop) (m : Decoding α) : Prop :=
  ∀ before a after, m before = .ok (a, after) → P a

/-- One reading after another gives a value only when both do. -/
theorem exists_of_bind_eq_ok {m : Decoding α} {f : α → Decoding β} {before after : Progress} {b : β}
    (h : (m >>= f) before = .ok (b, after)) :
    ∃ a between, m before = .ok (a, between) ∧ f a between = .ok (b, after) := by
  change (m before >>= fun r => f r.1 r.2) = .ok (b, after) at h
  cases hm : m before with
  | error cause =>
    rw [hm] at h
    cases h
  | ok r =>
    rw [hm] at h
    exact ⟨r.1, r.2, rfl, h⟩

namespace Ensures

theorem pure {a : α} (h : P a) : Ensures P (Pure.pure a) := by
  intro before a' after hrun
  cases hrun
  exact h

theorem throw (cause : Failure) : Ensures P (MonadExcept.throw cause) := by
  intro before a after hrun
  cases hrun

theorem bind {m : Decoding α} {f : α → Decoding β} (hm : Ensures P m)
    (hf : ∀ a, P a → Ensures Q (f a)) : Ensures Q (m >>= f) := by
  intro before b after hrun
  obtain ⟨a, between, ha, hb⟩ := exists_of_bind_eq_ok hrun
  exact hf a (hm before a between ha) between b after hb

/-- A reading whose value does not matter. -/
theorem bind_any {m : Decoding α} {f : α → Decoding β} (hf : ∀ a, Ensures Q (f a)) :
    Ensures Q (m >>= f) :=
  bind (P := fun _ => True) (fun _ _ _ _ => trivial) fun a _ => hf a

theorem foldlM {f : α → β → Decoding α} {items : List β} {a : α} (ha : P a)
    (hf : ∀ a b, P a → Ensures P (f a b)) : Ensures P (items.foldlM f a) := by
  induction items generalizing a with
  | nil => exact pure ha
  | cons item items ih =>
    rw [List.foldlM_cons]
    refine bind (hf a item ha) ?_
    intro a' ha'
    exact ih ha'

theorem entering {name : String} {number : Nat} {step : Decoding α} (h : Ensures P step) :
    Ensures P (Decoding.entering name number step) := by
  refine bind_any fun progress => ?_
  -- the two ways to go on: with an error that is never left, and with the step
  have hstep : Ensures P (do
      modify fun p => { p with entered := number :: p.entered }
      let a ← step
      modify fun p => { p with entered := p.entered.drop 1 }
      return a) := by
    refine bind_any fun _ => ?_
    refine bind h fun a ha => ?_
    exact bind_any fun _ => pure ha
  split
  · exact bind_any fun _ => hstep
  · exact hstep

/-- The value at a node, or the one that its alias stands for. -/
theorem arrive {d : Document} {n : Node} {step : Node → Decoding α} (h : ∀ n, Ensures P (step n)) :
    Ensures P (d.arrive n step) := by
  refine bind_any fun _ => ?_
  split
  · split
    · apply entering
      exact bind_any fun _ => h _
    · exact throw _
  · exact h n

end Ensures

/-- The value of a whole reading. -/
theorem Ensures.of_result {m : Decoding α} {a : α} (hm : Ensures P m) (h : result m = .ok a) :
    P a := by
  unfold result at h
  split at h
  · cases h
  · rename_i a' p hrun
    split at h
    · cases h
      exact hm _ _ _ hrun
    · cases h

end Decoding

namespace Document

open Decoding

variable {α : Type} {P : α → Prop} {d : Document} {shape : Shape α}

/-- A property that the reading of every field keeps. -/
def Keeps (d : Document) (shape : Shape α) (P : α → Prop) : Prop :=
  ∀ name value a, P a → Ensures P (shape.read d name value a)

/-- A key changes the record at its own field at most. -/
theorem readNamed_ensures (hkeeps : d.Keeps shape P) {s : RecordState α} (hs : P s.record)
    (line : Nat) (name : String) (value : Node) :
    Ensures (fun s' => P s'.record) (d.readNamed shape s line name value) := by
  unfold readNamed
  split
  · exact .pure hs
  · dsimp only
    split
    · split
      · exact .bind_any fun _ => .pure hs
      · refine .bind (hkeeps name value s.record hs) fun record hrecord => ?_
        exact .pure hrecord
    · split
      · exact .bind_any fun _ => .pure hs
      · exact .pure hs

theorem readPair_ensures (hkeeps : d.Keeps shape P) {s : RecordState α} (hs : P s.record)
    (pair : Node × Node) : Ensures (fun s' => P s'.record) (d.readPair shape s pair) := by
  unfold readPair
  split
  · exact .pure hs
  · refine .bind_any fun name? => ?_
    split
    · exact readNamed_ensures hkeeps hs _ _ _
    · exact .pure hs

theorem mergeWith_ensures {β : Type} {Q : β → Prop} {n : Node}
    {step : List (Node × Node) → Decoding β} (h : ∀ pairs, Ensures Q (step pairs)) :
    Ensures Q (d.mergeWith n step) := by
  unfold mergeWith
  split
  · apply Ensures.arrive
    intro n
    split
    · exact h _
    · exact .throw _
  · exact .throw _

/-- The pairs of a mapping, and of all mappings that are merged into it. -/
theorem readPairs_ensures (hkeeps : d.Keeps shape P) {limit : Nat} {taken : Option (List String)}
    {pairs : List (Node × Node)} {record : α} (hrecord : P record) :
    Ensures (fun r => P r.1) (d.readPairs shape limit taken pairs record) := by
  induction limit generalizing taken pairs record with
  | zero => exact .throw _
  | succ limit ih =>
    unfold readPairs
    split
    · have hpairs : Ensures (fun s : RecordState α => P s.record)
          (pairs.foldlM (d.readPair shape) { record := record, taken := taken }) :=
        .foldlM hrecord fun s pair hs => readPair_ensures hkeeps hs pair
      refine .bind hpairs fun s hs => ?_
      split
      · exact .pure hs
      · -- the mappings that are merged, each into the record that those before it left
        have hmerge : ∀ names (items : List Node), Ensures (fun r : α × List String => P r.1)
            (items.foldlM (fun (state : α × List String) item =>
              d.mergeWith item fun inner => do
                let read ← d.readPairs shape limit (some state.2) inner state.1
                return (read.1, read.2.getD state.2)) (s.record, names)) := by
          intro names items
          refine .foldlM hs fun state item hstate => ?_
          apply mergeWith_ensures
          intro inner
          exact .bind (ih hstate) fun r hr => .pure hr
        dsimp only
        split
        · refine .bind_any fun names => ?_
          exact .bind (hmerge names _) fun r hr => .pure hr
        · refine .bind_any fun names => ?_
          exact .bind (hmerge names _) fun r hr => .pure hr
    · exact .bind_any fun _ => .pure hrecord

/-- A property that the reading of every field keeps is one of the whole record. -/
theorem readRecord_ensures (hkeeps : d.Keeps shape P) {pairs : List (Node × Node)} {start : α}
    (hstart : P start) : Ensures P (d.readRecord shape pairs start) :=
  .bind (readPairs_ensures hkeeps hstart) fun _ hr => .pure hr

end Document
end MiniLua.Yaml

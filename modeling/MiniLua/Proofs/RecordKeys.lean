import MiniLua.Proofs.Steadiness

/-!
# Keys that make no difference to a record

A type of records that may have other fields passes over the keys that are none of its own, and every
type passes over the keys that are null. Such a key is read, so that a malformed one is still an error,
but the record is the one of the mapping without it. This holds through merges too, where a mapping has
to keep its own names from being taken by those that are merged into it: among these names, only the
fields count.

## Delivered

- `RecordState.Alike`, `Document.readPairs_agree`: readings of records from states that differ in names
  that do not matter.
- `Document.steady_readRecord`: reading a record is steady when reading its fields is.
- `Document.nameOf?`, `Document.passesOver`: what a key says, and the keys that are passed over.
- `Document.readRecord_agree_filter`: a record is the same without them.
-/

set_option autoImplicit false

namespace MiniLua.Yaml

open Decoding

variable {α : Type} {d : Document} {shape : Shape α} {inside : List Nat}

/-! ## Records from states that are alike -/

/-- The names that matter to the reader of records are in both lists or in none: the fields, and for a
type without other fields all names. -/
def SameNames (shape : Shape α) (names names' : List String) : Prop :=
  ∀ name, shape.strict = true ∨ name ∈ shape.fields → (name ∈ names ↔ name ∈ names')

theorem SameNames.refl (names : List String) : SameNames shape names names :=
  fun _ _ => Iff.rfl

theorem SameNames.append {names names' : List String} (h : SameNames shape names names')
    (front : List String) : SameNames shape (front ++ names) (front ++ names') := by
  intro name hmatters
  simp only [List.mem_append, h name hmatters]

/-- A name that does not matter. -/
theorem SameNames.cons_left {names names' : List String} (h : SameNames shape names names')
    {name : String} (hloose : shape.strict = false) (hname : name ∉ shape.fields) :
    SameNames shape (name :: names) names' := by
  intro other hmatters
  rw [← h other hmatters, List.mem_cons, or_iff_right]
  rintro rfl
  rcases hmatters with hstrict | hfield
  · rw [hloose] at hstrict
    cases hstrict
  · exact hname hfield

theorem SameNames.symm {names names' : List String} (h : SameNames shape names names') :
    SameNames shape names' names :=
  fun name hmatters => (h name hmatters).symm

/-- The names that are taken, where names are. -/
def SameTaken (shape : Shape α) : Option (List String) → Option (List String) → Prop :=
  Option.Rel (SameNames shape)

namespace SameTaken

variable {taken taken' : Option (List String)} {name : String}

theorem refl (taken : Option (List String)) : SameTaken shape taken taken := by
  cases taken with
  | none => exact .none
  | some names => exact .some (.refl names)

theorem symm (h : SameTaken shape taken taken') : SameTaken shape taken' taken := by
  cases h with
  | none => exact .none
  | some h => exact .some h.symm

theorem map_cons (h : SameTaken shape taken taken') (name : String) :
    SameTaken shape (taken.map (name :: ·)) (taken'.map (name :: ·)) := by
  cases h with
  | none => exact .none
  | some h => exact .some (h.append [name])

/-- A name that does not matter makes no difference when it is taken. -/
theorem map_cons_left (h : SameTaken shape taken taken') (hloose : shape.strict = false)
    (hname : name ∉ shape.fields) : SameTaken shape (taken.map (name :: ·)) taken' := by
  cases h with
  | none => exact .none
  | some h => exact .some (h.cons_left hloose hname)

/-- A name that matters is taken on both sides or on none. -/
theorem any_mem_eq (h : SameTaken shape taken taken')
    (hmatters : shape.strict = true ∨ name ∈ shape.fields) :
    taken.any (decide <| name ∈ ·) = taken'.any (decide <| name ∈ ·) := by
  cases h with
  | none => rfl
  | some h => exact decide_eq_decide.2 (h name hmatters)

end SameTaken

/-- The states of two readings of a record that go on in the same way. -/
def RecordState.Alike (shape : Shape α) (s s' : RecordState α) : Prop :=
  ∃ taken', s' = { s with taken := taken' } ∧ SameTaken shape s.taken taken'

theorem RecordState.Alike.refl (s : RecordState α) : s.Alike shape s :=
  ⟨s.taken, rfl, .refl s.taken⟩

namespace Document

/-- The fields are read in the same way at all times. -/
def ReadsSteadily (d : Document) (shape : Shape α) : Prop :=
  ∀ name value a, Steady d (shape.read d name value a)

/-- A name that is no field of a type which may have others. -/
theorem readNamed_of_loose (hloose : shape.strict = false) {name : String}
    (hname : name ∉ shape.fields) (s : RecordState α) (line : Nat) (value : Node) :
    d.readNamed shape s line name value = pure s ∨
      d.readNamed shape s line name value = pure { s with taken := s.taken.map (name :: ·) } := by
  unfold readNamed
  split
  · exact .inl rfl
  · simp only [hname, hloose, if_false]
    exact .inr rfl

/-- Such a name makes no difference to what is read after it. -/
theorem readNamed_agree_pure (hloose : shape.strict = false) {name : String}
    (hname : name ∉ shape.fields) {s s' : RecordState α} (h : s.Alike shape s') (line : Nat)
    (value : Node) :
    Agree d inside (RecordState.Alike shape) (d.readNamed shape s line name value) (pure s') := by
  obtain ⟨taken', rfl, htaken⟩ := h
  rcases readNamed_of_loose hloose hname s line value with hread | hread
  · rw [hread]
    exact .pure ⟨taken', rfl, htaken⟩
  · rw [hread]
    exact .pure ⟨taken', rfl, htaken.map_cons_left hloose hname⟩

theorem readNamed_agree (hread : d.ReadsSteadily shape)
    {s s' : RecordState α} (h : s.Alike shape s') (line : Nat) (name : String) (value : Node) :
    Agree d inside (RecordState.Alike shape) (d.readNamed shape s line name value)
      (d.readNamed shape s' line name value) := by
  obtain ⟨taken', rfl, htaken⟩ := h
  by_cases hmatters : shape.strict = true ∨ name ∈ shape.fields
  · unfold readNamed
    rw [htaken.any_mem_eq hmatters]
    dsimp only
    have hmore := htaken.map_cons name
    split
    · exact .pure ⟨taken', rfl, htaken⟩
    · split
      · split
        · exact (steady_report _ inside).bind fun _ _ _ => .pure ⟨_, rfl, hmore⟩
        · refine (hread name value s.record inside).bind ?_
          rintro record _ rfl
          exact .pure ⟨_, rfl, hmore⟩
      · split
        · exact (steady_report _ inside).bind fun _ _ _ => .pure ⟨_, rfl, hmore⟩
        · exact .pure ⟨_, rfl, hmore⟩
  · -- any other name changes at most the names that are taken, on either side
    obtain ⟨hstrict, hname⟩ := not_or.1 hmatters
    have hloose : shape.strict = false := by simpa using hstrict
    rcases readNamed_of_loose hloose hname { s with taken := taken' } line value with hr | hr
    · rw [hr]
      exact readNamed_agree_pure hloose hname ⟨_, rfl, htaken⟩ line value
    · rw [hr]
      exact readNamed_agree_pure hloose hname
        ⟨_, rfl, (htaken.symm.map_cons_left hloose hname).symm⟩ line value

theorem readPair_agree (hread : d.ReadsSteadily shape)
    {s s' : RecordState α} (h : s.Alike shape s') (pair : Node × Node) :
    Agree d inside (RecordState.Alike shape) (d.readPair shape s pair)
      (d.readPair shape s' pair) := by
  unfold readPair
  split
  · obtain ⟨taken', rfl, htaken⟩ := h
    exact .pure ⟨taken', rfl, htaken⟩
  · refine (steady_readText pair.1 inside).bind ?_
    rintro name? _ rfl
    split
    · exact readNamed_agree hread h _ _ _
    · exact .pure h

theorem foldlM_readPair_agree (hread : d.ReadsSteadily shape) {s s' : RecordState α}
    (h : s.Alike shape s') (pairs : List (Node × Node)) :
    Agree d inside (RecordState.Alike shape) (pairs.foldlM (d.readPair shape) s)
      (pairs.foldlM (d.readPair shape) s') := by
  apply Agree.foldlM h
  intro s s' pair hs
  exact readPair_agree hread hs pair

theorem mergeWith_agree {β γ : Type} {R : β → γ → Prop} {n : Node}
    {step : List (Node × Node) → Decoding β} {step' : List (Node × Node) → Decoding γ}
    (h : ∀ inside pairs, Agree d inside R (step pairs) (step' pairs)) :
    Agree d inside R (d.mergeWith n step) (d.mergeWith n step') := by
  unfold mergeWith
  split
  · apply Agree.arrive
    intro inside n
    split
    · exact h inside _
    · exact .throw _
  · exact .throw _

/-- The mappings of a merge key one after the other, into a record and the names that are taken. -/
def mergeAll (d : Document) (shape : Shape α) (limit : Nat) (items : List Node)
    (start : α × List String) : Decoding (α × List String) :=
  items.foldlM (fun state item => d.mergeWith item fun inner => do
    let read ← d.readPairs shape limit (some state.2) inner state.1
    return (read.1, read.2.getD state.2)) start

/-- What is left to do after the pairs of a mapping. -/
def finishPairs (d : Document) (shape : Shape α) (limit : Nat) (pairs : List (Node × Node))
    (s : RecordState α) : Decoding (α × Option (List String)) :=
  match s.merged with
  | none => return (s.record, s.taken)
  | some n => do
    let names ← match s.taken with
      | some names => pure names
      | none => d.ownKeys pairs
    let merged ← d.mergeAll shape limit (mergeItems n) (s.record, names)
    return (merged.1, s.taken.map fun _ => merged.2)

theorem readPairs_succ {pairs : List (Node × Node)}
    (hdistinct : repeatedKeys (pairs.map Prod.fst) = []) (limit : Nat)
    (taken : Option (List String)) (record : α) :
    d.readPairs shape (limit + 1) taken pairs record =
      pairs.foldlM (d.readPair shape) { record := record, taken := taken } >>=
        d.finishPairs shape limit pairs := by
  unfold readPairs
  rw [hdistinct]
  rfl

/-- The same record, and the same names that matter. -/
def SameRead (shape : Shape α) (r r' : α × Option (List String)) : Prop :=
  r.1 = r'.1 ∧ SameTaken shape r.2 r'.2

theorem mergeAll_agree {limit : Nat}
    (hinner : ∀ inside taken taken' pairs (record : α), SameTaken shape taken taken' →
      Agree d inside (SameRead shape) (d.readPairs shape limit taken pairs record)
        (d.readPairs shape limit taken' pairs record))
    (items : List Node) (record : α) {names names' : List String}
    (hnames : SameNames shape names names') :
    Agree d inside (fun r r' => r.1 = r'.1 ∧ SameNames shape r.2 r'.2)
      (d.mergeAll shape limit items (record, names))
      (d.mergeAll shape limit items (record, names')) := by
  apply Agree.foldlM ⟨rfl, hnames⟩
  rintro ⟨record, names⟩ ⟨_, names'⟩ item ⟨rfl, hnames⟩
  apply mergeWith_agree
  intro inside pairs
  refine (hinner inside _ _ pairs record (.some hnames)).bind ?_
  rintro ⟨record, after⟩ ⟨_, after'⟩ ⟨rfl, hafter⟩
  refine .pure ⟨rfl, ?_⟩
  cases hafter with
  | none => exact hnames
  | some hafter => exact hafter

theorem finishPairs_agree {limit : Nat}
    (hinner : ∀ inside taken taken' pairs (record : α), SameTaken shape taken taken' →
      Agree d inside (SameRead shape) (d.readPairs shape limit taken pairs record)
        (d.readPairs shape limit taken' pairs record))
    {pairs pairs' : List (Node × Node)}
    (hown : Agree d inside (SameNames shape) (d.ownKeys pairs) (d.ownKeys pairs'))
    {s s' : RecordState α} (h : s.Alike shape s') :
    Agree d inside (SameRead shape) (d.finishPairs shape limit pairs s)
      (d.finishPairs shape limit pairs' s') := by
  obtain ⟨record, taken, set, merged⟩ := s
  obtain ⟨taken', rfl, htaken⟩ := h
  cases merged with
  | none => exact .pure ⟨rfl, htaken⟩
  | some n =>
    have hmerge : ∀ {names names' : List String}, SameNames shape names names' →
        Agree d inside (SameRead shape)
          (d.mergeAll shape limit (mergeItems n) (record, names) >>= fun merged =>
            pure (merged.1, taken.map fun _ => merged.2))
          (d.mergeAll shape limit (mergeItems n) (record, names') >>= fun merged =>
            pure (merged.1, taken'.map fun _ => merged.2)) := by
      intro names names' hnames
      refine (mergeAll_agree hinner _ record hnames).bind ?_
      rintro ⟨record, names⟩ ⟨_, names'⟩ ⟨rfl, hnames⟩
      refine .pure ⟨rfl, ?_⟩
      cases htaken with
      | none => exact .none
      | some _ => exact .some hnames
    -- the names that may not be set any more: the mapping's own, or those it was given
    cases htaken with
    | none => exact hown.bind fun _ _ hnames => hmerge hnames
    | some hnames => exact hmerge hnames

theorem steady_ownKeys (pairs : List (Node × Node)) : Steady d (d.ownKeys pairs) := by
  apply Steady.foldlM
  intro names pair
  refine .bind (steady_examine _ _) ?_
  intro well
  split
  · split
    · exact .bind (.throw _) fun _ => .pure _
    · exact .pure _
  · exact .pure _

theorem ownKeys_agree (pairs : List (Node × Node)) :
    Agree d inside (SameNames shape) (d.ownKeys pairs) (d.ownKeys pairs) := by
  refine (steady_ownKeys pairs inside).mono ?_
  rintro names _ rfl
  exact .refl names

/-- The pairs of a mapping, and of all mappings that are merged into it. -/
theorem readPairs_agree (hread : d.ReadsSteadily shape)
    (limit : Nat) (inside : List Nat) (taken taken' : Option (List String))
    (pairs : List (Node × Node)) (record : α) (h : SameTaken shape taken taken') :
    Agree d inside (SameRead shape) (d.readPairs shape limit taken pairs record)
      (d.readPairs shape limit taken' pairs record) := by
  induction limit generalizing inside taken taken' pairs record with
  | zero => exact .throw tooNested
  | succ limit ih =>
    by_cases hdistinct : repeatedKeys (pairs.map Prod.fst) = []
    · rw [readPairs_succ hdistinct, readPairs_succ hdistinct]
      refine (foldlM_readPair_agree hread ⟨taken', rfl, h⟩ pairs).bind fun s s' hs => ?_
      exact finishPairs_agree ih (ownKeys_agree pairs) hs
    · unfold readPairs
      split
      · contradiction
      · exact (steady_reportAll _ inside).bind fun _ _ _ => .pure ⟨rfl, h⟩

theorem steady_readRecord (hread : d.ReadsSteadily shape)
    (pairs : List (Node × Node)) (start : α) : Steady d (d.readRecord shape pairs start) := by
  intro inside
  refine (readPairs_agree hread d.limit inside none none pairs start .none).bind ?_
  rintro ⟨record, _⟩ ⟨_, _⟩ ⟨rfl, -⟩
  exact .pure rfl

/-! ## Keys that are passed over -/

/-- What is said by a scalar that was written in this way, when it is read as a text. -/
def said (written : String) : Resolved → Option String
  | .nothing => none
  | .text s => some s
  | _ => some written

/-- What a key says when it is read as a text: nothing, or a name. A collection cannot be read so, nor
can a scalar that contradicts its tag. -/
def nameOf? (d : Document) (key : Node) : Option (Option String) :=
  match d.follow key with
  | .scalar _ tag text => (resolve tag text).toOption.map (said text)
  | _ => none

theorem exists_scalar_of_nameOf? {key : Node} {name? : Option String} (h : d.nameOf? key = some name?) :
    ∃ line tag text resolved, d.follow key = .scalar line tag text ∧
      resolve tag text = .ok resolved ∧ name? = said text resolved := by
  unfold nameOf? at h
  split at h
  · rename_i line tag text hfollow
    cases hresolve : resolve tag text with
    | error cause =>
      rw [hresolve] at h
      cases h
    | ok resolved =>
      rw [hresolve] at h
      exact ⟨line, tag, text, resolved, hfollow, hresolve, (Option.some.inj h).symm⟩
  · cases h

theorem quiet_readText {key : Node} {name? : Option String} (h : d.nameOf? key = some name?) :
    Quiet d [] (· = name?) (d.readText key) := by
  obtain ⟨line, tag, text, resolved, hfollow, hresolve, rfl⟩ := exists_scalar_of_nameOf? h
  apply Quiet.arrive
  · rw [hfollow]
    rfl
  · intro inside
    rw [hfollow]
    dsimp only
    rw [hresolve]
    cases resolved <;> exact .pure rfl

theorem quiet_examine {key : Node} {name? : Option String} (h : d.nameOf? key = some name?)
    (limit : Nat) : Quiet d [] (· = true) (d.examine (limit + 1) key) := by
  obtain ⟨line, tag, text, resolved, hfollow, hresolve, -⟩ := exists_scalar_of_nameOf? h
  unfold examine
  apply Quiet.arrive
  · rw [hfollow]
    rfl
  · intro inside
    rw [hfollow]
    dsimp only
    rw [hresolve]
    exact .pure rfl

theorem nameOf?_of_keyText? {key : Node} {name : String} (h : d.keyText? key = some name) :
    d.nameOf? key = some (some name) := by
  unfold keyText? at h
  split at h
  · rename_i line tag text hfollow
    split at h
    · rename_i hresolve
      cases h
      simp only [nameOf?, hfollow, hresolve]
      rfl
    · cases h
  · cases h

/-- The reader of records passes over the key: it says nothing, or it is no field of a type which may
have others. -/
def passesOver (d : Document) (shape : Shape α) (key : Node) : Bool :=
  !key.isMergeKey && (d.nameOf? key).any fun name? =>
    name?.all fun name => !shape.strict && name ∉ shape.fields

theorem exists_nameOf?_of_passesOver {key : Node} (h : d.passesOver shape key = true) :
    key.isMergeKey = false ∧ ∃ name?, d.nameOf? key = some name? ∧
      ∀ name, name? = some name → shape.strict = false ∧ name ∉ shape.fields := by
  unfold passesOver at h
  obtain ⟨hmerge, hnamed⟩ := Bool.and_eq_true_iff.1 h
  obtain ⟨name?, hname, hall⟩ := (Option.any_eq_true _ _).1 hnamed
  refine ⟨by simpa using hmerge, name?, hname, ?_⟩
  rintro name rfl
  simpa using hall

theorem readPair_agree_pure {pair : Node × Node} (hpass : d.passesOver shape pair.1 = true)
    {s s' : RecordState α} (h : s.Alike shape s') :
    Agree d [] (RecordState.Alike shape) (d.readPair shape s pair) (pure s') := by
  obtain ⟨hmerge, name?, hnamed, hname⟩ := exists_nameOf?_of_passesOver hpass
  unfold readPair
  rw [hmerge]
  refine (quiet_readText hnamed).bind_agree ?_
  rintro _ rfl
  split
  · obtain ⟨hloose, hforeign⟩ := hname _ rfl
    exact readNamed_agree_pure hloose hforeign h _ _
  · exact .pure h

theorem ownKeys_agree_filter (hlimit : 0 < d.limit) (pairs : List (Node × Node)) :
    Agree d [] (SameNames shape) (d.ownKeys pairs)
      (d.ownKeys (pairs.filter fun pair => !d.passesOver shape pair.1)) := by
  apply Agree.foldlM_filter (.refl [])
  · intro names names' pair hnames
    refine (steady_examine _ _ []).bind ?_
    rintro well _ rfl
    split
    · split
      · exact (Steady.throw _ []).bind fun _ _ _ => .pure (hnames.append _)
      · exact .pure (hnames.append _)
    · exact .pure hnames
  · intro names names' pair _ hskip hnames
    have hpass : d.passesOver shape pair.1 = true := by simpa using hskip
    obtain ⟨-, name?, hnamed, hname⟩ := exists_nameOf?_of_passesOver hpass
    obtain ⟨line, tag, text, resolved, hfollow, -, -⟩ := exists_scalar_of_nameOf? hnamed
    obtain ⟨limit, hsucc⟩ := Nat.exists_eq_add_of_lt hlimit
    rw [hsucc]
    refine (quiet_examine hnamed _).bind_agree ?_
    rintro _ rfl
    rw [hfollow]
    refine .pure ?_
    cases hkey : d.keyText? pair.1 with
    | none => exact hnames
    | some name =>
      rw [nameOf?_of_keyText? hkey] at hnamed
      obtain ⟨hloose, hforeign⟩ := hname name (Option.some.inj hnamed).symm
      exact hnames.cons_left hloose hforeign

theorem repeatedKeys_eq_nil_iff {keys : List Node} :
    repeatedKeys keys = [] ↔ keys.Pairwise fun key key' => key.sameKey key' = false := by
  induction keys with
  | nil => simp [repeatedKeys]
  | cons key keys ih => simp [repeatedKeys, ih]

/-- A record is the same without the keys that are passed over. -/
theorem readRecord_agree_filter (hread : d.ReadsSteadily shape)
    {pairs : List (Node × Node)} (hdistinct : repeatedKeys (pairs.map Prod.fst) = []) (start : α) :
    Agree d [] Eq (d.readRecord shape pairs start)
      (d.readRecord shape (pairs.filter fun pair => !d.passesOver shape pair.1) start) := by
  have hpairs : Agree d [] (SameRead shape) (d.readPairs shape d.limit none pairs start)
      (d.readPairs shape d.limit none
        (pairs.filter fun pair => !d.passesOver shape pair.1) start) := by
    cases hlimit : d.limit with
    | zero => exact .throw tooNested
    | succ limit =>
      -- the keys that are left are distinct too, so both mappings are read
      have hdistinct' : repeatedKeys
          ((pairs.filter fun pair => !d.passesOver shape pair.1).map Prod.fst) = [] := by
        rw [repeatedKeys_eq_nil_iff] at hdistinct ⊢
        exact hdistinct.sublist (List.filter_sublist.map _)
      rw [readPairs_succ hdistinct, readPairs_succ hdistinct']
      refine Agree.bind (R := RecordState.Alike shape) ?_ fun s s' hs => ?_
      · apply Agree.foldlM_filter ⟨none, rfl, .none⟩
        · intro s s' pair hs
          exact readPair_agree hread hs pair
        · intro s s' pair _ hskip hs
          exact readPair_agree_pure (by simpa using hskip) hs
      · apply finishPairs_agree (readPairs_agree hread limit) ?_ hs
        exact ownKeys_agree_filter (by omega) pairs
  refine hpairs.bind ?_
  rintro ⟨record, _⟩ ⟨_, _⟩ ⟨rfl, -⟩
  exact .pure rfl

end Document
end MiniLua.Yaml

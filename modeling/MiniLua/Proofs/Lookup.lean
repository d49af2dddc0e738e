import MiniLua.Manifest.Decode

/-!
# Programs by their names

A manifest that was read and accepted has a name for each of its programs, and no two names are equal.
Looking up a name finds the first program whose name is the same up to case. The names are kept
sanitized and sanitizing changes them no further, so the name of a program always finds a program; but
names may differ in case alone, and then the first of them is found for all.

## Delivered

- `sanitize_sanitize`: a sanitized name stays as it is.
- `issuesFrom_eq_nil_iff`: the lists of programs without an issue.
- `Manifest.exists_entries_of_ofBytes?`: the programs of an accepted manifest.
- `Manifest.find?_eq_find?`: looking up a name among them.
- `Manifest.find?_name`: what the name of a program finds.
-/

set_option autoImplicit false

namespace MiniLua

/-! ## Sanitized names -/

namespace Text

variable {α : Type} {p : α → Bool}

/-- Nothing is trimmed when both ends are outside the class. -/
theorem trimmed_eq_self {xs : List α} (hhead : ∀ x ∈ xs.head?, p x = false)
    (hlast : ∀ x ∈ xs.getLast?, p x = false) : trimmed p xs = xs := by
  have hkeep {ys : List α} (h : ∀ y ∈ ys.head?, p y = false) : ys.dropWhile p = ys := by
    cases ys with
    | nil => rfl
    | cons y ys => exact List.dropWhile_cons_of_neg (by simp [h y rfl])
  rw [trimmed, hkeep hhead, hkeep (by simpa using hlast), List.reverse_reverse]

/-- What is left after trimming begins outside the class. -/
theorem head?_trimmed {xs : List α} {x : α} (h : x ∈ (trimmed p xs).head?) : p x = false := by
  have hsplit := List.takeWhile_append_dropWhile (p := p) (l := (xs.dropWhile p).reverse)
  rw [trimmed, List.head?_reverse] at h
  -- the last element of a list stays the last when elements in front are dropped
  have hlast : (xs.dropWhile p).reverse.getLast? = some x := by
    rw [← hsplit, List.getLast?_append, Option.mem_def.1 h]
    rfl
  rw [List.getLast?_reverse] at hlast
  have hnot := List.head?_dropWhile_not p xs
  rwa [hlast] at hnot

/-- What is left after trimming ends outside the class. -/
theorem getLast?_trimmed {xs : List α} {x : α} (h : x ∈ (trimmed p xs).getLast?) : p x = false := by
  rw [trimmed, List.getLast?_reverse, Option.mem_def] at h
  have hnot := List.head?_dropWhile_not p (xs.dropWhile p).reverse
  rwa [h] at hnot

end Text

/-- An underscore for a hyphen and a space. -/
def underscored (c : Char) : Char :=
  if c = '-' ∨ c = ' ' then '_' else c

theorem underscored_underscored (c : Char) : underscored (underscored c) = underscored c := by
  by_cases hc : c = '-' ∨ c = ' '
  · have hval : underscored c = '_' := if_pos hc
    rw [hval]
    decide
  · have hval : underscored c = c := if_neg hc
    rw [hval, hval]

theorem isBlank_underscored {c : Char} (h : Text.isBlank c = false) :
    Text.isBlank (underscored c) = false := by
  unfold underscored
  split
  · decide
  · exact h

theorem toList_sanitize (name : String) :
    (sanitize name).toList = (Text.trimmed Text.isBlank name.toList).map underscored := by
  rw [sanitize, String.toList_map, Text.trim, String.toList_ofList]
  rfl

/-- A sanitized name stays as it is: no blank comes to its ends, and no hyphen or space is left. -/
theorem sanitize_sanitize (name : String) : sanitize (sanitize name) = sanitize name := by
  apply String.toList_inj.1
  rw [toList_sanitize, toList_sanitize, Text.trimmed_eq_self, List.map_map]
  · exact List.map_congr_left fun c _ => underscored_underscored c
  · intro c hc
    rw [List.head?_map] at hc
    obtain ⟨d, hd, rfl⟩ := Option.map_eq_some_iff.1 hc
    exact isBlank_underscored (Text.head?_trimmed hd)
  · intro c hc
    rw [List.getLast?_map] at hc
    obtain ⟨d, hd, rfl⟩ := Option.map_eq_some_iff.1 hc
    exact isBlank_underscored (Text.getLast?_trimmed hd)

/-! ## Accepted manifests -/

/-- An entry has no issue when it has a path and a name of its own and keeps the rules for its parts. -/
theorem ProgramEntry.issuesAt_eq_nil_iff {e : ProgramEntry} {i : Nat} {used : List (String × Nat)} :
    e.issuesAt i used = [] ↔
      e.path ≠ "" ∧ e.name ≠ "" ∧ used.lookup e.name = none ∧ e.issues = [] := by
  by_cases hpath : e.path = ""
  · simp [issuesAt, hpath]
  · by_cases hname : e.name = ""
    · simp [issuesAt, hpath, hname]
    · cases hused : used.lookup e.name with
      | none => simp [issuesAt, hpath, hname, hused]
      | some first => simp [issuesAt, hpath, hname, hused]

/-- After an entry with a new name, the names that are not used yet are the others. -/
theorem ProgramEntry.lookup_use_eq_none_iff {e : ProgramEntry} {i : Nat}
    {used : List (String × Nat)} {name : String} (hname : e.name ≠ "")
    (hused : used.lookup e.name = none) :
    (e.use i used).lookup name = none ↔ e.name ≠ name ∧ used.lookup name = none := by
  have huse : e.use i used = (e.name, i) :: used := by
    simp [use, hname, hused]
  rw [huse, List.lookup_cons]
  by_cases h : name = e.name
  · simp [h]
  · rw [beq_false_of_ne h]
    exact ⟨fun hnone => ⟨Ne.symm h, hnone⟩, And.right⟩

/-- Entries have no issue when none is left out, each has none for itself, and no two share a name. -/
theorem issuesFrom_eq_nil_iff {i : Nat} {used : List (String × Nat)}
    {entries : List (Option ProgramEntry)} :
    issuesFrom i used entries = [] ↔ ∃ es : List ProgramEntry, entries = es.map some ∧
      (∀ e ∈ es, e.path ≠ "" ∧ e.name ≠ "" ∧ used.lookup e.name = none ∧ e.issues = []) ∧
      (es.map ProgramEntry.name).Nodup := by
  induction entries generalizing i used with
  | nil => simp [issuesFrom]
  | cons entry entries ih =>
    cases entry with
    | none =>
      rw [issuesFrom]
      constructor
      · intro h
        cases h
      · rintro ⟨es, hes, -, -⟩
        cases es <;> cases hes
    | some e =>
      rw [issuesFrom, List.append_eq_nil_iff, ProgramEntry.issuesAt_eq_nil_iff, ih]
      constructor
      · rintro ⟨he, es, rfl, hes, hnodup⟩
        -- a later name is fresh after `e`: it is another name, and it was fresh before
        have hfresh : ∀ x ∈ es, e.name ≠ x.name ∧ used.lookup x.name = none := fun x hx =>
          (ProgramEntry.lookup_use_eq_none_iff he.2.1 he.2.2.1).1 (hes x hx).2.2.1
        refine ⟨e :: es, rfl, ?_, ?_⟩
        · intro x hx
          obtain rfl | hx := List.mem_cons.1 hx
          · exact he
          · exact ⟨(hes x hx).1, (hes x hx).2.1, (hfresh x hx).2, (hes x hx).2.2.2⟩
        · rw [List.map_cons, List.nodup_cons]
          refine ⟨?_, hnodup⟩
          intro hmem
          obtain ⟨x, hx, hsame⟩ := List.mem_map.1 hmem
          exact (hfresh x hx).1 hsame.symm
      · rintro ⟨es, hentries, hes, hnodup⟩
        cases es with
        | nil => cases hentries
        | cons first es =>
          obtain ⟨rfl, rfl⟩ : e = first ∧ entries = es.map some := by simpa using hentries
          rw [List.map_cons, List.nodup_cons] at hnodup
          have he := hes e List.mem_cons_self
          refine ⟨he, es, rfl, fun x hx => ?_, hnodup.2⟩
          obtain ⟨hpath, hname, hused, hissues⟩ := hes x (List.mem_cons_of_mem _ hx)
          have hne : e.name ≠ x.name := fun hsame =>
            hnodup.1 (hsame ▸ List.mem_map_of_mem hx)
          exact ⟨hpath, hname,
            (ProgramEntry.lookup_use_eq_none_iff he.2.1 he.2.2.1).2 ⟨hne, hused⟩, hissues⟩

namespace Manifest

/-- An accepted manifest comes from a draft and breaks no rule. -/
theorem exists_draft_of_ofBytes? {bytes : Bytes} {m : Manifest} (h : ofBytes? bytes = .ok m) :
    ∃ d : Draft, m = d.manifest ∧ m.issues = [] := by
  unfold ofBytes? at h
  split at h
  · cases h
  · cases h
  · split at h
    · cases h
    · rename_i d _
      unfold Draft.validate at h
      split at h
      · rename_i hissues
        cases h
        exact ⟨d, rfl, hissues⟩
      · cases h

/-- An accepted manifest leaves no program out, and its names are sanitized and distinct. -/
theorem exists_entries_of_ofBytes? {bytes : Bytes} {m : Manifest} (h : ofBytes? bytes = .ok m) :
    ∃ es : List ProgramEntry, m.programs = es.map some ∧ (es.map ProgramEntry.name).Nodup ∧
      ∀ e ∈ es, sanitize e.name = e.name := by
  obtain ⟨d, hm, hissues⟩ := exists_draft_of_ofBytes? h
  rw [issues, List.append_eq_nil_iff, issuesFrom_eq_nil_iff] at hissues
  obtain ⟨-, es, hes, -, hnodup⟩ := hissues
  refine ⟨es, hes, hnodup, fun e he => ?_⟩
  have hmem : some e ∈ d.manifest.programs := by
    rw [← hm, hes]
    exact List.mem_map_of_mem he
  obtain ⟨raw, -, hraw⟩ := List.mem_map.1 hmem
  obtain ⟨entry, -, rfl⟩ := Option.map_eq_some_iff.1 hraw
  exact sanitize_sanitize _

/-! ## Lookup -/

/-- Where no program is left out, looking up a name is a search for the first program that has it. -/
theorem find?_eq_find? {m : Manifest} {es : List ProgramEntry} (h : m.programs = es.map some)
    (query : String) :
    m.find? query = es.find? fun e => Text.sameFolded e.name (sanitize query) := by
  rw [find?, h, List.findSome?_map, List.find?_eq_findSome?_guard]
  congr

/-- The program at a place is the first with the given name, up to case. -/
structure IsFirst (m : Manifest) (name : String) (i : Nat) (e : ProgramEntry) : Prop where
  at_place : m.programs[i]? = some (some e)
  same : Text.sameFolded e.name name = true
  earlier : ∀ j < i, ∀ e', m.programs[j]? = some (some e') → Text.sameFolded e'.name name = false

/-- Looking up a name finds the first program that has it, up to case. -/
theorem find?_eq_some_iff {m : Manifest} {es : List ProgramEntry} (h : m.programs = es.map some)
    {query : String} {e : ProgramEntry} :
    m.find? query = some e ↔ ∃ i, m.IsFirst (sanitize query) i e := by
  rw [find?_eq_find? h, List.find?_eq_some_iff_getElem]
  have hplace {i : Nat} {x : ProgramEntry} : m.programs[i]? = some (some x) ↔ es[i]? = some x := by
    rw [h, List.getElem?_map]
    simp
  constructor
  · rintro ⟨hsame, i, hi, rfl, hearlier⟩
    refine ⟨i, hplace.2 (List.getElem?_eq_getElem hi), hsame, fun j hj e' he' => ?_⟩
    obtain ⟨hlt, rfl⟩ := List.getElem?_eq_some_iff.1 (hplace.1 he')
    simpa using hearlier j hj
  · rintro ⟨i, hat, hsame, hearlier⟩
    obtain ⟨hi, rfl⟩ := List.getElem?_eq_some_iff.1 (hplace.1 hat)
    refine ⟨hsame, i, hi, rfl, fun j hj => ?_⟩
    have hfalse := hearlier j hj _ (hplace.2 (List.getElem?_eq_getElem (Nat.lt_trans hj hi)))
    simp [hfalse]

/-- The name of a program finds the first program with that name up to case, which stands at its
place or earlier. It finds the program itself exactly when none before it has that name up to case. -/
theorem find?_name {bytes : Bytes} {m : Manifest} (h : ofBytes? bytes = .ok m) {i : Nat}
    (hi : i < m.programs.length) :
    ∃ e, m.programs[i]? = some (some e) ∧
      (∃ j first, j ≤ i ∧ m.IsFirst e.name j first ∧ m.find? e.name = some first) ∧
      (m.find? e.name = some e ↔ m.IsFirst e.name i e) := by
  obtain ⟨es, hes, hnodup, hsanitized⟩ := exists_entries_of_ofBytes? h
  have hlen : i < es.length := by simpa [hes] using hi
  have hat : m.programs[i]? = some (some es[i]) := by simp [hes, hlen]
  have hkept : sanitize es[i].name = es[i].name := hsanitized _ (List.getElem_mem hlen)
  have hself : Text.sameFolded es[i].name es[i].name = true := by simp [Text.sameFolded]
  refine ⟨es[i], hat, ?_, ?_⟩
  · have hfound : (m.find? es[i].name).isSome := by
      rw [find?_eq_find? hes, List.find?_isSome]
      exact ⟨es[i], List.getElem_mem hlen, by rw [hkept]; exact hself⟩
    obtain ⟨first, hfirst⟩ := Option.isSome_iff_exists.1 hfound
    obtain ⟨j, hj⟩ := (find?_eq_some_iff hes).1 hfirst
    rw [hkept] at hj
    refine ⟨j, first, Nat.le_of_not_lt fun hlt => ?_, hj, hfirst⟩
    simp [hj.earlier i hlt _ hat] at hself
  · rw [find?_eq_some_iff hes, hkept]
    refine ⟨?_, fun hfirst => ⟨i, hfirst⟩⟩
    rintro ⟨j, hj⟩
    -- one program cannot stand at two places, since its name would be there twice
    have hnames : (es.map ProgramEntry.name)[i]? = (es.map ProgramEntry.name)[j]? := by
      have hj' : es[j]? = some es[i] := by simpa [hes] using hj.at_place
      rw [List.getElem?_map, List.getElem?_map, hj', List.getElem?_eq_getElem hlen]
    have hsame : i = j := (List.getElem?_inj (by simpa using hlen) hnodup).1 hnames
    exact hsame ▸ hj

/-- Two programs whose names differ in case alone. -/
def twoCases : String :=
  "programs:\n  - \x7bname: a, path: x.lua\x7d\n  - \x7bname: A, path: y.lua\x7d\n"

theorem exists_twoCases : ∃ m, ofBytes? (Text.encode twoCases) = .ok m ∧
    m.programs = [some { name := "a", path := "x.lua" }, some { name := "A", path := "y.lua" }] := by
  have hread : (ofBytes? (Text.encode twoCases)).toOption.map Manifest.programs =
      some [some { name := "a", path := "x.lua" }, some { name := "A", path := "y.lua" }] := by
    decide +kernel
  cases hm : ofBytes? (Text.encode twoCases) with
  | error cause =>
    rw [hm] at hread
    cases hread
  | ok m =>
    rw [hm] at hread
    exact ⟨m, rfl, Option.some.inj hread⟩

theorem find?_name_twoCases : ∃ m, ofBytes? (Text.encode twoCases) = .ok m ∧
    1 < m.programs.length ∧ ∃ e, m.programs[1]? = some (some e) ∧
      (∃ j first, j ≤ 1 ∧ m.IsFirst e.name j first ∧ m.find? e.name = some first) ∧
      (m.find? e.name = some e ↔ m.IsFirst e.name 1 e) := by
  obtain ⟨m, hm, hprograms⟩ := exists_twoCases
  have hlen : 1 < m.programs.length := by
    rw [hprograms]
    decide
  exact ⟨m, hm, hlen, find?_name hm hlen⟩

/-- The name of the second program finds the first. -/
theorem find?_second_of_twoCases : ∃ m second first, ofBytes? (Text.encode twoCases) = .ok m ∧
    m.programs = [some first, some second] ∧ first ≠ second ∧
    m.find? second.name = some first := by
  obtain ⟨m, hm, hprograms⟩ := exists_twoCases
  refine ⟨m, { name := "A", path := "y.lua" }, { name := "a", path := "x.lua" }, hm, hprograms,
    by decide, ?_⟩
  rw [find?, hprograms]
  decide +kernel

end Manifest
end MiniLua

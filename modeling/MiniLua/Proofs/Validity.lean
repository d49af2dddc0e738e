import MiniLua.Loader
import MiniLua.Proofs.Lookup
import MiniLua.Proofs.Records
import MiniLua.Proofs.Scanning

/-!
# Valid manifests and their sources

The check of a manifest walks over the entries with a table of the names used so far, and gathers one
issue for each broken rule. Here the rules are stated without the walk: what each entry has to be on
its own, and that no two names are equal. The check accepts exactly the entries that keep the rules.

An accepted entry of a repository gives exactly one reference. Its source looks for a reference in the
trimmed texts, and the check looked at the texts as they are; since the texts of an entry that was read
are trimmed already, the source finds the one reference that the entry gives.

## Delivered

- `ProgramEntry.IsTrimmed`, `ProgramEntry.isTrimmed_of_ofNode?`: how entries are read.
- `ProgramEntry.references`, `ProgramEntry.KeepsRules`, `KeepRules`: the rules, in which the name of an
  entry is the sanitized form of the name that it gives or else of the stem of its path.
- `ProgramEntry.issues_eq_nil_iff`, `Draft.issues_manifest_eq_nil_iff`: the check decides them.
- `ProgramEntry.reference?_source`: the reference that a source finds.
- `issuesFrom_prefix`: later entries only add issues.
- `Draft.judged`: the manifests that are accepted, their sources, and the issues of the others.
-/

set_option autoImplicit false

namespace MiniLua

/-- Trimming leaves nothing to trim. -/
theorem Text.trim_trim (s : String) : Text.trim (Text.trim s) = Text.trim s := by
  unfold Text.trim
  rw [String.toList_ofList, Text.trimmed_eq_self]
  · intro c hc
    exact Text.head?_trimmed hc
  · intro c hc
    exact Text.getLast?_trimmed hc

namespace ProgramEntry

variable {e : ProgramEntry}

/-! ## Entries as they are read -/

/-- No text of the entry has a blank at its ends. -/
structure IsTrimmed (e : ProgramEntry) : Prop where
  name : Text.trim e.name = e.name
  path : Text.trim e.path = e.path
  git : Text.trim e.git = e.git
  rev : Text.trim e.rev = e.rev
  tag : Text.trim e.tag = e.tag
  branch : Text.trim e.branch = e.branch

theorem isTrimmed_empty : IsTrimmed {} := by
  constructor <;> decide

/-- A trimmed text in any field. -/
theorem IsTrimmed.put (h : e.IsTrimmed) (field text : String) :
    (e.put field (Text.trim text)).IsTrimmed := by
  have htext := Text.trim_trim text
  unfold ProgramEntry.put
  split
  · exact { h with name := htext }
  · exact { h with path := htext }
  · exact { h with git := htext }
  · exact { h with rev := htext }
  · exact { h with tag := htext }
  · exact { h with branch := htext }
  · exact h

/-- An entry that is read from a node is trimmed. -/
theorem isTrimmed_of_ofNode? {d : Yaml.Document} {n : Yaml.Node} (h : ofNode? d n = .ok e) :
    e.IsTrimmed := by
  unfold ofNode? at h
  split at h
  · split at h
    · cases h
      exact isTrimmed_empty
    · cases h
      exact { isTrimmed_empty with path := Text.trim_trim _ }
  · -- a mapping: every field is trimmed when it is set
    have hkeeps : d.Keeps shape IsTrimmed := by
      intro name value e he
      refine .bind_any fun text? => ?_
      split
      · exact .pure (he.put name _)
      · exact .pure he
    refine Yaml.Decoding.Ensures.of_result (.bind_any fun _ => ?_) h
    exact Yaml.Document.readRecord_ensures hkeeps isTrimmed_empty
  · cases h
  · cases h
    exact isTrimmed_empty

/-! ## The rules -/

/-- The references that the entry gives. -/
def references (e : ProgramEntry) : List Reference :=
  (if e.rev = "" then [] else [.revision e.rev]) ++
    (if e.tag = "" then [] else [.tag e.tag]) ++
    (if e.branch = "" then [] else [.branch e.branch])

theorem length_references (e : ProgramEntry) : e.references.length = e.referenceCount := by
  by_cases hrev : e.rev = "" <;> by_cases htag : e.tag = "" <;> by_cases hbranch : e.branch = "" <;>
    simp [references, referenceCount, hrev, htag, hbranch]

/-- What an entry has to be on its own, beside its name: it has a path; it gives no reference without a
repository; and with one it gives exactly one reference and a relative path. -/
structure KeepsRules (e : ProgramEntry) : Prop where
  path : e.path ≠ ""
  file : e.git = "" → e.references = []
  repository : e.git ≠ "" → (∃ r, e.references = [r]) ∧ Path.isAbsolute e.path = false

/-- The check of the parts of an entry decides the rules for repositories. -/
theorem issues_eq_nil_iff (e : ProgramEntry) :
    e.issues = [] ↔ (e.git = "" → e.references = []) ∧
      (e.git ≠ "" → (∃ r, e.references = [r]) ∧ Path.isAbsolute e.path = false) := by
  have hzero : e.references = [] ↔ e.referenceCount = 0 := by
    rw [← length_references, List.length_eq_zero_iff]
  have hone : (∃ r, e.references = [r]) ↔ e.referenceCount = 1 := by
    rw [← length_references, List.length_eq_one_iff]
  rw [hzero, hone]
  by_cases hgit : e.git = ""
  · -- without a repository only the number of references counts
    have hfile : e.isGit = false := by simp [isGit, hgit]
    by_cases hnone : e.referenceCount = 0
    · simp [issues, hfile, hgit, hnone]
    · have hsome : 0 < e.referenceCount := Nat.pos_of_ne_zero hnone
      simp [issues, hfile, hgit, hnone, hsome]
  · have hrepository : e.isGit = true := by simp [isGit, hgit]
    rcases Nat.lt_trichotomy e.referenceCount 1 with hlt | heq | hgt
    · have hnone : e.referenceCount = 0 := by omega
      simp [issues, hrepository, hgit, hnone]
    · simp [issues, hrepository, hgit, heq]
    · have hne : e.referenceCount ≠ 0 := by omega
      have hne' : e.referenceCount ≠ 1 := by omega
      simp [issues, hrepository, hgit, hgt, hne, hne']

/-! ## Sources -/

/-- The source of an entry is named as the entry. -/
theorem name_source (h : e.name ≠ "") (directory : String) : (e.source directory).name = e.name := by
  unfold source
  split
  · simp [Source.name, nameOf, h]
  · simp [Source.name, nameOf, h]

/-- The source of a trimmed entry of a repository finds the first reference that the entry gives. -/
theorem reference?_source (h : e.IsTrimmed) (hgit : e.git ≠ "") (directory : String) :
    ∃ s, e.named.source directory = .repository s ∧ s.reference? = e.references.head? := by
  have hrepository : e.named.isGit = true := by simp [isGit, named, hgit]
  refine ⟨_, by rw [source, if_pos hrepository], ?_⟩
  simp only [RepositorySource.reference?, named, h.rev, h.tag, h.branch]
  by_cases hrev : e.rev = "" <;> by_cases htag : e.tag = "" <;> by_cases hbranch : e.branch = "" <;>
    simp [references, hrev, htag, hbranch]

/-- An entry without a repository is a file. -/
theorem source_of_file (hgit : e.git = "") (directory : String) :
    e.source directory = .file { label := e.name, path := resolveFrom directory e.path } := by
  have hfile : e.isGit = false := by simp [isGit, hgit]
  simp [source, hfile]

end ProgramEntry

/-- A source that finds a reference never fails for want of one: its failures say what was tried. -/
theorem RepositorySource.read_ne_noReference {s : RepositorySource} {reference : Reference}
    (h : s.reference? = some reference) (w : World) (cancelled : Bool) :
    s.read w cancelled ≠ .error noReference := by
  intro hread
  unfold read at hread
  rw [h] at hread
  dsimp only at hread
  split at hread
  · cases hread
  split at hread
  · cases hread
  split at hread
  · cases hread
  split at hread
  · cases hread
  unfold readFrom at hread
  dsimp only at hread
  split at hread
  · cases hread
  split at hread <;> cases hread

/-- Nor does a file. -/
theorem Source.read_file_ne_noReference (file : FileSource) (w : World) (cancelled : Bool) :
    (Source.file file).read w cancelled ≠ .error RepositorySource.noReference := by
  intro hread
  unfold Source.read at hread
  dsimp only at hread
  split at hread
  · injection hread with hcause
    injection hcause with hmessage
    exact absurd hmessage (by decide)
  split at hread <;> cases hread

/-! ## Lists of entries -/

/-- The entries of a sequence are all there and trimmed. -/
theorem exists_isTrimmed_of_entriesFrom {d : Yaml.Document} {i : Nat}
    {before entries : List (Option ProgramEntry)} {nodes : List Yaml.Node}
    (h : entriesFrom d i before nodes = .ok entries) :
    ∃ es : List ProgramEntry, entries = before.reverse ++ es.map some ∧ ∀ e ∈ es, e.IsTrimmed := by
  induction nodes generalizing i before with
  | nil =>
    cases h
    exact ⟨[], by simp, by simp⟩
  | cons n nodes ih =>
    unfold entriesFrom at h
    split at h
    · rename_i e he
      obtain ⟨es, rfl, hes⟩ := ih h
      refine ⟨e :: es, by simp, ?_⟩
      intro e' he'
      rcases List.mem_cons.1 he' with rfl | he'
      · exact ProgramEntry.isTrimmed_of_ofNode? he
      · exact hes e' he'
    · cases h

/-- The walk over entries finds no issue when each of them keeps the rules and has a name, and no two
names are equal. -/
theorem issuesFrom_map_some_eq_nil_iff {es : List ProgramEntry} :
    issuesFrom 0 [] (es.map some) = [] ↔
      (∀ e ∈ es, e.KeepsRules ∧ e.name ≠ "") ∧ (es.map ProgramEntry.name).Nodup := by
  rw [issuesFrom_eq_nil_iff]
  constructor
  · rintro ⟨xs, hxs, hrules, hnodup⟩
    obtain rfl : es = xs := (List.map_inj_right fun _ _ => Option.some.inj).1 hxs
    refine ⟨?_, hnodup⟩
    intro e he
    obtain ⟨hpath, hname, -, hissues⟩ := hrules e he
    obtain ⟨hfile, hrepository⟩ := e.issues_eq_nil_iff.1 hissues
    exact ⟨⟨hpath, hfile, hrepository⟩, hname⟩
  · rintro ⟨hrules, hnodup⟩
    refine ⟨es, rfl, ?_, hnodup⟩
    intro e he
    obtain ⟨⟨hpath, hfile, hrepository⟩, hname⟩ := hrules e he
    exact ⟨hpath, hname, rfl, e.issues_eq_nil_iff.2 ⟨hfile, hrepository⟩⟩

/-- The entries that a manifest may have: there is one at least, each of them keeps the rules and has a
name, and no two names are equal. The name of an entry is the one that it gives, or the stem of its path
when it gives none, in sanitized form. -/
structure KeepRules (es : List ProgramEntry) : Prop where
  nonempty : es ≠ []
  each : ∀ e ∈ es, e.KeepsRules
  named : ∀ e ∈ es, sanitize (if e.name = "" then Path.stem e.path else e.name) ≠ ""
  distinct : (es.map fun e => sanitize (if e.name = "" then Path.stem e.path else e.name)).Nodup

/-- Where no entry is left out, every entry has its source. -/
theorem Manifest.sources_of_programs {m : Manifest} {es : List ProgramEntry}
    (h : m.programs = es.map some) : m.sources = es.map fun e => e.source m.directory := by
  rw [sources, h, List.filterMap_map]
  exact congrFun List.filterMap_eq_map es

namespace Draft

variable {d : Draft} {es : List ProgramEntry}

theorem programs_manifest (hd : d.programs = es.map some) :
    d.manifest.programs = (es.map ProgramEntry.named).map some := by
  simp [Draft.manifest, hd]

/-- The check of a manifest decides the rules for its entries. -/
theorem issues_manifest_eq_nil_iff (hd : d.programs = es.map some) :
    d.manifest.issues = [] ↔ KeepRules es := by
  have hempty : (if d.manifest.programs.isEmpty then ["programs must list at least one program"]
      else []) = [] ↔ es ≠ [] := by
    rw [programs_manifest hd]
    cases es <;> simp
  rw [Manifest.issues, List.append_eq_nil_iff, hempty, programs_manifest hd,
    issuesFrom_map_some_eq_nil_iff, List.forall_mem_map, List.map_map]
  -- an entry that gets its name keeps its path, its repository and its references
  constructor
  · rintro ⟨hnonempty, heach, hdistinct⟩
    refine ⟨hnonempty, fun e he => ?_, fun e he => (heach e he).2, hdistinct⟩
    obtain ⟨⟨hpath, hfile, hrepository⟩, -⟩ := heach e he
    exact ⟨hpath, hfile, hrepository⟩
  · rintro ⟨hnonempty, heach, hnamed, hdistinct⟩
    refine ⟨hnonempty, fun e he => ⟨?_, hnamed e he⟩, hdistinct⟩
    obtain ⟨hpath, hfile, hrepository⟩ := heach e he
    exact ⟨hpath, hfile, hrepository⟩

theorem validate_eq_ok_iff : d.validate = .ok d.manifest ↔ d.manifest.issues = [] := by
  unfold validate
  cases hissues : d.manifest.issues with
  | nil => simp
  | cons issue issues => simp

theorem validate_of_issues (h : d.manifest.issues ≠ []) :
    d.validate = .error (.invalid d.manifest.issues) := by
  unfold validate
  split
  · contradiction
  · rfl

end Draft

/-! ## Issues of more entries -/

/-- Entries that come later add their own issues and take none away. -/
theorem issuesFrom_prefix (i : Nat) (used : List (String × Nat)) (ps qs : List (Option ProgramEntry)) :
    issuesFrom i used ps <+: issuesFrom i used (ps ++ qs) := by
  induction ps generalizing i used with
  | nil => exact List.nil_prefix
  | cons p ps ih =>
    cases p with
    | none => exact (List.prefix_cons_inj _).2 (ih _ _)
    | some e => exact (List.prefix_append_right_inj _).2 (ih _ _)

/-- A manifest with entries keeps its issues when more entries are added behind them. -/
theorem Manifest.issues_prefix {m m' : Manifest} {ps qs : List (Option ProgramEntry)}
    (hps : ps ≠ []) (hm : m.programs = ps) (hm' : m'.programs = ps ++ qs) :
    m.issues <+: m'.issues := by
  cases ps with
  | nil => exact absurd rfl hps
  | cons p ps =>
    simp only [Manifest.issues, hm, hm', List.cons_append, List.isEmpty_cons]
    exact issuesFrom_prefix 0 [] (p :: ps) qs

/-! ## Accepted manifests -/

/-- The source of an accepted entry: it has the name of the entry; it is a file, or it is a repository
and finds the one reference that the entry gives; and it never fails for want of a reference. -/
structure ProgramEntry.Becomes (e : ProgramEntry) (s : Source) : Prop where
  name : s.name = sanitize (if e.name = "" then Path.stem e.path else e.name)
  file : e.git = "" → ∃ file, s = .file file
  repository : e.git ≠ "" → ∃ r reference, s = .repository r ∧ e.references = [reference] ∧
    r.reference? = some reference
  read : ∀ w cancelled, s.read w cancelled ≠ .error RepositorySource.noReference

/-- An entry that keeps the rules becomes its source. -/
theorem ProgramEntry.becomes_source {e : ProgramEntry} (htrim : e.IsTrimmed) (hrules : e.KeepsRules)
    (hnamed : e.named.name ≠ "") (directory : String) : e.Becomes (e.named.source directory) := by
  have hname := ProgramEntry.name_source hnamed directory
  by_cases hgit : e.git = ""
  · have hsource : e.named.source directory = .file _ :=
      ProgramEntry.source_of_file (e := e.named) hgit directory
    refine ⟨hname, fun _ => ⟨_, hsource⟩, fun h => absurd hgit h, ?_⟩
    intro w cancelled
    rw [hsource]
    exact Source.read_file_ne_noReference _ w cancelled
  · obtain ⟨⟨reference, hgiven⟩, -⟩ := hrules.repository hgit
    obtain ⟨r, hr, hfound⟩ := ProgramEntry.reference?_source htrim hgit directory
    rw [hgiven, List.head?_cons] at hfound
    refine ⟨hname, fun h => absurd h hgit, fun _ => ⟨r, reference, hr, hgiven, hfound⟩, ?_⟩
    intro w cancelled
    rw [hr]
    exact RepositorySource.read_ne_noReference hfound w cancelled

/-- What the check says of a draft with the given entries. -/
structure Draft.Judged (d : Draft) (es : List ProgramEntry) : Prop where
  /-- The manifest is accepted exactly when its entries keep the rules. -/
  accepted : d.validate = .ok d.manifest ↔ KeepRules es
  /-- Otherwise it is refused with its issues. -/
  refused : ¬ KeepRules es → d.validate = .error (.invalid d.manifest.issues)
  /-- Wherever an accepted manifest lies, it has one source for each entry, in their order. -/
  sources : KeepRules es → ∀ path, ∃ source : ProgramEntry → Source,
    Manifest.sources { d.manifest with path := path } = es.map source ∧
      ∀ e ∈ es, e.Becomes (source e)
  /-- More entries behind these only add issues. -/
  accumulate : es ≠ [] → ∀ more : List (Option ProgramEntry),
    d.manifest.issues <+: (Draft.manifest { d with programs := d.programs ++ more }).issues

/-- The check accepts exactly the entries that keep the rules. The sources of an accepted manifest are
named as its entries, and each finds the one reference that its entry gives. -/
theorem Draft.judged {d : Draft} {es : List ProgramEntry} (hd : d.programs = es.map some)
    (htrim : ∀ e ∈ es, e.IsTrimmed) : d.Judged es := by
  constructor
  case accepted => rw [validate_eq_ok_iff, issues_manifest_eq_nil_iff hd]
  case refused =>
    intro hbroken
    apply validate_of_issues
    rwa [Ne, issues_manifest_eq_nil_iff hd]
  case sources =>
    intro hrules path
    let m : Manifest := { d.manifest with path := path }
    refine ⟨fun e => e.named.source m.directory, ?_, ?_⟩
    · rw [Manifest.sources_of_programs (m := m) (programs_manifest hd), List.map_map]
      rfl
    · intro e he
      exact ProgramEntry.becomes_source (htrim e he) (hrules.each e he) (hrules.named e he)
        m.directory
  case accumulate =>
    intro hes more
    refine Manifest.issues_prefix ?_ rfl (List.map_append ..)
    simpa [Draft.manifest, hd] using hes

/-- A path alone, and a mapping with a name, a repository and a tag. -/
def twoNodes : List Yaml.Node :=
  let text := Yaml.Node.scalar 1 .str
  [text " a.lua ", .mapping 2 .map [(text "path", text "src/b.lua"), (text "name", text " lib-b"),
    (text "git", text "../lib"), (text "tag", text "v1 ")]]

/-- The entries that are read from them. -/
def twoEntries : List ProgramEntry :=
  [{ path := "a.lua" }, { name := "lib-b", path := "src/b.lua", git := "../lib", tag := "v1" }]

/-- The first entry gets its name from its path, and the second keeps its own, without the hyphen. -/
theorem Draft.judged_twoEntries :
    entriesFrom { root := .sequence 1 .seq twoNodes, limit := 9 } 0 [] twoNodes =
      .ok (twoEntries.map some) ∧ (∀ e ∈ twoEntries, e.IsTrimmed) ∧ KeepRules twoEntries ∧
      Draft.Judged { programs := twoEntries.map some } twoEntries ∧
      (Draft.manifest { programs := twoEntries.map some }).sources.map Source.name =
        ["a", "lib_b"] := by
  have hread : entriesFrom { root := .sequence 1 .seq twoNodes, limit := 9 } 0 [] twoNodes =
      .ok (twoEntries.map some) := TokenQueue.eq_ok_of_toOption (by decide +kernel)
  obtain ⟨es, hes, htrim⟩ := exists_isTrimmed_of_entriesFrom hread
  obtain rfl : twoEntries = es := (List.map_inj_right fun _ _ => Option.some.inj).1 hes
  have hrules : KeepRules twoEntries :=
    (Draft.issues_manifest_eq_nil_iff (d := { programs := twoEntries.map some }) rfl).1
      (by decide +kernel)
  exact ⟨hread, htrim, hrules, Draft.judged rfl htrim, by decide +kernel⟩

/-- A blank reference that is not trimmed passes the check, and the source finds no reference. -/
example : ({ name := "a", path := "a.lua", git := "../lib", rev := " " } : ProgramEntry).issues = [] ∧
    ({ url := "../lib", rev := " ", path := "a.lua" } : RepositorySource).reference? = none := by
  decide

end MiniLua

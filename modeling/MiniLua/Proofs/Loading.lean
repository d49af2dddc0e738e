import Mathlib.Data.List.Nodup
import MiniLua.Loader

/-!
# Loading with a shared cache

A cache spares work and changes nothing else. Loads that share one may go on at the same time: each
looks its text up in one step and adds the parsed program in a later one, and any steps of the others
may come in between. Whatever the order, an entry is the program of the text whose digest it is
under, since entries are only added after a text was parsed, and moving or dropping entries makes no
new ones. A load that finds its text therefore gets the program that it would have parsed.

All of this rests on digests that tell the texts apart.

## Delivered

- `Cache.All` and its lemmas: a property of all entries outlasts look-ups and additions.
- `LoadRequest`, `LoadStage`, `LoadRequest.advance`, `Reached`: loads in steps, on one cache.
- `Source.load_eq_advance`: a load that is not interrupted takes these steps one after the other.
- `LoadRequest.advance_sound`, `Reached.sound`: what a step and what any order of steps keeps.
-/

set_option autoImplicit false

namespace MiniLua

/-! ## Properties of all entries -/

namespace Cache

variable {κ α : Type} [DecidableEq κ] {P : κ → α → Prop} {c c' : Cache κ α} {key : κ} {value : α}

/-- Every entry has the property. -/
def All (P : κ → α → Prop) (c : Cache κ α) : Prop :=
  ∀ entry ∈ c.entries, P entry.1 entry.2

/-- A value that is found comes from an entry. -/
theorem All.of_get? (h : c.All P) (hget : c.get? key = some value) : P key value := by
  obtain ⟨entry, hfind, rfl⟩ := Option.map_eq_some_iff.1 hget
  have hkey : entry.1 = key := by simpa using List.find?_some hfind
  rw [← hkey]
  exact h entry (List.mem_of_find?_eq_some hfind)

/-- An addition makes one entry and keeps or drops the others. -/
theorem All.add (h : c.All P) (hnew : P key value) : (c.add key value).All P := by
  intro entry hmem
  rcases List.mem_cons.1 (List.mem_of_mem_take hmem) with rfl | hmem
  · exact hnew
  · exact h entry (List.mem_filter.1 hmem).1

/-- A look-up finds an entry and only moves it. -/
theorem All.of_find? (h : c.All P) (hfind : c.find? key = some (value, c')) :
    P key value ∧ c'.All P := by
  obtain ⟨value', hget, heq⟩ := Option.map_eq_some_iff.1 hfind
  cases heq
  exact ⟨h.of_get? hget, h.add (h.of_get? hget)⟩

end Cache

/-! ## Loads in steps -/

/-- A call to load: what can be read at that time, whether the work is cancelled, and the source,
which may be left out. -/
structure LoadRequest where
  world : World
  cancelled : Bool
  source : Option Source

/-- How far a load is. -/
inductive LoadStage where
  /-- It has not begun. -/
  | asked
  /-- The text is read, and was not in the cache. -/
  | missed (source : Source) (text : Bytes)
  /-- The unit is there. -/
  | done (unit : LoadedUnit)

/-- A load that goes on beside others. -/
structure Loading where
  request : LoadRequest
  stage : LoadStage

/-- The unit without the mark that says whether its program came from a cache. -/
def LoadedUnit.uncached (u : LoadedUnit) : LoadedUnit :=
  { u with cached := false }

namespace LoadRequest

/-- The unit that a call gets without a cache. -/
def alone (r : LoadRequest) : LoadedUnit :=
  match r.source with
  | none => { failure := some noSource }
  | some s => (s.load r.world r.cancelled none).1

/-- The next step of a load, on the cache as the other loads have left it. The first step ends with
the look-up, the second one with the addition. -/
def advance (r : LoadRequest) (cache : ProgramCache) : LoadStage → LoadStage × ProgramCache
  | .asked =>
    match r.source with
    | none => (.done { failure := some noSource }, cache)
    | some s =>
      match s.read r.world r.cancelled with
      | .error cause =>
        (.done { name := s.name, path := s.display, failure := some (.load s.display cause) }, cache)
      | .ok text =>
        match cache.find? text with
        | some (program, cache') =>
          (.done { name := s.name, path := s.display, text := text, program := some program,
                   cached := true }, cache')
        | none => (.missed s text, cache)
  | .missed s text =>
    match Program.ofBytes? text with
    | .ok program =>
      (.done { name := s.name, path := s.display, text := text, program := some program },
        cache.add text program)
    | .error e =>
      (.done { name := s.name, path := s.display, text := text, failure := some e.failure }, cache)
  | .done unit => (.done unit, cache)

/-- The text that the call reads, if it reads one, is among the texts. -/
def ReadsWithin (texts : Bytes → Prop) (r : LoadRequest) : Prop :=
  ∀ s text, r.source = some s → s.read r.world r.cancelled = .ok text → texts text

end LoadRequest

/-- The caches and loads that calls can lead to, from an empty cache with the given bound: at any time
a call may be made, and any load may take its next step. -/
inductive Reached (texts : Bytes → Prop) (bound : Int) : ProgramCache → List Loading → Prop
  | start : Reached texts bound (.make bound) []
  | ask {cache : ProgramCache} {loadings : List Loading} (h : Reached texts bound cache loadings)
      (r : LoadRequest) (hr : r.ReadsWithin texts) :
      Reached texts bound cache (loadings ++ [⟨r, .asked⟩])
  | move {cache : ProgramCache} {before after : List Loading} {r : LoadRequest} {stage : LoadStage}
      (h : Reached texts bound cache (before ++ ⟨r, stage⟩ :: after)) :
      Reached texts bound (r.advance cache stage).2
        (before ++ ⟨r, (r.advance cache stage).1⟩ :: after)

/-! ## Units without a cache -/

section Alone

variable {r : LoadRequest} {s : Source} {text : Bytes}

/-- A source that cannot be read. -/
theorem LoadRequest.alone_of_read_error {cause : Failure} (hs : r.source = some s)
    (hread : s.read r.world r.cancelled = .error cause) :
    r.alone = { name := s.name, path := s.display, failure := some (.load s.display cause) } := by
  simp only [LoadRequest.alone, hs, Source.load, hread]

/-- A text that is a program. -/
theorem LoadRequest.alone_of_ofBytes?_ok {p : Program} (hs : r.source = some s)
    (hread : s.read r.world r.cancelled = .ok text) (hp : Program.ofBytes? text = .ok p) :
    r.alone = { name := s.name, path := s.display, text := text, program := some p } := by
  simp only [LoadRequest.alone, hs, Source.load, hread, Source.unitOf, Option.bind_none, hp]

/-- A text that is no program. -/
theorem LoadRequest.alone_of_ofBytes?_error {e : SourceError} (hs : r.source = some s)
    (hread : s.read r.world r.cancelled = .ok text) (hp : Program.ofBytes? text = .error e) :
    r.alone = { name := s.name, path := s.display, text := text, failure := some e.failure } := by
  simp only [LoadRequest.alone, hs, Source.load, hread, Source.unitOf, Option.bind_none, hp]

/-- The unit of a source has a program or a failure, and not both. -/
theorem LoadRequest.isSome_program_alone (hs : r.source = some s) :
    r.alone.program.isSome = r.alone.failure.isNone := by
  cases hread : s.read r.world r.cancelled with
  | error cause =>
    rw [LoadRequest.alone_of_read_error hs hread]
    rfl
  | ok text =>
    cases hp : Program.ofBytes? text with
    | ok p =>
      rw [LoadRequest.alone_of_ofBytes?_ok hs hread hp]
      rfl
    | error e =>
      rw [LoadRequest.alone_of_ofBytes?_error hs hread hp]
      rfl

end Alone

/-! ## What steps keep -/

/-- The digests tell the texts apart. -/
def DigestsDiffer (texts : Bytes → Prop) : Prop :=
  ∀ t u, texts t → texts u → Digest.ofBytes t = Digest.ofBytes u → t = u

/-- The digests tell finitely many texts apart when no two of them are equal. -/
theorem DigestsDiffer.of_nodup {texts : Bytes → Prop} (ts : List Bytes) (h : ∀ t, texts t → t ∈ ts)
    (hnodup : (ts.map Digest.ofBytes).Nodup) : DigestsDiffer texts := by
  intro t u ht hu heq
  exact List.inj_on_of_nodup_map hnodup (h t ht) (h u hu) heq

/-- Every entry is the program of one of the texts, under the digest of that text. -/
def ProgramCache.Faithful (texts : Bytes → Prop) (cache : ProgramCache) : Prop :=
  cache.All fun key program =>
    ∃ text, texts text ∧ key = Digest.ofBytes text ∧ Program.ofBytes? text = .ok program

/-- The stage is one that the call can be at: what was read is its text, and the unit that it has got
is the one it would have got without a cache. -/
inductive LoadRequest.Sound (r : LoadRequest) : LoadStage → Prop
  | asked : LoadRequest.Sound r .asked
  | missed {s : Source} {text : Bytes} (hs : r.source = some s)
      (hread : s.read r.world r.cancelled = .ok text) : LoadRequest.Sound r (.missed s text)
  | done {unit : LoadedUnit} (h : unit.uncached = r.alone) : LoadRequest.Sound r (.done unit)

section Steps

variable {texts : Bytes → Prop} {bound : Int} {cache cache' : ProgramCache} {loadings : List Loading}
  {r : LoadRequest} {s : Source} {text : Bytes} {p : Program}

/-- The entry under a text whose digest no other text has is the program of that text. -/
theorem ProgramCache.Faithful.ofBytes?_of_get? (hdigest : DigestsDiffer texts)
    (hcache : cache.Faithful texts) (htext : texts text)
    (hget : cache.get? (Digest.ofBytes text) = some p) : Program.ofBytes? text = .ok p := by
  obtain ⟨text', htext', hkey, hp⟩ := Cache.All.of_get? hcache hget
  rw [hdigest text text' htext htext' hkey]
  exact hp

/-- A look-up that finds a text finds its program, and leaves the entries as they are. -/
theorem ProgramCache.Faithful.of_find? (hdigest : DigestsDiffer texts)
    (hcache : cache.Faithful texts) (htext : texts text)
    (hfind : cache.find? text = some (p, cache')) :
    Program.ofBytes? text = .ok p ∧ cache'.Faithful texts := by
  obtain ⟨⟨text', htext', hkey, hp⟩, hcache'⟩ := Cache.All.of_find? hcache hfind
  rw [hdigest text text' htext htext' hkey]
  exact ⟨hp, hcache'⟩

/-- One step of a load keeps the cache faithful and the load sound. -/
theorem LoadRequest.advance_sound (hdigest : DigestsDiffer texts) (hr : r.ReadsWithin texts)
    (hcache : cache.Faithful texts) {stage : LoadStage} (hstage : r.Sound stage) :
    (r.advance cache stage).2.Faithful texts ∧ r.Sound (r.advance cache stage).1 := by
  cases hstage with
  | asked =>
    cases hs : r.source with
    | none =>
      simp only [LoadRequest.advance, hs]
      refine ⟨hcache, .done ?_⟩
      simp only [LoadRequest.alone, hs, LoadedUnit.uncached]
    | some s =>
      cases hread : s.read r.world r.cancelled with
      | error cause =>
        simp only [LoadRequest.advance, hs, hread]
        refine ⟨hcache, .done ?_⟩
        rw [LoadRequest.alone_of_read_error hs hread]
        rfl
      | ok text =>
        cases hfind : cache.find? text with
        | none =>
          simp only [LoadRequest.advance, hs, hread, hfind]
          exact ⟨hcache, .missed hs hread⟩
        | some found =>
          -- the only case that rests on the digests: what is found was parsed from this text
          obtain ⟨p, cache'⟩ := found
          obtain ⟨hp, hcache'⟩ := hcache.of_find? hdigest (hr s text hs hread) hfind
          simp only [LoadRequest.advance, hs, hread, hfind]
          refine ⟨hcache', .done ?_⟩
          rw [LoadRequest.alone_of_ofBytes?_ok hs hread hp]
          rfl
  | missed hs hread =>
    rename_i s text
    -- the cache may have changed since the look-up, but the text is still the one that was read
    cases hp : Program.ofBytes? text with
    | ok p =>
      simp only [LoadRequest.advance, hp]
      refine ⟨?_, .done ?_⟩
      · exact Cache.All.add hcache ⟨text, hr s text hs hread, rfl, hp⟩
      · rw [LoadRequest.alone_of_ofBytes?_ok hs hread hp]
        rfl
    | error e =>
      simp only [LoadRequest.advance, hp]
      refine ⟨hcache, .done ?_⟩
      rw [LoadRequest.alone_of_ofBytes?_error hs hread hp]
      rfl
  | done h => exact ⟨hcache, .done h⟩

/-- Whatever the order of the steps, the cache is faithful and every load is sound. -/
theorem Reached.sound (hdigest : DigestsDiffer texts) (h : Reached texts bound cache loadings) :
    cache.Faithful texts ∧
      ∀ l ∈ loadings, l.request.ReadsWithin texts ∧ l.request.Sound l.stage := by
  induction h with
  | start =>
    refine ⟨?_, by simp⟩
    intro entry hmem
    cases hmem
  | ask h r hr ih =>
    refine ⟨ih.1, ?_⟩
    intro l hl
    rcases List.mem_append.1 hl with hl | hl
    · exact ih.2 l hl
    · rw [List.mem_singleton.1 hl]
      exact ⟨hr, .asked⟩
  | move h ih =>
    rename_i cache before after r stage
    obtain ⟨hcache, hall⟩ := ih
    -- the load that moves, before its step
    obtain ⟨hr, hstage⟩ := hall ⟨r, stage⟩ (by simp)
    obtain ⟨hcache', hstage'⟩ := LoadRequest.advance_sound hdigest hr hcache hstage
    refine ⟨hcache', ?_⟩
    intro l hl
    rcases List.mem_append.1 hl with hl | hl
    · exact hall l (List.mem_append_left _ hl)
    · rcases List.mem_cons.1 hl with rfl | hl
      · exact ⟨hr, hstage'⟩
      · exact hall l (List.mem_append_right _ (List.mem_cons_of_mem _ hl))

/-! ## Loads that are not interrupted -/

/-- A load that is not interrupted takes both of its steps, one after the other. -/
theorem Source.load_eq_advance (hs : r.source = some s) (cache : ProgramCache) :
    ∃ unit cache', s.load r.world r.cancelled (some cache) = (unit, some cache') ∧
      r.advance (r.advance cache .asked).2 (r.advance cache .asked).1 = (.done unit, cache') := by
  cases hread : s.read r.world r.cancelled with
  | error cause =>
    simp only [Source.load, LoadRequest.advance, hs, hread]
    exact ⟨_, _, rfl, rfl⟩
  | ok text =>
    cases hfind : cache.find? text with
    | some found =>
      obtain ⟨p, cache'⟩ := found
      simp only [Source.load, Source.unitOf, LoadRequest.advance, hs, hread, Option.bind_some, hfind]
      exact ⟨_, _, rfl, rfl⟩
    | none =>
      simp only [Source.load, Source.unitOf, LoadRequest.advance, hs, hread, Option.bind_some, hfind]
      cases hp : Program.ofBytes? text with
      | ok p => exact ⟨_, _, rfl, rfl⟩
      | error e => exact ⟨_, _, rfl, rfl⟩

/-- After a load that is not interrupted, the cache is one that can be reached. -/
theorem Reached.load (h : Reached texts bound cache loadings) (hr : r.ReadsWithin texts)
    (hs : r.source = some s) :
    ∃ unit cache', s.load r.world r.cancelled (some cache) = (unit, some cache') ∧
      Reached texts bound cache' (loadings ++ [⟨r, .done unit⟩]) := by
  obtain ⟨unit, cache', hload, hsteps⟩ := Source.load_eq_advance hs cache
  -- the call is made, and no other load moves between its two steps
  have hfirst := (h.ask r hr).move
  have hsecond := hfirst.move
  rw [hsteps] at hsecond
  exact ⟨unit, cache', hload, hsecond⟩

/-- A load from a cache that can be reached gives the unit that it would give without a cache. -/
theorem Reached.uncached_load (hdigest : DigestsDiffer texts)
    (h : Reached texts bound cache loadings) (hr : r.ReadsWithin texts) (hs : r.source = some s) :
    (s.load r.world r.cancelled (some cache)).1.uncached = r.alone := by
  obtain ⟨unit, cache', hload, hreached⟩ := h.load hr hs
  obtain ⟨-, hall⟩ := hreached.sound hdigest
  obtain ⟨-, hsound⟩ := hall ⟨r, .done unit⟩ (by simp)
  rw [hload]
  cases hsound with
  | done hunit => exact hunit

/-- Loading sources one after the other from a cache that can be reached gives the units that they
give each alone. -/
theorem Reached.uncached_loadAll (hdigest : DigestsDiffer texts)
    (h : Reached texts bound cache loadings) {w : World} {cancelled : Bool}
    {sources : List (Option Source)}
    (hsources : ∀ source ∈ sources, LoadRequest.ReadsWithin texts ⟨w, cancelled, source⟩) :
    (loadAll w cancelled (some cache) sources).1.map LoadedUnit.uncached =
      sources.map fun source => LoadRequest.alone ⟨w, cancelled, source⟩ := by
  -- each load leaves a cache that can be reached, from which the others start
  induction sources generalizing cache loadings with
  | nil => rfl
  | cons source sources ih =>
    obtain ⟨hsource, hrest⟩ := List.forall_mem_cons.1 hsources
    cases source with
    | none =>
      simp only [loadAll, List.map_cons, ih h hrest]
      rfl
    | some s =>
      have hunit := h.uncached_load (s := s) hdigest hsource rfl
      obtain ⟨unit, cache', hload, hreached⟩ := h.load (s := s) hsource rfl
      rw [hload] at hunit
      simp only [loadAll, hload, List.map_cons, ih hreached hrest, hunit]

end Steps

/-! ## The cache is transparent -/

/-- What loads with the cache give is what they give without one. -/
structure ProgramCache.Transparent (texts : Bytes → Prop) (cache : ProgramCache)
    (loadings : List Loading) : Prop where
  /-- The entry under the digest of a text is the program of that text. -/
  entry : ∀ text p, texts text → cache.get? (Digest.ofBytes text) = some p →
    Program.ofBytes? text = .ok p
  /-- A text that is no program has no entry. -/
  noEntry : ∀ text e, texts text → Program.ofBytes? text = .error e →
    cache.get? (Digest.ofBytes text) = none
  /-- A source that is loaded now gives the unit that it gives without a cache, up to the mark. The
  unit has a program or a failure, and not both. -/
  load : ∀ (w : World) (cancelled : Bool) (s : Source),
    LoadRequest.ReadsWithin texts ⟨w, cancelled, some s⟩ →
      (s.load w cancelled (some cache)).1.uncached = (s.load w cancelled none).1 ∧
      (s.load w cancelled (some cache)).1.program.isSome =
        (s.load w cancelled (some cache)).1.failure.isNone
  /-- So does every load that is over, whatever was going on beside it. -/
  loaded : ∀ l ∈ loadings, ∀ unit, l.stage = .done unit → unit.uncached = l.request.alone ∧
    (l.request.source ≠ none → unit.program.isSome = unit.failure.isNone)
  /-- A list of sources that is loaded now gives one unit for each, in order, and each as if it were
  loaded alone. -/
  loadAll : ∀ (w : World) (cancelled : Bool) (sources : List (Option Source)),
    (∀ source ∈ sources, LoadRequest.ReadsWithin texts ⟨w, cancelled, source⟩) →
      (loadAll w cancelled (some cache) sources).1.map LoadedUnit.uncached =
        sources.map fun source => LoadRequest.alone ⟨w, cancelled, source⟩
  /-- So does a list of sources whose loads went on beside each other, and beside others. -/
  loadedAll : ∀ (batch : List Loading) (units : List LoadedUnit), batch.Sublist loadings →
    batch.map Loading.stage = units.map LoadStage.done →
      units.map LoadedUnit.uncached = batch.map fun l => l.request.alone

/-- Loads that are all over have got what their calls get without a cache, in their order. -/
theorem map_uncached_of_loaded {batch : List Loading} {units : List LoadedUnit}
    (hsound : ∀ l ∈ batch, l.request.Sound l.stage)
    (hdone : batch.map Loading.stage = units.map LoadStage.done) :
    units.map LoadedUnit.uncached = batch.map fun l => l.request.alone := by
  induction batch generalizing units with
  | nil =>
    cases units with
    | nil => rfl
    | cons unit units => cases hdone
  | cons l batch ih =>
    cases units with
    | nil => cases hdone
    | cons unit units =>
      obtain ⟨hl, hbatch⟩ := List.forall_mem_cons.1 hsound
      obtain ⟨hstage, hrest⟩ := List.cons.inj hdone
      rw [hstage] at hl
      cases hl with
      | done hunit => rw [List.map_cons, List.map_cons, hunit, ih hbatch hrest]

/-- When digests tell the texts apart, every cache that calls can lead to, in whatever order the steps
of their loads come, is transparent. -/
theorem ProgramCache.transparent_of_reached {texts : Bytes → Prop} (hdigest : DigestsDiffer texts)
    {bound : Int} {cache : ProgramCache} {loadings : List Loading}
    (h : Reached texts bound cache loadings) : cache.Transparent texts loadings := by
  obtain ⟨hcache, hall⟩ := h.sound hdigest
  -- taking the mark away leaves the program and the failure as they are
  have hone : ∀ {r : LoadRequest} {s : Source} {unit : LoadedUnit}, r.source = some s →
      unit.uncached = r.alone → unit.program.isSome = unit.failure.isNone := by
    intro r s unit hs hunit
    have halone := LoadRequest.isSome_program_alone hs
    rwa [← hunit] at halone
  constructor
  case entry =>
    intro text p htext hget
    exact hcache.ofBytes?_of_get? hdigest htext hget
  case noEntry =>
    intro text e htext he
    cases hget : cache.get? (Digest.ofBytes text) with
    | none => rfl
    | some p =>
      rw [hcache.ofBytes?_of_get? hdigest htext hget] at he
      cases he
  case load =>
    intro w cancelled s hr
    have hunit := h.uncached_load (s := s) hdigest hr rfl
    exact ⟨hunit, hone (s := s) rfl hunit⟩
  case loaded =>
    intro l hl unit hstage
    obtain ⟨-, hsound⟩ := hall l hl
    rw [hstage] at hsound
    cases hsound with
    | done hunit =>
      refine ⟨hunit, ?_⟩
      intro hsource
      obtain ⟨s, hs⟩ := Option.ne_none_iff_exists'.1 hsource
      exact hone hs hunit
  case loadAll =>
    intro w cancelled sources hsources
    exact h.uncached_loadAll hdigest hsources
  case loadedAll =>
    intro batch units hbatch hdone
    exact map_uncached_of_loaded (fun l hl => (hall l (hbatch.subset hl)).2) hdone

/-- A program and a text that is none, in two files. -/
def twoFiles : World where
  directory := "/"
  file := fun path =>
    if path = "a" then .ok (Text.encode "function f ( ) end") else .ok (Text.encode "end")
  repository := fun _ => none

/-- The texts of the two files. -/
def twoTexts (text : Bytes) : Prop :=
  text = Text.encode "function f ( ) end" ∨ text = Text.encode "end"

/-- Whatever file is asked for, its text is one of the two. -/
theorem readsWithin_twoTexts (file : FileSource) :
    LoadRequest.ReadsWithin twoTexts ⟨twoFiles, false, some (.file file)⟩ := by
  rintro _ text ⟨rfl⟩ hread
  by_cases ha : file.path = "a"
  · simp only [Source.read, twoFiles, if_pos ha, Bool.false_eq_true, if_false] at hread
    cases hread
    exact .inl rfl
  · simp only [Source.read, twoFiles, if_neg ha, Bool.false_eq_true, if_false] at hread
    cases hread
    exact .inr rfl

/-- With room for one program, the program is found again after the other file was refused, and all
units are those of a loader without a cache. -/
theorem ProgramCache.transparent_twoFiles :
    DigestsDiffer twoTexts ∧ ∃ unit cache,
      Reached twoTexts 1 cache [⟨⟨twoFiles, false, some (.file ⟨"", "a"⟩)⟩, .done unit⟩] ∧
      (loadAll twoFiles false (some cache) [some (.file ⟨"", "b"⟩),
        some (.file ⟨"", "a"⟩)]).1.map LoadedUnit.cached = [false, true] ∧
      (loadAll twoFiles false (some cache) [some (.file ⟨"", "b"⟩),
        some (.file ⟨"", "a"⟩)]).1.map LoadedUnit.uncached =
          [LoadRequest.alone ⟨twoFiles, false, some (.file ⟨"", "b"⟩)⟩,
            LoadRequest.alone ⟨twoFiles, false, some (.file ⟨"", "a"⟩)⟩] := by
  have hdigest : DigestsDiffer twoTexts := by
    apply DigestsDiffer.of_nodup [Text.encode "function f ( ) end", Text.encode "end"]
    · rintro t (rfl | rfl) <;> simp
    · decide +kernel
  have hmarks : (loadAll twoFiles false (some (.make 1)) [some (.file ⟨"", "a"⟩),
      some (.file ⟨"", "b"⟩), some (.file ⟨"", "a"⟩)]).1.map LoadedUnit.cached =
        [false, false, true] := by decide +kernel
  obtain ⟨unit, cache, hload, hreached⟩ :=
    Reached.load (s := .file ⟨"", "a"⟩) Reached.start (readsWithin_twoTexts ⟨"", "a"⟩) rfl
  refine ⟨hdigest, unit, cache, hreached, ?_, ?_⟩
  · simp only [loadAll, hload, List.map_cons, List.cons.injEq] at hmarks ⊢
    exact hmarks.2
  · refine (ProgramCache.transparent_of_reached hdigest hreached).loadAll twoFiles false _ ?_
    intro source hsource
    rcases List.mem_cons.1 hsource with rfl | hsource
    · exact readsWithin_twoTexts ⟨"", "b"⟩
    · rw [List.mem_singleton.1 hsource]
      exact readsWithin_twoTexts ⟨"", "a"⟩

end MiniLua

import Mathlib.Data.Finset.Card
import MiniLua.Proofs.Loading

/-!
# What a cache remembers

A cache keeps what was used last. To use a text is to touch it: to add a program under it, or to look it
up and find it. Whether a look-up touches its text depends on the cache at that time, and so on all
calls before it; but the keys of the cache are always the last touched texts, each of them once, up to
the bound. A text is therefore found exactly when it was added at some time and fewer other texts than
the bound have been touched since it was touched last.

The order of the keys does not rest on the digests. That they tell the texts apart is needed only to go
from digests back to texts.

## Delivered

- `ProgramCache.after`, `ProgramCache.touches`: calls one after the other, and what they touch.
- `Cache.keys_add`, `ProgramCache.call_cases`: what an addition and a call do.
- `ProgramCache.keys_after`, `ProgramCache.all_isLatest`: the keys and the programs after all calls.
- `ProgramCache.remembers`: what is found, what it is, and how many entries there are.
-/

set_option autoImplicit false

namespace MiniLua

/-! ## Distinct elements in order -/

section Distinct

variable {α β : Type} [DecidableEq α] [DecidableEq β]

theorem nodup_eraseDups : (l : List α) → l.eraseDups.Nodup
  | [] => by simp
  | a :: l => by
    rw [List.eraseDups_cons, List.nodup_cons]
    refine ⟨?_, nodup_eraseDups (l.filter fun b => !b == a)⟩
    simp [List.mem_eraseDups]
termination_by l => l.length
decreasing_by exact Nat.lt_succ_of_le (List.length_filter_le _ _)

/-- Leaving out repetitions and leaving out the elements outside a class commute. -/
theorem eraseDups_filter (p : α → Bool) : (l : List α) → (l.filter p).eraseDups = l.eraseDups.filter p
  | [] => rfl
  | a :: l => by
    have hrest := eraseDups_filter p (l.filter fun b => !b == a)
    rw [List.filter_filter] at hrest
    rw [List.eraseDups_cons]
    by_cases ha : p a = true
    · rw [List.filter_cons_of_pos ha, List.filter_cons_of_pos ha, List.eraseDups_cons, ← hrest,
        List.filter_filter]
      simp only [Bool.and_comm]
    · -- the elements equal to the first one are outside the class too
      rw [List.filter_cons_of_neg ha, List.filter_cons_of_neg ha, ← hrest]
      congr 1
      apply List.filter_congr
      intro b _
      by_cases hb : b = a
      · simp [hb, ha]
      · simp [hb]
termination_by l => l.length
decreasing_by exact Nat.lt_succ_of_le (List.length_filter_le _ _)

/-- The number of distinct elements. -/
theorem length_eraseDups (l : List α) : l.eraseDups.length = l.toFinset.card := by
  rw [← List.toFinset_card_of_nodup (nodup_eraseDups l)]
  congr 1
  ext a
  simp [List.mem_eraseDups]

/-- With one element in front, a list that is cut and cleared of that element agrees with the list that
is cleared first: at most one of the elements that were kept is cleared. -/
theorem take_cons_filter_take {l : List α} (hl : l.Nodup) (a : α) (n : Nat) :
    (a :: (l.take n).filter fun b => b ≠ a).take n = (a :: l.filter fun b => b ≠ a).take n := by
  cases n with
  | zero => rfl
  | succ n =>
    rw [List.take_succ_cons, List.take_succ_cons]
    congr 1
    induction l generalizing n with
    | nil => rfl
    | cons b l ih =>
      rw [List.nodup_cons] at hl
      rw [List.take_succ_cons]
      by_cases hb : b = a
      · -- no further element is cleared
        subst hb
        have hkeep : ∀ {l' : List α}, l' ⊆ l → (l'.filter fun c => c ≠ b) = l' := by
          intro l' hsub
          rw [List.filter_eq_self]
          intro c hc
          simp only [ne_eq, decide_not, Bool.not_eq_eq_eq_not, Bool.not_true, decide_eq_false_iff_not]
          rintro rfl
          exact hl.1 (hsub hc)
        rw [List.filter_cons_of_neg (by simp), List.filter_cons_of_neg (by simp),
          hkeep (List.take_subset n l), hkeep (List.Subset.refl l), List.take_take, Nat.min_self]
      · rw [List.filter_cons_of_pos (by simpa using hb), List.filter_cons_of_pos (by simpa using hb)]
        cases n with
        | zero => rfl
        | succ n => rw [List.take_succ_cons, List.take_succ_cons, ih hl.2]

/-- An element is among the first distinct ones when fewer others come before it. -/
theorem mem_take_eraseDups_iff {l : List α} {a : α} {n : Nat} :
    a ∈ l.eraseDups.take n ↔ a ∈ l ∧ (l.takeWhile fun b => b ≠ a).toFinset.card < n := by
  by_cases ha : a ∈ l
  · -- what stands before the first occurrence decides
    obtain ⟨before, behind, rfl, hbefore⟩ := List.eq_append_cons_of_mem ha
    have hwhile : ((before ++ a :: behind).takeWhile fun b => b ≠ a) = before := by
      rw [List.takeWhile_append_of_pos, List.takeWhile_cons_of_neg (by simp), List.append_nil]
      intro b hb
      simpa using fun h : b = a => hbefore (h ▸ hb)
    have herase : ∃ rest, (before ++ a :: behind).eraseDups = before.eraseDups ++ a :: rest := by
      rw [List.eraseDups_append, List.removeAll, List.filter_cons_of_pos (by simpa using hbefore),
        List.eraseDups_cons]
      exact ⟨_, rfl⟩
    obtain ⟨rest, hrest⟩ := herase
    have hnot : a ∉ before.eraseDups.take n := fun h =>
      hbefore (List.mem_eraseDups.1 (List.mem_of_mem_take h))
    rw [hwhile, hrest, List.take_append, List.mem_append, ← length_eraseDups]
    constructor
    · rintro (h | h)
      · exact absurd h hnot
      · refine ⟨ha, Nat.lt_of_sub_ne_zero ?_⟩
        intro hzero
        rw [hzero] at h
        cases h
    · rintro ⟨-, hlt⟩
      obtain ⟨m, hm⟩ := Nat.exists_eq_add_of_lt hlt
      have hroom : n - before.eraseDups.length = m + 1 := by omega
      rw [hroom, List.take_succ_cons]
      exact .inr List.mem_cons_self
  · constructor
    · intro h
      exact absurd (List.mem_eraseDups.1 (List.mem_of_mem_take h)) ha
    · intro h
      exact absurd h.1 ha

/-- A map that tells the elements apart keeps their number. -/
theorem card_toFinset_map {f : α → β} {l : List α} (hf : ∀ a ∈ l, ∀ b ∈ l, f a = f b → a = b) :
    (l.map f).toFinset.card = l.toFinset.card := by
  have himage : (l.map f).toFinset = l.toFinset.image f := by
    ext b
    simp
  rw [himage]
  apply Finset.card_image_of_injOn
  intro a ha b hb h
  exact hf a (by simpa using ha) b (by simpa using hb) h

/-- Such a map keeps what comes before the first occurrence of an element. -/
theorem takeWhile_map_ne {f : α → β} {l : List α} {a : α} (hf : ∀ b ∈ l, f b = f a → b = a) :
    ((l.map f).takeWhile fun b => b ≠ f a) = (l.takeWhile fun b => b ≠ a).map f := by
  induction l with
  | nil => rfl
  | cons b l ih =>
    obtain ⟨hb, hl⟩ := List.forall_mem_cons.1 hf
    by_cases h : b = a
    · simp [h]
    · have hne : f b ≠ f a := fun hsame => h (hb hsame)
      rw [List.map_cons, List.takeWhile_cons_of_pos (by simpa using hne), ih hl,
        List.takeWhile_cons_of_pos (by simpa using h), List.map_cons]

end Distinct

/-! ## Keys -/

namespace Cache

variable {κ α : Type} [DecidableEq κ]

/-- The keys of the entries, the last used first. -/
def keys (c : Cache κ α) : List κ :=
  c.entries.map Prod.fst

theorem keys_add (c : Cache κ α) (key : κ) (value : α) :
    (c.add key value).keys = (key :: c.keys.filter fun k => k ≠ key).take c.capacity := by
  simp only [keys, add, List.map_take, List.map_cons, List.filter_map]
  rfl

/-- A key has a value when it is among the keys. -/
theorem isSome_get?_iff {c : Cache κ α} {key : κ} : (c.get? key).isSome = true ↔ key ∈ c.keys := by
  simp [get?, keys, List.find?_isSome]

theorem mem_add {c : Cache κ α} {key : κ} {value : α} {entry : κ × α}
    (h : entry ∈ (c.add key value).entries) :
    entry = (key, value) ∨ entry ∈ c.entries ∧ entry.1 ≠ key := by
  rcases List.mem_cons.1 (List.mem_of_mem_take h) with h | h
  · exact .inl h
  · obtain ⟨hmem, hne⟩ := List.mem_filter.1 h
    exact .inr ⟨hmem, by simpa using hne⟩

end Cache

/-! ## Calls -/

/-- The text that a call is about. -/
def CacheCall.text : CacheCall → Bytes
  | .add text _ => text
  | .get text => text

namespace ProgramCache

/-- The cache after calls on a new one with the given bound. The last call comes first. -/
def after (bound : Int) : List CacheCall → ProgramCache
  | [] => make bound
  | call :: past => ((after bound past).call call).2

/-- The text that a call touches: the text of an addition of a program, or of a look-up that finds. -/
def touched? (c : ProgramCache) : CacheCall → Option Bytes
  | .add _ none => none
  | .add text (some _) => some text
  | .get text => if (c.call (.get text)).1.isSome then some text else none

/-- The texts that calls touch. The last touched text comes first. -/
def touches (bound : Int) : List CacheCall → List Bytes
  | [] => []
  | call :: past => ((after bound past).touched? call).toList ++ touches bound past

/-- The texts under which programs are added. The last comes first. -/
def added : List CacheCall → List Bytes
  | [] => []
  | .add text (some _) :: past => text :: added past
  | _ :: past => added past

/-- The program is the one that was added last under the text. -/
def IsLatest (past : List CacheCall) (text : Bytes) (program : Program) : Prop :=
  ∃ later earlier, past = later ++ .add text (some program) :: earlier ∧
    ∀ other, .add text (some other) ∉ later

variable {c : ProgramCache} {text : Bytes} {bound : Int} {past : List CacheCall}

theorem call_get_of_none (h : c.get? (Digest.ofBytes text) = none) :
    c.call (.get text) = (none, c) := by
  simp [call, find?, Cache.find?, h]

theorem call_get_of_some {program : Program} (h : c.get? (Digest.ofBytes text) = some program) :
    c.call (.get text) = (some program, c.add text program) := by
  simp [call, find?, Cache.find?, h, add]

/-- A look-up gives the program under the digest of its text. -/
theorem call_get_fst (c : ProgramCache) (text : Bytes) :
    (c.call (.get text)).1 = c.get? (Digest.ofBytes text) := by
  cases hget : c.get? (Digest.ofBytes text) with
  | none => rw [call_get_of_none hget]
  | some program => rw [call_get_of_some hget]

/-- What a call does: it leaves the cache as it is, or it puts an entry under the text that it touches,
with the program that is added or found. -/
theorem call_cases (c : ProgramCache) (call : CacheCall) :
    (c.touched? call = none ∧ (c.call call).2 = c) ∨
    ∃ program, c.touched? call = some call.text ∧
      (c.call call).2 = c.add call.text program ∧
      (call = .add call.text (some program) ∨
        call = .get call.text ∧ c.get? (Digest.ofBytes call.text) = some program) := by
  cases call with
  | add text program =>
    cases program with
    | none => exact .inl ⟨rfl, rfl⟩
    | some program => exact .inr ⟨program, rfl, rfl, .inl rfl⟩
  | get text =>
    cases hget : c.get? (Digest.ofBytes text) with
    | none =>
      have hmiss := call_get_of_none hget
      exact .inl ⟨by simp [touched?, hmiss], by rw [hmiss]⟩
    | some program =>
      have hhit := call_get_of_some hget
      exact .inr ⟨program, by simp [touched?, hhit, CacheCall.text], by rw [hhit]; rfl,
        .inr ⟨rfl, hget⟩⟩

theorem capacity_call (c : ProgramCache) (call : CacheCall) :
    (c.call call).2.capacity = c.capacity := by
  rcases c.call_cases call with ⟨-, h⟩ | ⟨program, -, h, -⟩
  · rw [h]
  · rw [h]
    rfl

theorem capacity_after (bound : Int) (past : List CacheCall) :
    (after bound past).capacity = if 0 < bound then bound.toNat else 128 := by
  induction past with
  | nil => rfl
  | cons call past ih => rw [after, capacity_call, ih]

/-- The keys are the digests of the texts that were touched last, each of them once, up to the bound. -/
theorem keys_after (bound : Int) (past : List CacheCall) :
    (after bound past).keys =
      ((touches bound past).map Digest.ofBytes).eraseDups.take (after bound past).capacity := by
  induction past with
  | nil => simp [after, touches, make, Cache.keys]
  | cons call past ih =>
    rw [after, capacity_call, touches]
    rcases (after bound past).call_cases call with ⟨htouched, h⟩ | ⟨program, htouched, h, -⟩
    · rw [htouched, h, ih]
      rfl
    · rw [htouched, h, add, Cache.keys_add, ih, take_cons_filter_take (nodup_eraseDups _),
        Option.toList_some, List.singleton_append, List.map_cons, List.eraseDups_cons,
        eraseDups_filter]
      congr 2
      apply List.filter_congr
      intro key _
      by_cases hkey : key = Digest.ofBytes call.text <;> simp [hkey]

/-! ## Texts instead of digests -/

section Texts

variable {texts : Bytes → Prop}

/-- Every call is about one of the texts. -/
def Within (texts : Bytes → Prop) (past : List CacheCall) : Prop :=
  ∀ call ∈ past, texts call.text

/-- What is touched is one of the texts. -/
theorem Within.of_mem_touches (h : Within texts past) (hmem : text ∈ touches bound past) :
    texts text := by
  induction past with
  | nil => cases hmem
  | cons call past ih =>
    obtain ⟨hcall, hpast⟩ := List.forall_mem_cons.1 h
    rw [touches] at hmem
    rcases (after bound past).call_cases call with ⟨htouched, -⟩ | ⟨program, htouched, -⟩
    · rw [htouched] at hmem
      exact ih hpast hmem
    · rw [htouched] at hmem
      rcases List.mem_cons.1 hmem with rfl | hmem
      · exact hcall
      · exact ih hpast hmem

/-- Where digests tell the texts apart, a look-up finds the texts that were touched at some time, when
fewer others than the bound have been touched since. -/
theorem isSome_call_get_iff (hdigest : DigestsDiffer texts) (hpast : Within texts past)
    (htext : texts text) :
    ((after bound past).call (.get text)).1.isSome = true ↔ text ∈ touches bound past ∧
      ((touches bound past).takeWhile fun t => t ≠ text).toFinset.card <
        (after bound past).capacity := by
  have hsame : ∀ t ∈ touches bound past, Digest.ofBytes t = Digest.ofBytes text → t = text := by
    intro t ht
    exact hdigest t text (hpast.of_mem_touches ht) htext
  have hmem : Digest.ofBytes text ∈ (touches bound past).map Digest.ofBytes ↔
      text ∈ touches bound past := by
    constructor
    · intro h
      obtain ⟨t, ht, heq⟩ := List.mem_map.1 h
      exact hsame t ht heq ▸ ht
    · exact List.mem_map_of_mem
  rw [call_get_fst, Cache.isSome_get?_iff, keys_after, mem_take_eraseDups_iff, hmem,
    takeWhile_map_ne hsame, card_toFinset_map]
  intro t ht u hu
  have ht' := (List.takeWhile_sublist _).subset ht
  have hu' := (List.takeWhile_sublist _).subset hu
  exact hdigest t u (hpast.of_mem_touches ht') (hpast.of_mem_touches hu')

/-- What is touched was added at some time. -/
theorem mem_touches_iff (hdigest : DigestsDiffer texts) (hpast : Within texts past) :
    text ∈ touches bound past ↔ text ∈ added past := by
  induction past with
  | nil => rfl
  | cons call past ih =>
    obtain ⟨hcall, hrest⟩ := List.forall_mem_cons.1 hpast
    specialize ih hrest
    rw [touches]
    cases call with
    | add t program =>
      cases program with
      | none => exact ih
      | some program =>
        change text ∈ t :: touches bound past ↔ text ∈ t :: added past
        rw [List.mem_cons, List.mem_cons, ih]
    | get t =>
      change _ ↔ text ∈ added past
      rw [← ih, touched?]
      split
      · -- a text that is found was touched before
        rename_i hfound
        have ht := ((isSome_call_get_iff hdigest hrest hcall).1 hfound).1
        rw [Option.toList_some, List.singleton_append, List.mem_cons]
        constructor
        · rintro (rfl | h)
          · exact ht
          · exact h
        · exact .inr
      · rfl

/-- The number of entries is the number of texts that were added, up to the bound. -/
theorem size_after (hdigest : DigestsDiffer texts) (hpast : Within texts past) :
    (after bound past).size = min (after bound past).capacity (added past).toFinset.card := by
  have hlength : (after bound past).size = (after bound past).keys.length := by
    simp [Cache.size, Cache.keys]
  have hsame : (touches bound past).toFinset = (added past).toFinset := by
    ext t
    rw [List.mem_toFinset, List.mem_toFinset, mem_touches_iff hdigest hpast]
  rw [hlength, keys_after, List.length_take, length_eraseDups, card_toFinset_map, hsame]
  intro t ht u hu
  exact hdigest t u (hpast.of_mem_touches ht) (hpast.of_mem_touches hu)

/-! ## Programs -/

/-- A call that adds nothing under the text leaves the last addition as it is. -/
theorem IsLatest.cons {program : Program} (h : IsLatest past text program) {call : CacheCall}
    (hcall : ∀ other, call ≠ .add text (some other)) : IsLatest (call :: past) text program := by
  obtain ⟨later, earlier, rfl, hlater⟩ := h
  refine ⟨call :: later, earlier, rfl, ?_⟩
  intro other hmem
  rcases List.mem_cons.1 hmem with heq | hmem
  · exact hcall other heq.symm
  · exact hlater other hmem

/-- Every entry is the program that was added last under a text, by the digest of that text. -/
theorem all_isLatest (hpast : Within texts past) :
    (after bound past).All fun key program =>
      ∃ text, texts text ∧ key = Digest.ofBytes text ∧ IsLatest past text program := by
  induction past with
  | nil =>
    intro entry hmem
    cases hmem
  | cons call past ih =>
    obtain ⟨hcall, hrest⟩ := List.forall_mem_cons.1 hpast
    specialize ih hrest
    rw [after]
    rcases (after bound past).call_cases call with ⟨htouched, h⟩ | ⟨program, -, h, hcase⟩
    · rw [h]
      intro entry hmem
      obtain ⟨text, htext, hkey, hlatest⟩ := ih entry hmem
      refine ⟨text, htext, hkey, hlatest.cons ?_⟩
      rintro other rfl
      cases htouched
    · rw [h]
      intro entry hmem
      rcases Cache.mem_add hmem with rfl | ⟨hmem, hne⟩
      · rcases hcase with hadd | ⟨hget, hfound⟩
        · exact ⟨call.text, hcall, rfl, [], past, by rw [← hadd]; rfl, by simp⟩
        · -- the program that is found was there before
          obtain ⟨text, htext, hkey, hlatest⟩ := Cache.All.of_get? ih hfound
          refine ⟨text, htext, hkey, hlatest.cons ?_⟩
          rintro other rfl
          cases hget
      · -- an entry under another digest is that of another text
        obtain ⟨text, htext, hkey, hlatest⟩ := ih entry hmem
        refine ⟨text, htext, hkey, hlatest.cons ?_⟩
        rintro other rfl
        exact hne hkey

/-- What a look-up finds is the program that was added last under its text. -/
theorem isLatest_of_call_get (hdigest : DigestsDiffer texts) (hpast : Within texts past)
    (htext : texts text) {program : Program}
    (h : ((after bound past).call (.get text)).1 = some program) : IsLatest past text program := by
  rw [call_get_fst] at h
  obtain ⟨text', htext', hkey, hlatest⟩ := Cache.All.of_get? (all_isLatest hpast) h
  rw [hdigest text text' htext htext' hkey]
  exact hlatest

end Texts

/-! ## The memory of a cache -/

/-- What the cache after calls remembers of them. -/
structure Remembers (texts : Bytes → Prop) (bound : Int) (past : List CacheCall) : Prop where
  /-- The bound is the one asked for, or the default. -/
  capacity : (after bound past).capacity = if 0 < bound then bound.toNat else 128
  /-- A text is found exactly when it was added at some time, and fewer other texts than the bound have
  been touched since it was touched last. -/
  found : ∀ text, texts text → (((after bound past).call (.get text)).1.isSome = true ↔
    text ∈ added past ∧ ((touches bound past).takeWhile fun t => t ≠ text).toFinset.card <
      (after bound past).capacity)
  /-- What is found is the program that was added last under the text. -/
  program : ∀ text program, texts text →
    ((after bound past).call (.get text)).1 = some program → IsLatest past text program
  /-- There is an entry for each text that was added, up to the bound. -/
  size : (after bound past).size = min (after bound past).capacity (added past).toFinset.card
  /-- A look-up that finds nothing changes nothing. -/
  missed : ∀ text, ((after bound past).call (.get text)).1 = none →
    after bound (.get text :: past) = after bound past
  /-- Nor does an addition without a program. -/
  nothing : ∀ text, after bound (.add text none :: past) = after bound past

/-- Where digests tell the texts apart, a cache remembers the texts that were touched last, with the
programs that were added last. -/
theorem remembers {texts : Bytes → Prop} (hdigest : DigestsDiffer texts) (bound : Int)
    {past : List CacheCall} (hpast : Within texts past) : Remembers texts bound past := by
  constructor
  case capacity => exact capacity_after bound past
  case found =>
    intro text htext
    rw [isSome_call_get_iff hdigest hpast htext, mem_touches_iff hdigest hpast]
  case program =>
    intro text program htext h
    exact isLatest_of_call_get hdigest hpast htext h
  case size => exact size_after hdigest hpast
  case missed =>
    intro text h
    rw [call_get_fst] at h
    rw [after, call_get_of_none h]
  case nothing =>
    intro text
    rfl

/-- Three texts of one letter each. -/
def letters (text : Bytes) : Prop :=
  text ∈ [[0x61], [0x62], [0x63]]

/-- Programs are added under the first two letters, the first is looked up, and one is added under the
third. The last call comes first. -/
def fourCalls : List CacheCall :=
  let program : Program := { name := none, body := .seq [] }
  [.add [0x63] (some program), .get [0x61], .add [0x62] (some program), .add [0x61] (some program)]

theorem digestsDiffer_letters : DigestsDiffer letters :=
  .of_nodup [[0x61], [0x62], [0x63]] (fun _ ht => ht) (by decide +kernel)

/-- With room for two programs, the look-up saves the first letter, and the second is dropped. -/
theorem remembers_fourCalls : DigestsDiffer letters ∧ Within letters fourCalls ∧
    Remembers letters 2 fourCalls ∧
    ((after 2 fourCalls).call (.get [0x61])).1.isSome = true ∧
    ((after 2 fourCalls).call (.get [0x62])).1.isSome = false := by
  have hwithin : Within letters fourCalls := by
    intro call hcall
    simp only [fourCalls, List.mem_cons, List.not_mem_nil, or_false] at hcall
    rcases hcall with rfl | rfl | rfl | rfl <;> simp [letters, CacheCall.text]
  exact ⟨digestsDiffer_letters, hwithin, remembers digestsDiffer_letters 2 hwithin,
    by decide +kernel, by decide +kernel⟩

end ProgramCache
end MiniLua

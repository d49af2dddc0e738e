import MiniLua.Proofs.Division
import MiniLua.Proofs.Numeral
import MiniLua.Store

/-!
# What the variables hold

The variables are a map from letters to words, packed into slots. That no two letters share a slot,
and that no slot is without a letter, is the whole of it: the two maps between letters and slots are
inverse to each other, and the order of the slots is the order of the letters, lower case before
upper case.

What a letter holds is told by the calls before: the last value stored under it since the variables
were last cleared, or zero. A snapshot lists the letters that do not hold zero, with what they hold,
and no order is asked of it. Sorting its letters gives one list whatever order they come in, because
a sort gives the letters in ascending order and each letter has a place of its own in it. The line for
a snapshot spells that list out, each letter with an equals sign and its value in decimal.

## Delivered

- `Store.IsLetter`, `Store.Precedes`: letters and their order.
- `Store.slot?_letterOf`, `Store.slot?_eq_none_iff`, `Store.precedes_of_rank_lt`: letters and slots.
- `Store.mem_snapshot_iff`, `Store.lettersOf_eq`, `Store.snapshotText_eq`: snapshots in any order.
- `Store.entryText_eq`: how a letter and its value are spelled.
- `StoreCall`, `Store.call`, `Store.after`, `Store.lastStored`: calls one after the other.
- `Store.fetch_call`, `Store.fetch_after`: what a call and all calls leave in the variables.
- `Store.tracks`: what can be seen of the variables after all calls.
-/

set_option autoImplicit false

namespace MiniLua
namespace Store

variable {s s' : Store} {c : UInt8} {i : Fin 52}

/-! ## Letters -/

/-- A lower-case letter. -/
def IsLower (c : UInt8) : Prop :=
  'a'.toNat ≤ c.toNat ∧ c.toNat ≤ 'z'.toNat

/-- An upper-case letter. -/
def IsUpper (c : UInt8) : Prop :=
  'A'.toNat ≤ c.toNat ∧ c.toNat ≤ 'Z'.toNat

def IsLetter (c : UInt8) : Prop :=
  IsLower c ∨ IsUpper c

instance (c : UInt8) : Decidable (IsLetter c) :=
  inferInstanceAs (Decidable ((_ ∧ _) ∨ (_ ∧ _)))

/-- Lower case comes before upper case, and within a case the order is that of the alphabet. -/
def Precedes (a b : UInt8) : Prop :=
  IsLower a ∧ IsUpper b ∨ (IsLower a ∧ IsLower b ∨ IsUpper a ∧ IsUpper b) ∧ a.toNat < b.toNat

theorem rank_of_isLower (h : IsLower c) : rank c = c.toNat - 96 := by
  have hrange : 97 ≤ c.toNat ∧ c.toNat ≤ 122 := h
  rw [rank, slot?, dif_pos hrange]
  dsimp only
  omega

theorem rank_of_isUpper (h : IsUpper c) : rank c = c.toNat - 38 := by
  have hrange : 65 ≤ c.toNat ∧ c.toNat ≤ 90 := h
  rw [rank, slot?, dif_neg (by omega), dif_pos hrange]
  dsimp only
  omega

/-- The bytes without a slot are those that are no letters. -/
theorem slot?_eq_none_iff : slot? c = none ↔ ¬ IsLetter c := by
  constructor
  · rintro h (hlower | hupper)
    · have hrange : 97 ≤ c.toNat ∧ c.toNat ≤ 122 := hlower
      rw [slot?, dif_pos hrange] at h
      cases h
    · have hrange : 65 ≤ c.toNat ∧ c.toNat ≤ 90 := hupper
      rw [slot?, dif_neg (by omega), dif_pos hrange] at h
      cases h
  · intro h
    have hlower : ¬ (97 ≤ c.toNat ∧ c.toNat ≤ 122) := fun hlower => h (.inl hlower)
    have hupper : ¬ (65 ≤ c.toNat ∧ c.toNat ≤ 90) := fun hupper => h (.inr hupper)
    rw [slot?, dif_neg hlower, dif_neg hupper]

theorem exists_slot?_of_isLetter (h : IsLetter c) : ∃ i, slot? c = some i := by
  cases hslot : slot? c with
  | none => exact absurd h (slot?_eq_none_iff.1 hslot)
  | some i => exact ⟨i, rfl⟩

/-- Every slot has a letter. -/
theorem slot?_letterOf (i : Fin 52) : slot? (letterOf i) = some i := by
  by_cases hlow : i.val < 26
  · have hcode : (letterOf i).toNat = 97 + i.val := by
      rw [letterOf, if_pos hlow, Nat.toUInt8_eq, UInt8.toNat_ofNat']
      omega
    rw [slot?, dif_pos (by omega), Option.some.injEq, Fin.ext_iff]
    dsimp only
    omega
  · have hcode : (letterOf i).toNat = 65 + (i.val - 26) := by
      rw [letterOf, if_neg hlow, Nat.toUInt8_eq, UInt8.toNat_ofNat']
      omega
    rw [slot?, dif_neg (by omega), dif_pos (by omega), Option.some.injEq, Fin.ext_iff]
    dsimp only
    omega

theorem rank_letterOf (i : Fin 52) : rank (letterOf i) = i.val + 1 := by
  rw [rank, slot?_letterOf]

/-- No two letters share a slot. -/
theorem eq_of_rank_eq {a b : UInt8} (ha : IsLetter a) (hb : IsLetter b) (h : rank a = rank b) :
    a = b := by
  obtain ⟨i, hi⟩ := exists_slot?_of_isLetter ha
  obtain ⟨j, hj⟩ := exists_slot?_of_isLetter hb
  have hij : i = j := by
    rw [← letterOf_of_slot? hi, ← letterOf_of_slot? hj, rank_letterOf, rank_letterOf] at h
    exact Fin.ext (Nat.succ.inj h)
  rw [← letterOf_of_slot? hi, ← letterOf_of_slot? hj, hij]

/-- The order of the slots is the order of the letters. -/
theorem precedes_of_rank_lt {a b : UInt8} (ha : IsLetter a) (hb : IsLetter b)
    (h : rank a < rank b) : Precedes a b := by
  rcases ha with ha | ha
  · rcases hb with hb | hb
    · rw [rank_of_isLower ha, rank_of_isLower hb] at h
      exact .inr ⟨.inl ⟨ha, hb⟩, by omega⟩
    · exact .inl ⟨ha, hb⟩
  · have hrange : 65 ≤ a.toNat ∧ a.toNat ≤ 90 := ha
    rcases hb with hb | hb
    · -- an upper-case letter has a slot behind all lower-case ones
      have hrange' : 97 ≤ b.toNat ∧ b.toNat ≤ 122 := hb
      rw [rank_of_isUpper ha, rank_of_isLower hb] at h
      omega
    · rw [rank_of_isUpper ha, rank_of_isUpper hb] at h
      exact .inr ⟨.inr ⟨ha, hb⟩, by omega⟩

/-! ## Reading and writing -/

theorem fetch_of_not_isLetter (s : Store) (h : ¬ IsLetter c) : s.fetch c = .error (noSlot c) := by
  rw [fetch, slot?_eq_none_iff.2 h]

theorem assign_of_not_isLetter (s : Store) (h : ¬ IsLetter c) (value : Int32) :
    s.assign c value = .error (noSlot c) := by
  rw [assign, slot?_eq_none_iff.2 h]

theorem isLetter_of_fetch {value : Int32} (h : s.fetch c = .ok value) : IsLetter c := by
  by_cases hc : IsLetter c
  · exact hc
  · rw [fetch_of_not_isLetter s hc] at h
    cases h

theorem exists_fetch (s : Store) (h : IsLetter c) : ∃ value, s.fetch c = .ok value := by
  obtain ⟨i, hi⟩ := exists_slot?_of_isLetter h
  exact ⟨s.slots.get i, by rw [fetch, hi]⟩

theorem fetch_letterOf (s : Store) (i : Fin 52) : s.fetch (letterOf i) = .ok (s.slots.get i) := by
  rw [fetch, slot?_letterOf]

/-- A letter is written, and no other letter is touched. -/
theorem exists_assign (s : Store) (h : IsLetter c) (value : Int32) :
    ∃ s', s.assign c value = .ok s' ∧
      ∀ d, s'.fetch d = if d = c then .ok value else s.fetch d := by
  rcases assign_cases c value with ⟨cause, hrefused⟩ | hwritten
  · obtain ⟨i, hi⟩ := exists_slot?_of_isLetter h
    have hrefused' := hrefused s
    rw [assign, hi] at hrefused'
    cases hrefused'
  · exact hwritten s

/-- Clearing leaves zero in every letter. -/
theorem fetch_reset (s : Store) (h : IsLetter c) : s.reset.fetch c = .ok 0 := by
  obtain ⟨i, hi⟩ := exists_slot?_of_isLetter h
  rw [fetch, hi]
  exact congrArg Except.ok (Vector.getElem_replicate i.isLt)

/-! ## Snapshots -/

/-- The entry of a slot in a snapshot. -/
theorem entry_eq_some_iff {entry : UInt8 × Int32} :
    (if s.slots.get i = 0 then none else some (letterOf i, s.slots.get i)) = some entry ↔
      entry = (letterOf i, s.slots.get i) ∧ s.slots.get i ≠ 0 := by
  by_cases hzero : s.slots.get i = 0
  · simp [hzero]
  · simp [hzero, eq_comm]

/-- A snapshot holds the letters that do not hold zero, with what they hold. -/
theorem mem_snapshot_iff {value : Int32} :
    (c, value) ∈ s.snapshot ↔ s.fetch c = .ok value ∧ value ≠ 0 := by
  simp only [snapshot, List.mem_filterMap, entry_eq_some_iff]
  constructor
  · rintro ⟨i, -, hentry, hvalue⟩
    cases hentry
    exact ⟨s.fetch_letterOf i, hvalue⟩
  · rintro ⟨hfetch, hvalue⟩
    obtain ⟨i, hi⟩ := exists_slot?_of_isLetter (isLetter_of_fetch hfetch)
    rw [← letterOf_of_slot? hi, fetch_letterOf] at hfetch
    cases hfetch
    exact ⟨i, List.mem_finRange i, by rw [letterOf_of_slot? hi], hvalue⟩

/-- The letters of a snapshot stand in the order of their slots. -/
theorem pairwise_snapshot (s : Store) :
    (s.snapshot.map Prod.fst).Pairwise fun a b => rank a < rank b := by
  simp only [snapshot, List.pairwise_map, List.pairwise_filterMap, entry_eq_some_iff]
  apply (List.pairwise_lt_finRange 52).imp
  rintro i j hij entry ⟨rfl, -⟩ entry' ⟨rfl, -⟩
  rw [rank_letterOf, rank_letterOf]
  exact Nat.succ_lt_succ hij

theorem mem_map_fst_snapshot_iff :
    c ∈ s.snapshot.map Prod.fst ↔ ∃ value, s.fetch c = .ok value ∧ value ≠ 0 := by
  simp [mem_snapshot_iff]

theorem isLetter_of_mem_map_fst_snapshot (h : c ∈ s.snapshot.map Prod.fst) : IsLetter c := by
  obtain ⟨value, hvalue, -⟩ := mem_map_fst_snapshot_iff.1 h
  exact isLetter_of_fetch hvalue

/-- Stores with the same snapshot hold the same. -/
theorem fetch_eq_of_snapshot (h : ∀ entry, entry ∈ s'.snapshot ↔ entry ∈ s.snapshot) (c : UInt8) :
    s'.fetch c = s.fetch c := by
  by_cases hc : IsLetter c
  · obtain ⟨value, hvalue⟩ := s.exists_fetch hc
    obtain ⟨value', hvalue'⟩ := s'.exists_fetch hc
    by_cases hzero : value = 0
    · by_cases hzero' : value' = 0
      · rw [hvalue, hvalue', hzero, hzero']
      · have hmem := (h (c, value')).1 (mem_snapshot_iff.2 ⟨hvalue', hzero'⟩)
        rw [hvalue', (mem_snapshot_iff.1 hmem).1]
    · have hmem := (h (c, value)).2 (mem_snapshot_iff.2 ⟨hvalue, hzero⟩)
      rw [hvalue, (mem_snapshot_iff.1 hmem).1]
  · rw [fetch_of_not_isLetter s hc, fetch_of_not_isLetter s' hc]

/-! ## Letters in order -/

section AnyOrder

variable {entries : List (UInt8 × Int32)}

/-- Whatever order the entries of a snapshot come in, their letters are put in the order of their
slots. -/
theorem lettersOf_eq (h : entries.Perm s.snapshot) : lettersOf entries = s.snapshot.map Prod.fst := by
  have hperm : (lettersOf entries).Perm (s.snapshot.map Prod.fst) :=
    (sortByKey_perm rank (entries.map Prod.fst)).trans (h.map Prod.fst)
  -- two ascending lists of the same letters are equal
  refine List.Perm.eq_of_pairwise ?_ (pairwise_sortByKey rank (entries.map Prod.fst))
    (s.pairwise_snapshot.imp Nat.le_of_lt) hperm
  intro a b ha hb hab hba
  exact eq_of_rank_eq (isLetter_of_mem_map_fst_snapshot (hperm.mem_iff.1 ha))
    (isLetter_of_mem_map_fst_snapshot hb) (Nat.le_antisymm hab hba)

theorem letters_eq (s : Store) : s.letters = s.snapshot.map Prod.fst :=
  lettersOf_eq (List.Perm.refl s.snapshot)

/-- The value of a letter is found in the entries of a snapshot, whatever order they come in. -/
theorem lookup_eq (h : entries.Perm s.snapshot) {value : Int32} (hvalue : s.fetch c = .ok value)
    (hne : value ≠ 0) : entries.lookup c = some value := by
  have hmem : (c, value) ∈ entries := h.mem_iff.2 (mem_snapshot_iff.2 ⟨hvalue, hne⟩)
  cases hfound : entries.lookup c with
  | none =>
    have hnot := List.lookup_eq_none_iff.1 hfound (c, value) hmem
    simp at hnot
  | some value' =>
    obtain ⟨before, behind, rfl, -⟩ := List.lookup_eq_some_iff.1 hfound
    have hmem' := mem_snapshot_iff.1 (h.mem_iff.1 (List.mem_append_right before List.mem_cons_self))
    rw [hvalue] at hmem'
    exact congrArg some (Except.ok.inj hmem'.1).symm

/-- A letter and its value are spelled with an equals sign in between, the value in decimal. -/
theorem entryText_eq (c : UInt8) (value : Int32) :
    entryText c value = String.singleton (Char.ofNat c.toNat) ++ "=" ++ toString value.toInt := by
  rw [entryText, String.ofList_cons, String.ofList_cons, Text.ofList_decimal, String.append_assoc]
  rfl

/-- The line for a snapshot has the letters in order with their values, whatever order its entries
come in. -/
theorem snapshotText_eq (h : entries.Perm s.snapshot) {value : UInt8 → Int32}
    (hvalue : ∀ c, IsLetter c → s.fetch c = .ok (value c)) :
    snapshotText entries =
      if s.letters = [] then "(empty)"
      else " ".intercalate (s.letters.map fun c =>
        String.singleton (Char.ofNat c.toNat) ++ "=" ++ toString (value c).toInt) := by
  have hletters : lettersOf entries = s.letters := by rw [lettersOf_eq h, letters_eq]
  have hempty : entries.isEmpty = true ↔ s.letters = [] := by
    rw [List.isEmpty_iff, letters_eq, List.map_eq_nil_iff, ← List.length_eq_zero_iff, h.length_eq,
      List.length_eq_zero_iff]
  have htexts : (s.letters.map fun c => entryText c ((entries.lookup c).getD 0)) =
      s.letters.map fun c =>
        String.singleton (Char.ofNat c.toNat) ++ "=" ++ toString (value c).toInt := by
    apply List.map_congr_left
    intro c hc
    rw [letters_eq] at hc
    have hfetch := hvalue c (isLetter_of_mem_map_fst_snapshot hc)
    obtain ⟨value', hfetch', hne⟩ := mem_map_fst_snapshot_iff.1 hc
    rw [hfetch, Except.ok.injEq] at hfetch'
    rw [← hfetch'] at hne
    rw [lookup_eq h hfetch hne, Option.getD_some, entryText_eq]
  rw [snapshotText, hletters, htexts]
  simp only [hempty]

end AnyOrder

end Store

/-! ## Calls -/

/-- A call on a store. -/
inductive StoreCall where
  | assign (letter : UInt8) (value : Int32)
  | fetch (letter : UInt8)
  | reset
deriving DecidableEq

/-- The value that a call stores under a letter, unless it is refused. -/
def StoreCall.stored? (letter : UInt8) : StoreCall → Option Int32
  | .assign c value => if c = letter then some value else none
  | _ => none

namespace Store

variable {s : Store} {c : UInt8} {past : List StoreCall}

/-- The answer to a call, which for reading is a value, and the store after it. A call that is
refused leaves the store as it is. -/
def call (s : Store) : StoreCall → Except Misuse (Option Int32) × Store
  | .assign letter value =>
    match s.assign letter value with
    | .ok s' => (.ok none, s')
    | .error cause => (.error cause, s)
  | .fetch letter => ((s.fetch letter).map some, s)
  | .reset => (.ok none, s.reset)

/-- The store after calls on a new one. The last call comes first. -/
def after : List StoreCall → Store
  | [] => empty
  | call :: past => ((after past).call call).2

/-- The value that was stored last under a letter since the variables were last cleared, or zero
where there is none. -/
def lastStored (past : List StoreCall) (letter : UInt8) : Int32 :=
  ((past.takeWhile fun call => call ≠ .reset).findSome? (StoreCall.stored? letter)).getD 0

theorem lastStored_reset (past : List StoreCall) (c : UInt8) : lastStored (.reset :: past) c = 0 := by
  simp [lastStored]

theorem lastStored_cons {call : StoreCall} (h : call ≠ .reset) (past : List StoreCall) (c : UInt8) :
    lastStored (call :: past) c = (call.stored? c).getD (lastStored past c) := by
  rw [lastStored, List.takeWhile_cons_of_pos (by simpa using h), List.findSome?_cons]
  cases call.stored? c with
  | none => rfl
  | some value => rfl

theorem call_assign_of_not_isLetter (s : Store) (h : ¬ IsLetter c) (value : Int32) :
    s.call (.assign c value) = (.error (noSlot c), s) := by
  rw [call, assign_of_not_isLetter s h]

theorem call_fetch_of_not_isLetter (s : Store) (h : ¬ IsLetter c) :
    s.call (.fetch c) = (.error (noSlot c), s) := by
  rw [call, fetch_of_not_isLetter s h]
  rfl

/-- What a call that does not clear the variables leaves in a letter: the value that it stores
there, or else what the letter held. -/
theorem fetch_call (s : Store) {call : StoreCall} (hcall : call ≠ .reset) (hc : IsLetter c)
    {value : Int32} (h : s.fetch c = .ok value) :
    (s.call call).2.fetch c = .ok ((call.stored? c).getD value) := by
  cases call with
  | assign letter new =>
    by_cases hletter : IsLetter letter
    · obtain ⟨s', hassign, hfetch⟩ := s.exists_assign hletter new
      rw [Store.call, hassign, hfetch, StoreCall.stored?]
      by_cases heq : c = letter
      · rw [if_pos heq, if_pos heq.symm, Option.getD_some]
      · rw [if_neg heq, if_neg (Ne.symm heq), h, Option.getD_none]
    · -- the call is refused, and it was for another byte
      have hne : letter ≠ c := by
        rintro rfl
        exact hletter hc
      rw [call_assign_of_not_isLetter s hletter, h, StoreCall.stored?, if_neg hne, Option.getD_none]
  | fetch letter => exact h
  | reset => exact absurd rfl hcall

/-- After all calls a letter holds the value that was stored last under it since the variables were
last cleared, or zero. -/
theorem fetch_after (past : List StoreCall) (hc : IsLetter c) :
    (after past).fetch c = .ok (lastStored past c) := by
  induction past with
  | nil => exact fetch_reset empty hc
  | cons call past ih =>
    by_cases hreset : call = .reset
    · subst hreset
      rw [lastStored_reset]
      exact fetch_reset (after past) hc
    · rw [after, lastStored_cons hreset, fetch_call _ hreset hc ih]

/-! ## The variables as a map -/

/-- The letters that hold something else than zero, each once, with lower case before upper case and
in the order of the alphabet within a case. -/
structure Lists (past : List StoreCall) (listed : List UInt8) : Prop where
  mem_iff : ∀ c, c ∈ listed ↔ IsLetter c ∧ lastStored past c ≠ 0
  nodup : listed.Nodup
  ordered : listed.Pairwise Precedes

/-- What can be seen of the variables after calls on a new store. -/
structure Tracks (past : List StoreCall) : Prop where
  /-- A letter is read as what was stored last under it since the last clearing, or as zero. Reading
  changes nothing. -/
  fetched : ∀ c, IsLetter c →
    (after past).call (.fetch c) = (.ok (some (lastStored past c)), after past)
  /-- Storing under a letter is never refused. -/
  stored : ∀ c value, IsLetter c → ((after past).call (.assign c value)).1 = .ok none
  /-- Storing under any other byte is refused and changes nothing. -/
  not_stored : ∀ c value, ¬ IsLetter c →
    (after past).call (.assign c value) = (.error (noSlot c), after past)
  /-- Reading any other byte is refused and changes nothing. -/
  not_fetched : ∀ c, ¬ IsLetter c → (after past).call (.fetch c) = (.error (noSlot c), after past)
  /-- A snapshot holds the letters that do not hold zero, with what they hold. -/
  snapshot : ∀ c value, (c, value) ∈ (after past).snapshot ↔
    IsLetter c ∧ value = lastStored past c ∧ value ≠ 0
  /-- It has one entry for each of them. -/
  single : ((after past).snapshot.map Prod.fst).Nodup
  /-- A store with the same snapshot is read in the same way, whatever calls led to it. -/
  determined : ∀ past', (∀ entry, entry ∈ (after past').snapshot ↔ entry ∈ (after past).snapshot) →
    ∀ c, (after past').fetch c = (after past).fetch c
  /-- The letters are listed in order. -/
  letters : Lists past (after past).letters
  /-- So they are from the entries of the snapshot in any order, -/
  lettersOf : ∀ entries : List (UInt8 × Int32), entries.Perm (after past).snapshot →
    Store.lettersOf entries = (after past).letters
  /-- and the line for the snapshot has each of them with an equals sign and its value in decimal,
  and a blank between two of them. -/
  snapshotText : ∀ entries : List (UInt8 × Int32), entries.Perm (after past).snapshot →
    Store.snapshotText entries =
      if (after past).letters = [] then "(empty)"
      else " ".intercalate ((after past).letters.map fun c =>
        String.singleton (Char.ofNat c.toNat) ++ "=" ++ toString (lastStored past c).toInt)

theorem lists_letters (past : List StoreCall) : Lists past (after past).letters := by
  rw [letters_eq]
  constructor
  case mem_iff =>
    intro c
    rw [mem_map_fst_snapshot_iff]
    constructor
    · rintro ⟨value, hvalue, hne⟩
      have hc := isLetter_of_fetch hvalue
      rw [fetch_after past hc, Except.ok.injEq] at hvalue
      exact ⟨hc, hvalue ▸ hne⟩
    · rintro ⟨hc, hne⟩
      exact ⟨_, fetch_after past hc, hne⟩
  case nodup =>
    apply (after past).pairwise_snapshot.imp
    rintro a b hlt rfl
    exact Nat.lt_irrefl _ hlt
  case ordered =>
    apply (after past).pairwise_snapshot.imp_of_mem
    intro a b ha hb
    exact precedes_of_rank_lt (isLetter_of_mem_map_fst_snapshot ha)
      (isLetter_of_mem_map_fst_snapshot hb)

/-- After all calls the variables are seen as a map from letters to words, with what was stored last
under each letter. -/
theorem tracks (past : List StoreCall) : Tracks past := by
  constructor
  case fetched =>
    intro c hc
    rw [call, fetch_after past hc]
    rfl
  case stored =>
    intro c value hc
    obtain ⟨s', hassign, -⟩ := (after past).exists_assign hc value
    rw [call, hassign]
  case not_stored =>
    intro c value hc
    exact call_assign_of_not_isLetter _ hc value
  case not_fetched =>
    intro c hc
    exact call_fetch_of_not_isLetter _ hc
  case snapshot =>
    intro c value
    rw [mem_snapshot_iff]
    constructor
    · rintro ⟨hvalue, hne⟩
      have hc := isLetter_of_fetch hvalue
      rw [fetch_after past hc, Except.ok.injEq] at hvalue
      exact ⟨hc, hvalue.symm, hne⟩
    · rintro ⟨hc, rfl, hne⟩
      exact ⟨fetch_after past hc, hne⟩
  case single =>
    rw [← letters_eq]
    exact (lists_letters past).nodup
  case determined =>
    intro past' h
    exact fetch_eq_of_snapshot h
  case letters => exact lists_letters past
  case lettersOf =>
    intro entries h
    rw [lettersOf_eq h, letters_eq]
  case snapshotText =>
    intro entries h
    exact snapshotText_eq h fun c hc => fetch_after past hc

/-- The calls of a history, the last one first: what was stored under `x` is cleared, the digit is
refused, and `d` holds zero. -/
def mixedCalls : List StoreCall :=
  [.assign 0x64 0, .assign 0x61 (-2147483648), .fetch 0x63, .assign 0x63 3, .assign 0x42 2,
    .assign 0x31 7, .reset, .assign 0x78 5]

/-- Three letters are left, and the entries of the snapshot come out of order. -/
theorem tracks_mixedCalls :
    Tracks mixedCalls ∧
    (after mixedCalls).call (.fetch 0x78) = (.ok (some 0), after mixedCalls) ∧
    (after mixedCalls).call (.fetch 0x31) = (.error (noSlot 0x31), after mixedCalls) ∧
    (after mixedCalls).letters = [0x61, 0x63, 0x42] ∧
    [(0x42, 2), (0x61, -2147483648), (0x63, 3)].Perm (after mixedCalls).snapshot ∧
    lettersOf [(0x42, 2), (0x61, -2147483648), (0x63, 3)] = [0x61, 0x63, 0x42] ∧
    Store.snapshotText [(0x42, 2), (0x61, -2147483648), (0x63, 3)] = "a=-2147483648 c=3 B=2" := by
  have h := tracks mixedCalls
  have hletters : (after mixedCalls).letters = [0x61, 0x63, 0x42] := by decide +kernel
  have hperm : [(0x42, 2), (0x61, -2147483648), (0x63, 3)].Perm (after mixedCalls).snapshot := by
    decide +kernel
  refine ⟨h, h.fetched 0x78 (by decide), h.not_fetched 0x31 (by decide), hletters, hperm, ?_, ?_⟩
  · rw [h.lettersOf _ hperm, hletters]
  · rw [h.snapshotText _ hperm, hletters]
    decide +kernel

end Store
end MiniLua

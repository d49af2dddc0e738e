import MiniLua.Proofs.Heaps

/-!
# Sorting by division

A range is divided at one of its elements: places are passed over from both ends until an element of
either end belongs to the other one, and these two are exchanged. What is left is to sort the two
parts, each in its place.

How the element is chosen, whether some elements are exchanged at random before it, whether the
range is turned round or tried by insertion, and after how many uneven divisions a heap is used
instead, none of this decides about the result: each of these steps rearranges the range, and no
more is asked of it. The range gets shorter with every division, so that the steps which are allowed
suffice.

## Delivered

- `Sorting.rearranged_scatter`, `Sorting.choose_spec`: what is done before a division.
- `Sorting.Parted`, `Sorting.divideFrom_spec`, `Sorting.divide_spec`, `Sorting.partition_spec`:
  dividing.
- `Sorting.SortsWithin`, `Sorting.sortsWithin`: ranges are sorted.
- `sortByKey_perm`, `pairwise_sortByKey`: a list is sorted.
-/

set_option autoImplicit false

namespace MiniLua
namespace Sorting

variable {α : Type} {key : α → Nat} {xs ys zs : Array α} {low mid high i j p : Nat} {equal : Bool}

/-! ## Before a division -/

/-- The place of a median is one of the three places. -/
theorem median_bounds (key : α → Nat) (xs : Array α) {i j k : Nat} (swaps : Nat)
    (hi : low ≤ i ∧ i < high) (hj : low ≤ j ∧ j < high) (hk : low ≤ k ∧ k < high) :
    low ≤ (median key xs i j k swaps).1 ∧ (median key xs i j k swaps).1 < high := by
  simp only [median, ordered]
  repeat' split
  all_goals assumption

theorem pivot_bounds (key : α → Nat) (xs : Array α) (h : 12 < high - low) :
    low ≤ (pivot key low high xs).1 ∧ (pivot key low high xs).1 < high := by
  have hnear : ∀ place swaps, low < place → place + 1 < high →
      low ≤ (medianNear key xs place swaps).1 ∧ (medianNear key xs place swaps).1 < high := by
    intro place swaps hlow hhigh
    exact median_bounds key xs swaps (by omega) (by omega) (by omega)
  rw [pivot, samples]
  by_cases hlong : 50 ≤ high - low
  · rw [if_pos hlong]
    exact median_bounds key xs _ (hnear _ _ (by omega) (by omega)) (hnear _ _ (by omega) (by omega))
      (hnear _ _ (by omega) (by omega))
  · rw [if_neg hlong]
    exact median_bounds key xs _ (by omega) (by omega) (by omega)

theorem rearranged_reverseRange {n : Nat} (hlow : low ≤ i) (hhigh : j < high) :
    Rearranged low high xs (reverseRange n i j xs) := by
  induction n generalizing i j xs with
  | zero => exact .refl
  | succ n ih =>
    rw [reverseRange]
    split
    · exact (Rearranged.refl.exchange (by omega) (by omega)).trans (ih (by omega) (by omega))
    · exact .refl

theorem wrapped_lt {length : Nat} (hpos : 0 < length) (n : Nat) : wrapped length n < length := by
  have hmask : Nat.pow 2 (Nat.log2 length + 1) ≤ length * 2 :=
    Nat.mul_le_mul_right 2 (Nat.log2_self_le (Nat.ne_of_gt hpos))
  have hlt : n % Nat.pow 2 (Nat.log2 length + 1) < Nat.pow 2 (Nat.log2 length + 1) :=
    Nat.mod_lt _ (Nat.two_pow_pos _)
  rw [wrapped]
  split <;> omega

theorem rearranged_scatter (h : 12 < high - low) :
    Rearranged low high xs (scatter low high xs) := by
  rw [scatter, List.range_eq_range']
  apply foldl_range' (fun _ (state : UInt64 × Array α) => Rearranged low high xs state.2) (h := .refl)
  intro i state hi hstate
  have hlength : 0 < high - low := by omega
  have hother := wrapped_lt hlength (scrambled state.1).toNat
  exact hstate.exchange (by omega) (by omega)

/-- The place that is chosen is in the range, and choosing it rearranges the range. -/
theorem choose_spec (key : α → Nat) (xs : Array α) (h : 12 < high - low) :
    (low ≤ (choose key low high xs).place ∧ (choose key low high xs).place < high) ∧
      Rearranged low high xs (choose key low high xs).elements := by
  have hpivot := pivot_bounds key xs h
  rw [choose]
  split
  · exact ⟨⟨by dsimp only; omega, by dsimp only; omega⟩,
      rearranged_reverseRange (Nat.le_refl _) (by omega)⟩
  · exact ⟨hpivot, .refl⟩

/-! ## Passing over places -/

/-- A key comes in front of another one, where equal ones come in front too or do not. -/
def Leads (equal : Bool) (pivot k : Nat) : Prop :=
  if equal then k ≤ pivot else k < pivot

theorem inFront_iff (hp : p < xs.size) (hi : i < xs.size) :
    inFront key equal xs p i = true ↔ Leads equal (keyAt key xs p) (keyAt key xs i) := by
  cases equal with
  | false => exact less_iff hi
  | true =>
    rw [inFront, if_pos rfl, Bool.not_eq_true', less_eq_false_iff hp]
    exact Iff.rfl

theorem inFront_eq_false_iff (hp : p < xs.size) (hi : i < xs.size) :
    inFront key equal xs p i = false ↔ ¬ Leads equal (keyAt key xs p) (keyAt key xs i) := by
  rw [← inFront_iff hp hi, Bool.not_eq_true]

/-- Upwards, what is passed over comes in front, and the place that is reached does not. -/
theorem passFront_spec (key : α → Nat) (equal : Bool) {n : Nat} (hp : p < xs.size)
    (hj : j < xs.size) (hij : i ≤ j + 1) (hn : j + 1 ≤ i + n) :
    (i ≤ passFront key equal xs p j n i ∧ passFront key equal xs p j n i ≤ j + 1) ∧
      (∀ k, i ≤ k → k < passFront key equal xs p j n i →
        Leads equal (keyAt key xs p) (keyAt key xs k)) ∧
      (passFront key equal xs p j n i ≤ j →
        ¬ Leads equal (keyAt key xs p) (keyAt key xs (passFront key equal xs p j n i))) := by
  induction n generalizing i with
  | zero =>
    rw [passFront]
    exact ⟨⟨Nat.le_refl _, hij⟩, fun k hk hki => by omega, fun hle => by omega⟩
  | succ n ih =>
    rw [passFront]
    by_cases hend : i ≤ j
    · cases hfront : inFront key equal xs p i with
      | false =>
        rw [if_neg (by simp)]
        exact ⟨⟨Nat.le_refl _, hij⟩, fun k hk hki => by omega,
          fun _ => (inFront_eq_false_iff hp (by omega)).1 hfront⟩
      | true =>
        rw [if_pos (by simp [hend])]
        obtain ⟨hbounds, hpassed, hreached⟩ := ih (i := i + 1) (by omega) (by omega)
        refine ⟨by omega, ?_, hreached⟩
        intro k hk hkr
        by_cases hki : k = i
        · rw [hki]
          exact (inFront_iff hp (by omega)).1 hfront
        · exact hpassed k (by omega) hkr
    · rw [if_neg (by simp [hend])]
      exact ⟨⟨Nat.le_refl _, hij⟩, fun k hk hki => by omega, fun hle => absurd hle hend⟩

/-- Downwards, what is passed over does not come in front, and the place that is reached does. -/
theorem passBack_spec (key : α → Nat) (equal : Bool) {n : Nat} (hp : p < xs.size) (hj : j < xs.size)
    (hi : 0 < i) (hij : i ≤ j + 1) (hn : j + 1 ≤ i + n) :
    (i ≤ passBack key equal xs p i n j + 1 ∧ passBack key equal xs p i n j ≤ j) ∧
      (∀ k, passBack key equal xs p i n j < k → k ≤ j →
        ¬ Leads equal (keyAt key xs p) (keyAt key xs k)) ∧
      (i ≤ passBack key equal xs p i n j →
        Leads equal (keyAt key xs p) (keyAt key xs (passBack key equal xs p i n j))) := by
  induction n generalizing j with
  | zero =>
    rw [passBack]
    exact ⟨⟨hij, Nat.le_refl _⟩, fun k hk hkj => by omega, fun hle => by omega⟩
  | succ n ih =>
    rw [passBack]
    by_cases hend : i ≤ j
    · cases hfront : inFront key equal xs p j with
      | true =>
        rw [if_neg (by simp)]
        exact ⟨⟨hij, Nat.le_refl _⟩, fun k hk hkj => by omega,
          fun _ => (inFront_iff hp hj).1 hfront⟩
      | false =>
        rw [if_pos (by simp [hend])]
        obtain ⟨hbounds, hpassed, hreached⟩ := ih (j := j - 1) (by omega) (by omega) (by omega)
        refine ⟨by omega, ?_, hreached⟩
        intro k hk hkj
        by_cases hkj' : k = j
        · rw [hkj']
          exact (inFront_eq_false_iff hp hj).1 hfront
        · exact hpassed k hk (by omega)
    · rw [if_neg (by simp [hend])]
      exact ⟨⟨hij, Nat.le_refl _⟩, fun k hk hkj => by omega, fun hle => absurd hle hend⟩

/-! ## Dividing -/

/-- Behind the place `p`, what stands before the place `i` comes in front of the element at `p`, and
what stands behind the place `j` does not. -/
structure Parted (key : α → Nat) (equal : Bool) (p i j high : Nat) (xs : Array α) : Prop where
  front : ∀ k, p < k → k < i → Leads equal (keyAt key xs p) (keyAt key xs k)
  back : ∀ k, j < k → k < high → ¬ Leads equal (keyAt key xs p) (keyAt key xs k)

/-- The ends come nearer to each other over places whose elements stand where they belong. -/
theorem Parted.advance (h : Parted key equal p i j high xs) {i' j' : Nat}
    (hfront : ∀ k, i ≤ k → k < i' → Leads equal (keyAt key xs p) (keyAt key xs k))
    (hback : ∀ k, j' < k → k ≤ j → ¬ Leads equal (keyAt key xs p) (keyAt key xs k)) :
    Parted key equal p i' j' high xs := by
  constructor
  · intro k hk hki
    by_cases hold : k < i
    · exact h.front k hk hold
    · exact hfront k (by omega) hki
  · intro k hk hkh
    by_cases hold : j < k
    · exact h.back k hold hkh
    · exact hback k hk (by omega)

/-- Two elements that stand at the wrong ends are exchanged. -/
theorem Parted.exchange (h : Parted key equal p i j high xs) (hpi : p < i) (hij : i < j)
    (hj : j < xs.size) (hback : ¬ Leads equal (keyAt key xs p) (keyAt key xs i))
    (hfront : Leads equal (keyAt key xs p) (keyAt key xs j)) :
    Parted key equal p (i + 1) (j - 1) high (xs.swapIfInBounds i j) := by
  have hi : i < xs.size := by omega
  have hkeys := keyAt_exchange key hi hj
  have hpivot : keyAt key (xs.swapIfInBounds i j) p = keyAt key xs p := by
    rw [hkeys, if_neg (by omega), if_neg (by omega)]
  constructor
  · intro k hk hki
    rw [hpivot, hkeys]
    by_cases heq : k = i
    · rw [if_pos heq]
      exact hfront
    · rw [if_neg heq, if_neg (by omega)]
      exact h.front k hk (by omega)
  · intro k hk hkh
    rw [hpivot, hkeys, if_neg (by omega)]
    by_cases heq : k = j
    · rw [if_pos heq]
      exact hback
    · rw [if_neg heq]
      exact h.back k (by omega) hkh

/-- The places in between are divided too, and the element at the place `p` stays there. -/
theorem divideFrom_spec {n : Nat} (untouched : Bool) (h : Parted key equal p i j high xs)
    (hi : p < i ∧ i ≤ j + 1) (hj : j < high) (hhigh : high ≤ xs.size) (hn : j + 1 ≤ i + n) :
    (p ≤ (divideFrom key equal p n untouched i j xs).last ∧
        (divideFrom key equal p n untouched i j xs).last < high) ∧
      Rearranged (p + 1) high xs (divideFrom key equal p n untouched i j xs).elements ∧
      Parted key equal p ((divideFrom key equal p n untouched i j xs).last + 1)
        (divideFrom key equal p n untouched i j xs).last high
        (divideFrom key equal p n untouched i j xs).elements := by
  induction n generalizing untouched i j xs with
  | zero =>
    have hmet : i = j + 1 := by omega
    rw [divideFrom]
    subst hmet
    exact ⟨⟨by dsimp only; omega, hj⟩, .refl, h⟩
  | succ n ih =>
    have hp : p < xs.size := by omega
    obtain ⟨hbounds, hpassed, hreached⟩ :=
      passFront_spec key equal hp (j := j) (by omega) hi.2 (n := xs.size) (by omega)
    rw [divideFrom]
    generalize passFront key equal xs p j xs.size i = i' at hbounds hpassed hreached ⊢
    obtain ⟨hbounds', hpassed', hreached'⟩ :=
      passBack_spec key equal hp (j := j) (by omega) (i := i') (by omega) hbounds.2 (n := xs.size)
        (by omega)
    generalize passBack key equal xs p i' xs.size j = j' at hbounds' hpassed' hreached' ⊢
    have hparted : Parted key equal p i' j' high xs := h.advance hpassed hpassed'
    by_cases hmet : j' < i'
    · rw [if_pos hmet]
      have heq : i' = j' + 1 := by omega
      subst heq
      exact ⟨⟨by dsimp only; omega, by dsimp only; omega⟩, .refl, hparted⟩
    · rw [if_neg hmet]
      have hfront := hreached' (by omega)
      have hback := hreached (by omega)
      have hne : i' ≠ j' := by
        intro heq
        rw [heq] at hback
        exact hback hfront
      have hpair : Rearranged (p + 1) high xs (xs.swapIfInBounds i' j') :=
        Rearranged.refl.exchange (by omega) (by omega)
      obtain ⟨hlast, hr, hdone⟩ := ih false
        (hparted.exchange (by omega) (by omega) (by omega) hback hfront) (by omega) (by omega)
        (by rw [hpair.size_eq]; exact hhigh) (by omega)
      exact ⟨hlast, hpair.trans hr, hdone⟩

/-- A range is divided at the element of a place. -/
theorem divide_spec (key : α → Nat) (equal : Bool) {place : Nat} (hplace : low ≤ place ∧ place < high)
    (hhigh : high ≤ xs.size) :
    (low ≤ (divide key equal low high place xs).last ∧
        (divide key equal low high place xs).last < high) ∧
      Rearranged low high xs (divide key equal low high place xs).elements ∧
      Parted key equal low ((divide key equal low high place xs).last + 1)
        (divide key equal low high place xs).last high (divide key equal low high place xs).elements ∧
      keyAt key (divide key equal low high place xs).elements low = keyAt key xs place := by
  have hpair : Rearranged low high xs (xs.swapIfInBounds low place) :=
    Rearranged.refl.exchange (by omega) hplace
  have hstart : Parted key equal low (low + 1) (high - 1) high (xs.swapIfInBounds low place) := by
    constructor
    · intro k hk hk'
      omega
    · intro k hk hk'
      omega
  obtain ⟨hlast, hr, hparted⟩ := divideFrom_spec (n := xs.size) true hstart (by omega) (by omega)
    (by rw [hpair.size_eq]; exact hhigh) (by omega)
  refine ⟨hlast, hpair.trans (hr.widen (by omega) (Nat.le_refl _)), hparted, ?_⟩
  rw [divide, hr.keyAt_outside (.inl (by omega)), keyAt_exchange key (by omega) (by omega),
    if_pos rfl]

/-- The element at the place `mid` of a range is in its place: nothing before it is larger, and
nothing behind it is smaller. -/
structure Split (key : α → Nat) (low mid high : Nat) (xs : Array α) : Prop where
  before : Apart key low mid high xs
  behind : Apart key low (mid + 1) high xs

theorem Split.of_rearranged_left (h : Split key low mid high xs) (hr : Rearranged low mid xs ys) :
    Split key low mid high ys where
  before := h.before.of_rearranged_left hr
  behind := h.behind.of_rearranged_left (hr.widen (Nat.le_refl _) (Nat.le_succ _))

theorem Split.of_rearranged_right (h : Split key low mid high xs)
    (hr : Rearranged (mid + 1) high xs ys) : Split key low mid high ys where
  before := h.before.of_rearranged_right (hr.widen (Nat.le_succ _) (Nat.le_refl _))
  behind := h.behind.of_rearranged_right hr

/-- A range that is split and sorted on both sides is sorted. -/
theorem Split.sortedOn (h : Split key low mid high xs) (hmid : mid < high)
    (hleft : SortedOn key low mid xs) (hright : SortedOn key (mid + 1) high xs) :
    SortedOn key low high xs := by
  have hupto : SortedOn key low (mid + 1) xs := by
    apply hleft.concat
    intro k hk hkm
    exact h.before k mid hk hkm (Nat.le_refl _) hmid
  exact hupto.append hright h.behind

/-- A range that is split is sorted by sorting what is before the element in its place, and then
what is behind it. -/
theorem Split.sorts_left_right (h : Split key low mid high xs) (hmid : low ≤ mid ∧ mid < high)
    (hleft : Sorts key low mid xs ys) (hright : Sorts key (mid + 1) high ys zs) :
    Sorts key low high xs zs where
  rearranged := (hleft.rearranged.widen (Nat.le_refl _) (by omega)).trans
    (hright.rearranged.widen (by omega) (Nat.le_refl _))
  sorted := by
    have hsplit := (h.of_rearranged_left hleft.rearranged).of_rearranged_right hright.rearranged
    apply hsplit.sortedOn hmid.2 _ hright.sorted
    exact hleft.sorted.congr fun k _ hk => hright.rearranged.keyAt_outside (.inl (by omega))

/-- The two sides can be sorted in the other order too. -/
theorem Split.sorts_right_left (h : Split key low mid high xs) (hmid : low ≤ mid ∧ mid < high)
    (hright : Sorts key (mid + 1) high xs ys) (hleft : Sorts key low mid ys zs) :
    Sorts key low high xs zs where
  rearranged := (hright.rearranged.widen (by omega) (Nat.le_refl _)).trans
    (hleft.rearranged.widen (Nat.le_refl _) (by omega))
  sorted := by
    have hsplit := (h.of_rearranged_right hright.rearranged).of_rearranged_left hleft.rearranged
    apply hsplit.sortedOn hmid.2 hleft.sorted
    exact hright.sorted.congr fun k hk _ => hleft.rearranged.keyAt_outside (.inr (by omega))

/-- After a division the element of the place is in its place. -/
theorem partition_spec (key : α → Nat) {place : Nat} (hplace : low ≤ place ∧ place < high)
    (hhigh : high ≤ xs.size) :
    (low ≤ (partition key low high place xs).last ∧ (partition key low high place xs).last < high) ∧
      Rearranged low high xs (partition key low high place xs).elements ∧
      Split key low (partition key low high place xs).last high
        (partition key low high place xs).elements := by
  obtain ⟨hlast, hr, hparted, -⟩ := divide_spec key false hplace hhigh
  rw [partition]
  dsimp only
  generalize divide key false low high place xs = d at hlast hr hparted ⊢
  have hsize := hr.size_eq
  have hlastsize : d.last < d.elements.size := by omega
  have hkeys := keyAt_exchange key hlastsize (j := low) (by omega)
  have hpair : Rearranged low high d.elements (d.elements.swapIfInBounds d.last low) :=
    Rearranged.refl.exchange hlast (by omega)
  refine ⟨hlast, hr.trans hpair, ?_⟩
  have hpivot : keyAt key (d.elements.swapIfInBounds d.last low) d.last =
      keyAt key d.elements low := by
    rw [hkeys, if_pos rfl]
  -- the element that comes to the front of the range for the other one is smaller
  have hfront : ∀ k, low ≤ k → k < d.last →
      keyAt key (d.elements.swapIfInBounds d.last low) k ≤ keyAt key d.elements low := by
    intro k hk hkl
    rw [hkeys, if_neg (by omega)]
    split
    · exact Nat.le_of_lt (hparted.front d.last (by omega) (Nat.lt_succ_self _))
    · exact Nat.le_of_lt (hparted.front k (by omega) (by omega))
  have hback : ∀ k, d.last < k → k < high →
      keyAt key d.elements low ≤ keyAt key (d.elements.swapIfInBounds d.last low) k := by
    intro k hk hkh
    rw [hkeys, if_neg (by omega), if_neg (by omega)]
    exact Nat.le_of_not_lt (hparted.back k hk hkh)
  constructor
  · intro i j hi hil hj hjh
    apply Nat.le_trans (hfront i hi hil)
    by_cases heq : j = d.last
    · exact Nat.le_of_eq (by rw [heq, hpivot])
    · exact hback j (by omega) hjh
  · intro i j hi hil hj hjh
    apply Nat.le_trans _ (hback j (by omega) hjh)
    by_cases heq : i = d.last
    · exact Nat.le_of_eq (by rw [heq, hpivot])
    · exact hfront i hi (by omega)

/-! ## Ranges -/

theorem Apart.narrow (h : Apart key low mid high xs) {high' : Nat} (hle : high' ≤ high) :
    Apart key low mid high' xs := by
  intro i j hi him hj hjh
  exact h i j hi him hj (by omega)

/-- What is before a range and what is in its first part are not larger than what is in the second
part. -/
theorem Apart.append {start : Nat} (h : Apart key start low high xs) (h' : Apart key low mid high xs)
    (hmid : low ≤ mid) : Apart key start mid high xs := by
  intro i j hi him hj hjh
  by_cases hil : i < low
  · exact h i j hi hil (by omega) hjh
  · exact h' i j (by omega) him hj hjh

/-- Preparing a range rearranges it and chooses a place in it, and what is reported as sorted is
sorted. -/
theorem prepare_spec (even divided : Bool) (h : 12 < high - low) (hhigh : high ≤ xs.size)
    (habove : Apart key 0 low high xs) :
    (low ≤ (prepare key low high even divided xs).place ∧
        (prepare key low high even divided xs).place < high) ∧
      Rearranged low high xs (prepare key low high even divided xs).elements ∧
      ((prepare key low high even divided xs).done = true →
        SortedOn key low high (prepare key low high even divided xs).elements) := by
  have hstart : Rearranged low high xs (if even then xs else scatter low high xs) := by
    split
    · exact .refl
    · exact rearranged_scatter h
  obtain ⟨hplace, hchoice⟩ := choose_spec key (if even then xs else scatter low high xs) h
  rw [prepare]
  generalize choose key low high (if even then xs else scatter low high xs) = choice
    at hplace hchoice ⊢
  have hr := hstart.trans hchoice
  dsimp only
  split
  · obtain ⟨htry, hdone⟩ := nearlySorted_spec 5 (habove.of_rearranged_right hr) (i := low + 1)
      (by omega) (by rw [hr.size_eq]; exact hhigh) (sortedOn_of_le (Nat.le_refl _))
    exact ⟨hplace, hr.trans htry, hdone⟩
  · exact ⟨hplace, hr, fun hdone => absurd hdone Bool.false_ne_true⟩

/-- Where the element of a place is not larger than one before the range, a division that takes the
elements equal to it to the front leaves them sorted, with larger ones behind them. -/
theorem divide_equal_spec (habove : Apart key 0 low high xs) {place : Nat}
    (hplace : low ≤ place ∧ place < high) (hhigh : high ≤ xs.size) (hlow : 0 < low)
    (hleast : keyAt key xs place ≤ keyAt key xs (low - 1)) :
    SortedOn key low ((divide key true low high place xs).last + 1)
        (divide key true low high place xs).elements ∧
      Apart key low ((divide key true low high place xs).last + 1) high
        (divide key true low high place xs).elements := by
  obtain ⟨hlast, hr, hparted, hpivot⟩ := divide_spec key true hplace hhigh
  generalize divide key true low high place xs = d at hlast hr hparted hpivot ⊢
  -- the elements in front are not larger than the chosen one, and nothing in the range is smaller
  have hmost : ∀ k, low ≤ k → k < d.last + 1 → keyAt key d.elements k ≤ keyAt key d.elements low := by
    intro k hk hkl
    by_cases heq : k = low
    · exact Nat.le_of_eq (by rw [heq])
    · exact hparted.front k (by omega) hkl
  have hmin : ∀ k, low ≤ k → k < high → keyAt key d.elements low ≤ keyAt key d.elements k := by
    rw [hpivot]
    apply hr.forall_keyAt (keyAt key xs place ≤ ·)
    intro k hk hkh
    exact Nat.le_trans hleast (habove (low - 1) k (Nat.zero_le _) (by omega) hk hkh)
  constructor
  · intro i j hi hij hj
    exact Nat.le_trans (hmost i hi (by omega)) (hmin j (by omega) (by omega))
  · intro i j hi hil hj hjh
    exact Nat.le_trans (hmost i hi hil) (hmin j (by omega) hjh)

/-- Ranges with nothing larger before them are sorted within a number of divisions that is larger
than the number of their elements. -/
def SortsWithin (key : α → Nat) (n : Nat) : Prop :=
  ∀ (low high tries : Nat) (even divided : Bool) (xs : Array α), high - low < n → low ≤ high →
    high ≤ xs.size → Apart key 0 low high xs →
    Sorts key low high xs (range key n low high tries even divided xs)

section Step

variable {n tries place : Nat} {even divided : Bool}

/-- Where nothing in the range is smaller than the chosen element, those equal to it come to their
places, and the rest is a shorter range. -/
theorem SortsWithin.divide_equal (h : SortsWithin key n) (hn : high - low < n + 1)
    (hhigh : high ≤ xs.size) (habove : Apart key 0 low high xs) (hplace : low ≤ place ∧ place < high)
    (hlow : 0 < low) (hleast : keyAt key xs place ≤ keyAt key xs (low - 1)) :
    Sorts key low high xs
      (range key n ((divide key true low high place xs).last + 1) high tries even divided
        (divide key true low high place xs).elements) := by
  obtain ⟨hlast, hr, -⟩ := divide_spec key true hplace hhigh
  obtain ⟨hfront, hapart⟩ := divide_equal_spec habove hplace hhigh hlow hleast
  generalize divide key true low high place xs = d at hlast hr hfront hapart ⊢
  have hrest := h (d.last + 1) high tries even divided d.elements (by omega) (by omega)
    (by rw [hr.size_eq]; exact hhigh) ((habove.of_rearranged_right hr).append hapart (by omega))
  refine .of_rearranged hr ⟨hrest.rearranged.widen (by omega) (Nat.le_refl _), ?_⟩
  apply SortedOn.append _ hrest.sorted (hapart.of_rearranged_right hrest.rearranged)
  exact hfront.congr fun k _ hk => hrest.rearranged.keyAt_outside (.inl hk)

/-- A range that is split is sorted by sorting its sides, the first one first. -/
theorem SortsWithin.left_right (h : SortsWithin key n) (hn : high - low < n + 1)
    (hhigh : high ≤ xs.size) (habove : Apart key 0 low high xs) (hmid : low ≤ mid ∧ mid < high)
    (hsplit : Split key low mid high xs) :
    Sorts key low high xs
      (range key n (mid + 1) high tries even divided (range key n low mid tries true true xs)) := by
  have hleft := h low mid tries true true xs (by omega) hmid.1 (by omega) (habove.narrow (by omega))
  have hbehind := (hsplit.of_rearranged_left hleft.rearranged).behind
  have hkept := habove.of_rearranged_right
    (hleft.rearranged.widen (Nat.le_refl _) (Nat.le_of_lt hmid.2))
  apply hsplit.sorts_left_right hmid hleft
  exact h (mid + 1) high _ _ _ _ (by omega) (by omega) (by rw [hleft.rearranged.size_eq]; exact hhigh)
    (hkept.append hbehind (by omega))

/-- The second side can be sorted first too. -/
theorem SortsWithin.right_left (h : SortsWithin key n) (hn : high - low < n + 1)
    (hhigh : high ≤ xs.size) (habove : Apart key 0 low high xs) (hmid : low ≤ mid ∧ mid < high)
    (hsplit : Split key low mid high xs) :
    Sorts key low high xs
      (range key n low mid tries even divided (range key n (mid + 1) high tries true true xs)) := by
  have hright := h (mid + 1) high tries true true xs (by omega) (by omega) hhigh
    (habove.append hsplit.behind (by omega))
  have hkept := habove.of_rearranged_right
    (hright.rearranged.widen (Nat.le_succ_of_le hmid.1) (Nat.le_refl _))
  apply hsplit.sorts_right_left hmid hright
  exact h low mid _ _ _ _ (by omega) hmid.1 (by rw [hright.rearranged.size_eq]; omega)
    (hkept.narrow (by omega))

end Step

/-- Every range with nothing larger before it is sorted: each division leaves shorter ranges. -/
theorem sortsWithin (key : α → Nat) (n : Nat) : SortsWithin key n := by
  induction n with
  | zero =>
    intro low high tries even divided xs hn
    omega
  | succ n ih =>
    intro low high tries even divided xs hn hlow hhigh habove
    rw [range]
    dsimp only
    by_cases hshort : high - low ≤ 12
    · rw [if_pos hshort]
      exact sorts_insertion hhigh
    rw [if_neg hshort]
    by_cases htries : tries = 0
    · rw [if_pos htries]
      exact sorts_heap hlow hhigh
    rw [if_neg htries]
    obtain ⟨hplace, hstart, hdone⟩ := prepare_spec even divided (by omega) hhigh habove
    generalize prepare key low high even divided xs = start at hplace hstart hdone ⊢
    have hhigh' : high ≤ start.elements.size := by
      rw [hstart.size_eq]
      exact hhigh
    have habove' := habove.of_rearranged_right hstart
    apply Sorts.of_rearranged hstart
    split
    next h => exact ⟨.refl, hdone h⟩
    split
    next h =>
      rw [Bool.and_eq_true, decide_eq_true_eq, Bool.not_eq_true'] at h
      exact ih.divide_equal hn hhigh' habove' hplace h.1 ((less_eq_false_iff (by omega)).1 h.2)
    next =>
      obtain ⟨hlast, hr, hsplit⟩ := partition_spec key hplace hhigh'
      have hhigh'' : high ≤ (partition key low high start.place start.elements).elements.size := by
        rw [hr.size_eq]
        exact hhigh'
      apply Sorts.of_rearranged hr
      split
      · exact ih.left_right hn hhigh'' (habove'.of_rearranged_right hr) hlast hsplit
      · exact ih.right_left hn hhigh'' (habove'.of_rearranged_right hr) hlast hsplit

end Sorting

/-! ## Lists -/

section Lists

open Sorting

variable {α : Type} (key : α → Nat) (xs : List α)

/-- As many divisions as a list has elements suffice to sort it. -/
theorem sorts_sortByKey : ∃ ys, sortByKey key xs = ys.toList ∧
    Sorts key 0 xs.length xs.toArray ys := by
  refine ⟨_, rfl, ?_⟩
  apply sortsWithin key (xs.length + 1) 0 xs.length _ true true xs.toArray
  · omega
  · exact Nat.zero_le _
  · exact Nat.le_of_eq List.size_toArray.symm
  · intro i j _ hi
    omega

theorem sortByKey_perm : (sortByKey key xs).Perm xs := by
  obtain ⟨ys, heq, hsorts⟩ := sorts_sortByKey key xs
  rw [heq]
  exact hsorts.rearranged.perm

theorem pairwise_sortByKey : (sortByKey key xs).Pairwise fun a b => key a ≤ key b := by
  obtain ⟨ys, heq, hsorts⟩ := sorts_sortByKey key xs
  have hsize : ys.toList.length = xs.length := by
    rw [Array.length_toList, hsorts.rearranged.size_eq, List.size_toArray]
  rw [heq, List.pairwise_iff_getElem]
  intro i j hi hj hij
  have hkeys := hsorts.sorted i j (Nat.zero_le _) (Nat.le_of_lt hij) (by omega)
  rw [Array.length_toList] at hi hj
  simpa [keyAt, hi, hj] using hkeys

end Lists
end MiniLua

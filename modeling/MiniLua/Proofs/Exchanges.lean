import MiniLua.Sorting

/-!
# Exchanges in a range

Every step of a sort is an exchange of two elements. Two facts about all steps together carry the
rest: exchanges within a range keep the elements of the range, and they do not touch what is
outside. A step is then judged by the keys at the places alone.

A range is sorted where it stands in a larger array, and what stands before it is not larger than
what is in it. The sort rests on this: a range that looks sorted is mended by moving elements to the
left without a look at the start of the range, and they stop there because nothing before it is
larger.

## Delivered

- `Sorting.keyAt`, `Sorting.less_iff`: the keys at the places of an array.
- `Sorting.Rearranged`: exchanges within a range, and what they keep.
- `Sorting.SortedOn`, `Sorting.Apart`, `Sorting.Sorts`: sorted ranges, ranges in order, and sorting a
  range.
- `Sorting.sorts_insertion`, `Sorting.nearlySorted_spec`: sorting by insertion, in full and as a try.
-/

set_option autoImplicit false

namespace MiniLua
namespace Sorting

variable {α : Type} {key : α → Nat} {xs ys zs : Array α} {low mid high i j k : Nat}

/-! ## Keys at places -/

/-- The key of the element at a place. Beyond the end it is zero. -/
def keyAt (key : α → Nat) (xs : Array α) (i : Nat) : Nat :=
  (xs[i]?.map key).getD 0

theorem less_iff (hi : i < xs.size) :
    less key xs i j = true ↔ keyAt key xs i < keyAt key xs j := by
  rw [less, keyAt, keyAt, Array.getElem?_eq_getElem hi]
  cases xs[j]? with
  | none => simp
  | some y => simp

theorem less_eq_false_iff (hi : i < xs.size) :
    less key xs i j = false ↔ keyAt key xs j ≤ keyAt key xs i := by
  rw [← Bool.not_eq_true, less_iff hi, Nat.not_lt]

/-- The keys after an exchange. -/
theorem keyAt_exchange (key : α → Nat) (hi : i < xs.size) (hj : j < xs.size) (k : Nat) :
    keyAt key (xs.swapIfInBounds i j) k =
      if k = i then keyAt key xs j else if k = j then keyAt key xs i else keyAt key xs k := by
  rw [Array.swapIfInBounds, dif_pos hi, dif_pos hj, keyAt, Array.getElem?_swap]
  by_cases hkj : k = j
  · subst hkj
    by_cases hki : k = i
    · subst hki
      simp [keyAt, hj]
    · simp [keyAt, hki, hi]
  · by_cases hki : k = i
    · subst hki
      simp [keyAt, hj, Ne.symm hkj]
    · simp [keyAt, hki, hkj, Ne.symm hki, Ne.symm hkj]

/-! ## Rearranged ranges -/

/-- The second array comes from the first one by exchanges within the places from `low` to before
`high`. -/
inductive Rearranged (low high : Nat) (xs : Array α) : Array α → Prop
  | refl : Rearranged low high xs xs
  | exchange {ys : Array α} {i j : Nat} (h : Rearranged low high xs ys) (hi : low ≤ i ∧ i < high)
      (hj : low ≤ j ∧ j < high) : Rearranged low high xs (ys.swapIfInBounds i j)

namespace Rearranged

theorem trans (h : Rearranged low high xs ys) (h' : Rearranged low high ys zs) :
    Rearranged low high xs zs := by
  induction h' with
  | refl => exact h
  | exchange _ hi hj ih => exact ih.exchange hi hj

/-- Exchanges within a range are exchanges within a larger one. -/
theorem widen {low' high' : Nat} (h : Rearranged low' high' xs ys) (hlow : low ≤ low')
    (hhigh : high' ≤ high) : Rearranged low high xs ys := by
  induction h with
  | refl => exact .refl
  | exchange _ hi hj ih => exact ih.exchange (by omega) (by omega)

theorem size_eq (h : Rearranged low high xs ys) : ys.size = xs.size := by
  induction h with
  | refl => rfl
  | exchange _ _ _ ih => rw [Array.size_swapIfInBounds, ih]

/-- No element is lost and none is new. -/
theorem perm (h : Rearranged low high xs ys) : ys.toList.Perm xs.toList := by
  induction h with
  | refl => exact .refl _
  | @exchange ys i j _ _ _ ih =>
    rw [Array.swapIfInBounds]
    split
    · split
      · exact (Array.swap_perm _ _).toList.trans ih
      · exact ih
    · exact ih

/-- An exchange with a place beyond the end changes nothing. -/
theorem exchange_cases (ys : Array α) (i j : Nat) :
    i < ys.size ∧ j < ys.size ∨ ys.swapIfInBounds i j = ys := by
  by_cases hi : i < ys.size
  · by_cases hj : j < ys.size
    · exact .inl ⟨hi, hj⟩
    · refine .inr ?_
      rw [Array.swapIfInBounds, dif_pos hi, dif_neg hj]
  · refine .inr ?_
    rw [Array.swapIfInBounds, dif_neg hi]

/-- The keys outside the range are what they were. -/
theorem keyAt_outside (h : Rearranged low high xs ys) (hk : k < low ∨ high ≤ k) :
    keyAt key ys k = keyAt key xs k := by
  induction h with
  | refl => rfl
  | @exchange ys i j _ hi hj ih =>
    rcases exchange_cases ys i j with ⟨hi', hj'⟩ | heq
    · rw [keyAt_exchange key hi' hj', if_neg (by omega), if_neg (by omega), ih]
    · rw [heq, ih]

/-- A key in the range stood there before. -/
theorem exists_keyAt_eq (h : Rearranged low high xs ys) (key : α → Nat) (hk : low ≤ k ∧ k < high) :
    ∃ k', (low ≤ k' ∧ k' < high) ∧ keyAt key ys k = keyAt key xs k' := by
  induction h generalizing k with
  | refl => exact ⟨k, hk, rfl⟩
  | @exchange ys i j _ hi hj ih =>
    rcases exchange_cases ys i j with ⟨hi', hj'⟩ | heq
    · rw [keyAt_exchange key hi' hj']
      split
      · exact ih hj
      · split
        · exact ih hi
        · exact ih hk
    · rw [heq]
      exact ih hk

/-- What holds of all keys in the range holds of them after exchanges in it. -/
theorem forall_keyAt (p : Nat → Prop) (h : Rearranged low high xs ys)
    (hp : ∀ k, low ≤ k → k < high → p (keyAt key xs k)) :
    ∀ k, low ≤ k → k < high → p (keyAt key ys k) := by
  intro k hlow hhigh
  obtain ⟨k', hk', heq⟩ := h.exists_keyAt_eq key ⟨hlow, hhigh⟩
  rw [heq]
  exact hp k' hk'.1 hk'.2

end Rearranged

/-! ## Sorted ranges -/

/-- The keys at the places from `low` to before `high` never go down. -/
def SortedOn (key : α → Nat) (low high : Nat) (xs : Array α) : Prop :=
  ∀ i j, low ≤ i → i ≤ j → j < high → keyAt key xs i ≤ keyAt key xs j

/-- What stands from `low` to before `mid` is not larger than what stands from `mid` to before
`high`. -/
def Apart (key : α → Nat) (low mid high : Nat) (xs : Array α) : Prop :=
  ∀ i j, low ≤ i → i < mid → mid ≤ j → j < high → keyAt key xs i ≤ keyAt key xs j

/-- The second array is the first one with the range from `low` to before `high` sorted. -/
structure Sorts (key : α → Nat) (low high : Nat) (xs ys : Array α) : Prop where
  rearranged : Rearranged low high xs ys
  sorted : SortedOn key low high ys

theorem Sorts.of_rearranged (hr : Rearranged low high xs ys) (h : Sorts key low high ys zs) :
    Sorts key low high xs zs :=
  ⟨hr.trans h.rearranged, h.sorted⟩

theorem Apart.of_rearranged_left (h : Apart key low mid high xs) (hr : Rearranged low mid xs ys) :
    Apart key low mid high ys := by
  intro i j hi him hj hjh
  rw [hr.keyAt_outside (.inr hj)]
  exact hr.forall_keyAt (· ≤ keyAt key xs j) (fun k hlow hk => h k j hlow hk hj hjh) i hi him

theorem Apart.of_rearranged_right (h : Apart key low mid high xs) (hr : Rearranged mid high xs ys) :
    Apart key low mid high ys := by
  intro i j hi him hj hjh
  rw [hr.keyAt_outside (.inl him)]
  exact hr.forall_keyAt (keyAt key xs i ≤ ·) (fun k hk hhigh => h i k hi him hk hhigh) j hj hjh

/-- A range of one element is sorted. -/
theorem sortedOn_of_le (h : high ≤ low + 1) : SortedOn key low high xs := by
  intro i j hi hij hj
  have heq : i = j := by omega
  exact Nat.le_of_eq (congrArg (keyAt key xs) heq)

/-- Two sorted ranges side by side, the smaller elements in the first one, are a sorted range. -/
theorem SortedOn.append (h : SortedOn key low mid xs) (h' : SortedOn key mid high xs)
    (hapart : Apart key low mid high xs) : SortedOn key low high xs := by
  intro i j hi hij hj
  by_cases hjm : j < mid
  · exact h i j hi hij hjm
  · by_cases him : i < mid
    · exact hapart i j hi him (by omega) hj
    · exact h' i j (by omega) hij hj

/-- A sorted range grows by an element that is not smaller than any in it. -/
theorem SortedOn.concat (h : SortedOn key low high xs)
    (hlast : ∀ k, low ≤ k → k < high → keyAt key xs k ≤ keyAt key xs high) :
    SortedOn key low (high + 1) xs := by
  apply h.append (sortedOn_of_le (Nat.le_refl _))
  intro i j hi hih hj hjh
  have heq : j = high := by omega
  rw [heq]
  exact hlast i hi hih

/-- Being sorted depends on the keys in the range. -/
theorem SortedOn.congr (h : SortedOn key low high xs)
    (heq : ∀ k, low ≤ k → k < high → keyAt key ys k = keyAt key xs k) : SortedOn key low high ys := by
  intro i j hi hij hj
  rw [heq i hi (by omega), heq j (by omega) hj]
  exact h i j hi hij hj

/-! ## Insertion -/

/-- Moving an element to the left puts it in its place in the sorted range before it. -/
theorem sorts_sinkLeft (hj : j < xs.size) (hsorted : SortedOn key low j xs) :
    Sorts key low (j + 1) xs (sinkLeft key low j xs) := by
  induction j generalizing xs with
  | zero => exact ⟨.refl, sortedOn_of_le (by omega)⟩
  | succ j ih =>
    rw [sinkLeft]
    by_cases hlow : low < j + 1
    · have hj' : j < xs.size := by omega
      have hkeys := keyAt_exchange key hj hj'
      cases hless : less key xs (j + 1) j with
      | false =>
        simp only [Bool.and_false, Bool.false_eq_true, if_false]
        refine ⟨.refl, hsorted.concat ?_⟩
        intro k hk hkj
        have hlast := (less_eq_false_iff hj).1 hless
        exact Nat.le_trans (hsorted k j hk (by omega) (by omega)) hlast
      | true =>
        simp only [hlow, decide_true, Bool.and_true, if_true]
        have hdrop := (less_iff hj).1 hless
        -- before the pair nothing is changed, so the smaller element moves on in a sorted range
        have hrest : SortedOn key low j (xs.swapIfInBounds (j + 1) j) := by
          intro a b ha hab hb
          rw [hkeys, hkeys, if_neg (by omega), if_neg (by omega), if_neg (by omega),
            if_neg (by omega)]
          exact hsorted a b ha hab (by omega)
        obtain ⟨hr, hs⟩ := ih (by rw [Array.size_swapIfInBounds]; exact hj') hrest
        have hpair : Rearranged low (j + 2) xs (xs.swapIfInBounds (j + 1) j) :=
          Rearranged.refl.exchange (by omega) (by omega)
        refine ⟨hpair.trans (hr.widen (Nat.le_refl _) (by omega)), hs.concat ?_⟩
        -- the larger element of the pair is the last one now
        rw [hr.keyAt_outside (.inr (Nat.le_refl _)), hkeys, if_pos rfl]
        apply hr.forall_keyAt (· ≤ keyAt key xs j)
        intro k hk hkj
        rw [hkeys, if_neg (by omega)]
        split
        · exact Nat.le_of_lt hdrop
        · exact hsorted k j hk (by omega) (by omega)
    · simp only [hlow, decide_false, Bool.false_and, Bool.false_eq_true, if_false]
      exact ⟨.refl, sortedOn_of_le (by omega)⟩

/-- A fold up a range of places keeps an invariant that every step takes one place further. -/
theorem foldl_range' {β : Type} (P : Nat → β → Prop) {f : β → Nat → β} {start count : Nat} {b : β}
    (hstep : ∀ i b, i < start + count → P i b → P (i + 1) (f b i)) (h : P start b) :
    P (start + count) ((List.range' start count).foldl f b) := by
  induction count with
  | zero => exact h
  | succ count ih =>
    rw [List.range'_concat, List.foldl_append, List.foldl_cons, List.foldl_nil, Nat.one_mul]
    exact hstep _ _ (Nat.lt_succ_self _) (ih fun i b hi => hstep i b (Nat.lt_succ_of_lt hi))

theorem sorts_insertion (hhigh : high ≤ xs.size) :
    Sorts key low high xs (insertion key low high xs) := by
  by_cases hlow : low < high
  · -- the sorted part of the range grows by one place with every element that is inserted
    have hend : low + 1 + (high - (low + 1)) = high := by omega
    suffices h : Sorts key low (low + 1 + (high - (low + 1))) xs (insertion key low high xs) by
      rwa [hend] at h
    apply foldl_range' (fun place ys => Sorts key low place xs ys)
      (h := ⟨.refl, sortedOn_of_le (Nat.le_refl _)⟩)
    intro i ys hi hys
    obtain ⟨hr, hs⟩ := sorts_sinkLeft (by rw [hys.rearranged.size_eq]; omega) hys.sorted
    exact ⟨(hys.rearranged.widen (Nat.le_refl _) (by omega)).trans hr, hs⟩
  · have hempty : high - (low + 1) = 0 := by omega
    rw [insertion, hempty]
    exact ⟨.refl, sortedOn_of_le (by omega)⟩

/-! ## Ranges that are nearly sorted -/

/-- In a range with nothing larger before it, an element on its way to the left stops at the start of
the range by itself. -/
theorem sinkLeft_zero_eq (habove : Apart key 0 low high xs) (hlow : low ≤ j) (hj : j < high)
    (hhigh : high ≤ xs.size) : sinkLeft key 0 j xs = sinkLeft key low j xs := by
  induction j generalizing xs with
  | zero => rfl
  | succ j ih =>
    rw [sinkLeft, sinkLeft]
    by_cases hlow' : low < j + 1
    · simp only [Nat.zero_lt_succ, hlow', decide_true, Bool.true_and]
      split
      · have hpair : Rearranged low high xs (xs.swapIfInBounds (j + 1) j) :=
          Rearranged.refl.exchange (by omega) (by omega)
        exact ih (habove.of_rearranged_right hpair) (by omega) (by omega)
          (by rw [hpair.size_eq]; exact hhigh)
      · rfl
    · -- the element has come to the start of the range
      have hstop : less key xs (j + 1) j = false :=
        (less_eq_false_iff (by omega)).2 (habove j (j + 1) (Nat.zero_le _) (by omega) hlow hj)
      simp [hstop]

theorem rearranged_sinkRight {n : Nat} (hlow : low < j) (hhigh : j + n ≤ high) :
    Rearranged low high xs (sinkRight key n j xs) := by
  induction n generalizing j xs with
  | zero => exact .refl
  | succ n ih =>
    rw [sinkRight]
    split
    · exact (Rearranged.refl.exchange (by omega) (by omega)).trans (ih (by omega) (by omega))
    · exact .refl

/-- Up to the first drop the keys never go down. -/
theorem firstDrop_spec {n : Nat} (hlow : low < i) (hsize : i + n ≤ xs.size)
    (hsorted : SortedOn key low i xs) :
    (i ≤ firstDrop key xs n i ∧ firstDrop key xs n i ≤ i + n) ∧
      SortedOn key low (firstDrop key xs n i) xs := by
  induction n generalizing i with
  | zero => exact ⟨⟨Nat.le_refl _, Nat.le_refl _⟩, hsorted⟩
  | succ n ih =>
    rw [firstDrop]
    cases hless : less key xs i (i - 1) with
    | true =>
      rw [if_pos rfl]
      exact ⟨⟨Nat.le_refl _, by omega⟩, hsorted⟩
    | false =>
      rw [if_neg Bool.false_ne_true]
      have hstep := (less_eq_false_iff (by omega)).1 hless
      have hnext : SortedOn key low (i + 1) xs := by
        apply hsorted.concat
        intro k hk hki
        exact Nat.le_trans (hsorted k (i - 1) hk (by omega) (by omega)) hstep
      obtain ⟨hbounds, hs⟩ := ih (by omega) (by omega) hnext
      exact ⟨by omega, hs⟩

/-- Mending behind a sorted part of a range keeps that part sorted. -/
theorem mend_spec (habove : Apart key 0 low high xs) (hi : low < i ∧ i < high)
    (hhigh : high ≤ xs.size) (hsorted : SortedOn key low i xs) :
    Rearranged low high xs (mend key low high i xs) ∧
      SortedOn key low i (mend key low high i xs) := by
  have hpair : Rearranged low high xs (xs.swapIfInBounds i (i - 1)) :=
    Rearranged.refl.exchange (by omega) (by omega)
  have hrest : SortedOn key low (i - 1) (xs.swapIfInBounds i (i - 1)) := by
    intro a b ha hab hb
    rw [keyAt_exchange key (by omega) (by omega), keyAt_exchange key (by omega) (by omega),
      if_neg (by omega), if_neg (by omega), if_neg (by omega), if_neg (by omega)]
    exact hsorted a b ha hab (by omega)
  rw [mend]
  generalize xs.swapIfInBounds i (i - 1) = ys at hpair hrest
  have hsize := hpair.size_eq
  -- the smaller element of the pair goes to its place in the sorted part
  have hleft : Sorts key low i ys (if 2 ≤ i - low then sinkLeft key 0 (i - 1) ys else ys) := by
    split
    · rw [sinkLeft_zero_eq (habove.of_rearranged_right hpair) (by omega) (by omega) (by omega)]
      have hsorts := sorts_sinkLeft (by omega) hrest
      have hplace : i - 1 + 1 = i := by omega
      rwa [hplace] at hsorts
    · exact ⟨.refl, sortedOn_of_le (by omega)⟩
  generalize (if 2 ≤ i - low then sinkLeft key 0 (i - 1) ys else ys) = zs at hleft
  -- the larger one goes away from it
  have hright : Rearranged i high zs
      (if 2 ≤ high - i then sinkRight key (high - (i + 1)) (i + 1) zs else zs) := by
    split
    · exact rearranged_sinkRight (by omega) (by omega)
    · exact .refl
  refine ⟨?_, hleft.sorted.congr fun k _ hk => hright.keyAt_outside (.inl hk)⟩
  exact (hpair.trans (hleft.rearranged.widen (Nat.le_refl _) (by omega))).trans
    (hright.widen (by omega) (Nat.le_refl _))

/-- A try at a range that looks sorted rearranges it, and what it reports as sorted is sorted. -/
theorem nearlySorted_spec (tries : Nat) (habove : Apart key 0 low high xs) (hi : low < i ∧ i ≤ high)
    (hhigh : high ≤ xs.size) (hsorted : SortedOn key low i xs) :
    Rearranged low high xs (nearlySorted key low high tries i xs).2 ∧
      ((nearlySorted key low high tries i xs).1 = true →
        SortedOn key low high (nearlySorted key low high tries i xs).2) := by
  induction tries generalizing i xs with
  | zero => exact ⟨.refl, fun h => absurd h Bool.false_ne_true⟩
  | succ tries ih =>
    obtain ⟨hbounds, hs⟩ := firstDrop_spec (n := high - i) hi.1 (by omega) hsorted
    rw [nearlySorted]
    generalize firstDrop key xs (high - i) i = drop at hbounds hs
    by_cases hend : drop = high
    · rw [if_pos hend]
      subst hend
      exact ⟨.refl, fun _ => hs⟩
    · rw [if_neg hend]
      split
      · exact ⟨.refl, fun h => absurd h Bool.false_ne_true⟩
      · obtain ⟨hmend, hkept⟩ := mend_spec habove (by omega) hhigh hs
        obtain ⟨hr, hdone⟩ := ih (habove.of_rearranged_right hmend) (by omega)
          (by rw [hmend.size_eq]; exact hhigh) hkept
        exact ⟨hmend.trans hr, hdone⟩

end Sorting
end MiniLua

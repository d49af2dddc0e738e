import MiniLua.Proofs.Exchanges

/-!
# Sorting by way of a heap

In a heap no element is smaller than its children, so the largest one is at the root. While an
element is moved down, one place breaks this order: its element may be smaller than its children.
They are not larger than the parent of that place, and so the larger one of them can take the place.

The range is made a heap from its last parent back to the root. Then the root goes behind the heap,
which is one element shorter, again and again: behind the heap stand the largest elements in order.

## Delivered

- `Sorting.HeapFrom`, `Sorting.HeapBut`: heaps, and heaps with one place out of order.
- `Sorting.HeapBut.move`, `Sorting.siftDown_spec`: moving an element down mends a heap.
- `Sorting.sorts_heap`: a range is sorted by way of a heap.
-/

set_option autoImplicit false

namespace MiniLua
namespace Sorting

variable {α : Type} {key : α → Nat} {xs ys : Array α} {low high size first hole : Nat}

/-! ## Heaps -/

/-- One place of a heap is a child of another. -/
def IsChild (c p : Nat) : Prop :=
  c = 2 * p + 1 ∨ c = 2 * p + 2

/-- In a heap of `size` elements from `low` on, no element from the place `first` on is smaller than
its children. -/
def HeapFrom (key : α → Nat) (low size first : Nat) (xs : Array α) : Prop :=
  ∀ p c, first ≤ p → IsChild c p → c < size → keyAt key xs (low + c) ≤ keyAt key xs (low + p)

/-- From the place `first` on a heap is in order but for the element at the place `hole`, which may
be smaller than its children. These are not larger than the parent of that place. -/
structure HeapBut (key : α → Nat) (low size first hole : Nat) (xs : Array α) : Prop where
  rest : ∀ p c, first ≤ p → p ≠ hole → IsChild c p → c < size →
    keyAt key xs (low + c) ≤ keyAt key xs (low + p)
  grand : ∀ p c, first ≤ p → IsChild hole p → IsChild c hole → c < size →
    keyAt key xs (low + c) ≤ keyAt key xs (low + p)

/-- The root of a heap is not smaller than any element of it. -/
theorem HeapFrom.le_root (h : HeapFrom key low size 0 xs) {c : Nat} (hc : c < size) :
    keyAt key xs (low + c) ≤ keyAt key xs low := by
  induction c using Nat.strongRecOn with
  | ind c ih =>
    by_cases hzero : c = 0
    · exact Nat.le_of_eq (by rw [hzero, Nat.add_zero])
    · -- the parent is nearer to the root
      have hchild : IsChild c ((c - 1) / 2) := by
        unfold IsChild
        omega
      exact Nat.le_trans (h _ c (Nat.zero_le _) hchild hc) (ih _ (by omega) (by omega))

/-- Where the place out of order is not smaller than its children, the heap is in order. -/
theorem HeapBut.close (h : HeapBut key low size first hole xs)
    (hhole : ∀ c, IsChild c hole → c < size → keyAt key xs (low + c) ≤ keyAt key xs (low + hole)) :
    HeapFrom key low size first xs := by
  intro p c hp hc hsize
  by_cases hph : p = hole
  · rw [hph] at hc ⊢
    exact hhole c hc hsize
  · exact h.rest p c hp hph hc hsize

/-- Order from the next place on is order from a place on, but for that place. -/
theorem HeapFrom.heapBut (h : HeapFrom key low size (first + 1) xs) :
    HeapBut key low size first first xs where
  rest := by
    intro p c hp hne hc hsize
    exact h p c (by omega) hc hsize
  grand := by
    intro p c hp hparent
    unfold IsChild at hparent
    omega

/-- The larger child takes the place out of order, and its own place is out of order then. -/
theorem HeapBut.move (h : HeapBut key low size first hole xs) (hfirst : first ≤ hole) {m : Nat}
    (hm : IsChild m hole) (hmsize : m < size) (hsize : low + size ≤ xs.size)
    (hmax : ∀ c, IsChild c hole → c < size → keyAt key xs (low + c) ≤ keyAt key xs (low + m))
    (hlarger : keyAt key xs (low + hole) ≤ keyAt key xs (low + m)) :
    HeapBut key low size first m (xs.swapIfInBounds (low + hole) (low + m)) := by
  have hholem : hole < m := by
    unfold IsChild at hm
    omega
  have hholesize : low + hole < xs.size := by omega
  have hkeys := keyAt_exchange key hholesize (j := low + m) (by omega)
  have hat : ∀ t, t ≠ hole → t ≠ m →
      keyAt key (xs.swapIfInBounds (low + hole) (low + m)) (low + t) = keyAt key xs (low + t) := by
    intro t hth htm
    rw [hkeys, if_neg (by omega), if_neg (by omega)]
  have hathole : keyAt key (xs.swapIfInBounds (low + hole) (low + m)) (low + hole) =
      keyAt key xs (low + m) := by
    rw [hkeys, if_pos rfl]
  have hatm : keyAt key (xs.swapIfInBounds (low + hole) (low + m)) (low + m) =
      keyAt key xs (low + hole) := by
    rw [hkeys, if_neg (by omega), if_pos rfl]
  constructor
  case rest =>
    intro p c hp hpm hc hcsize
    by_cases hph : p = hole
    · -- the children of the place that was out of order
      subst hph
      rw [hathole]
      by_cases hcm : c = m
      · rw [hcm, hatm]
        exact hlarger
      · rw [hat c (by unfold IsChild at hc; omega) hcm]
        exact hmax c hc hcsize
    · rw [hat p hph hpm]
      by_cases hch : c = hole
      · -- that place itself, below its parent
        subst hch
        rw [hathole]
        exact h.grand p m hp hc hm hmsize
      · have hcm : c ≠ m := by
          unfold IsChild at hm hc
          omega
        rw [hat c hch hcm]
        exact h.rest p c hp hph hc hcsize
  case grand =>
    intro p c hp hparent hc hcsize
    have hph : p = hole := by
      unfold IsChild at hm hparent
      omega
    have hcm : m < c := by
      unfold IsChild at hc
      omega
    rw [hph, hathole, hat c (by omega) (by omega)]
    exact h.rest m c (by omega) (by omega) hc hcsize

/-! ## Moving down -/

/-- The larger child is a child, and not smaller than any. -/
theorem largerChild_spec (key : α → Nat) (hroot : 2 * hole + 1 < size)
    (hsize : low + size ≤ xs.size) :
    (IsChild (largerChild key low size hole xs) hole ∧ largerChild key low size hole xs < size) ∧
      ∀ c, IsChild c hole → c < size →
        keyAt key xs (low + c) ≤ keyAt key xs (low + largerChild key low size hole xs) := by
  have hleft : low + (2 * hole + 1) < xs.size := by omega
  rw [largerChild]
  by_cases hboth : 2 * hole + 1 + 1 < size
  · cases hless : less key xs (low + (2 * hole + 1)) (low + (2 * hole + 1) + 1) with
    | true =>
      rw [if_pos (by simp [hboth])]
      refine ⟨⟨.inr rfl, hboth⟩, ?_⟩
      rintro c (rfl | rfl) -
      · exact Nat.le_of_lt ((less_iff hleft).1 hless)
      · exact Nat.le_refl _
    | false =>
      rw [if_neg (by simp)]
      refine ⟨⟨.inl rfl, hroot⟩, ?_⟩
      rintro c (rfl | rfl) -
      · exact Nat.le_refl _
      · exact (less_eq_false_iff hleft).1 hless
  · rw [if_neg (by simp [hboth])]
    refine ⟨⟨.inl rfl, hroot⟩, ?_⟩
    rintro c (rfl | rfl) hc
    · exact Nat.le_refl _
    · exact absurd hc hboth

/-- Moving the element out of order down puts the heap in order. -/
theorem siftDown_spec {n : Nat} (h : HeapBut key low size first hole xs) (hfirst : first ≤ hole)
    (hn : size ≤ hole + n) (hsize : low + size ≤ xs.size) :
    Rearranged low (low + size) xs (siftDown key low size n hole xs) ∧
      HeapFrom key low size first (siftDown key low size n hole xs) := by
  induction n generalizing hole xs with
  | zero =>
    refine ⟨.refl, h.close ?_⟩
    rintro c (rfl | rfl) hc <;> omega
  | succ n ih =>
    rw [siftDown]
    by_cases hleaf : size ≤ 2 * hole + 1
    · rw [if_pos hleaf]
      refine ⟨.refl, h.close ?_⟩
      rintro c (rfl | rfl) hc <;> omega
    · rw [if_neg hleaf]
      obtain ⟨⟨hchild, hchildsize⟩, hmax⟩ :=
        largerChild_spec key (Nat.lt_of_not_le hleaf) hsize
      generalize largerChild key low size hole xs = m at hchild hchildsize hmax
      dsimp only
      have hholem : hole < m := by
        unfold IsChild at hchild
        omega
      cases hless : less key xs (low + hole) (low + m) with
      | false =>
        rw [if_neg Bool.false_ne_true]
        refine ⟨.refl, h.close ?_⟩
        intro c hc hcsize
        exact Nat.le_trans (hmax c hc hcsize) ((less_eq_false_iff (by omega)).1 hless)
      | true =>
        rw [if_pos rfl]
        have hlarger := Nat.le_of_lt ((less_iff (by omega)).1 hless)
        have hpair : Rearranged low (low + size) xs (xs.swapIfInBounds (low + hole) (low + m)) :=
          Rearranged.refl.exchange (by omega) (by omega)
        obtain ⟨hr, hheap⟩ := ih (h.move hfirst hchild hchildsize hsize hmax hlarger) (by omega)
          (by omega) (by rw [hpair.size_eq]; exact hsize)
        exact ⟨hpair.trans hr, hheap⟩

/-! ## Making a heap, and taking it down -/

/-- A fold down the places before `count` keeps an invariant that every step takes one place down. -/
theorem foldl_range_reverse {β : Type} (P : Nat → β → Prop) {f : β → Nat → β} {count : Nat} {b : β}
    (hstep : ∀ i b, i < count → P (i + 1) b → P i (f b i)) (h : P count b) :
    P 0 ((List.range count).reverse.foldl f b) := by
  induction count generalizing b with
  | zero => exact h
  | succ count ih =>
    rw [List.range_succ, List.reverse_append, List.reverse_singleton, List.singleton_append,
      List.foldl_cons]
    exact ih (fun i b hi => hstep i b (Nat.lt_succ_of_lt hi)) (hstep count b (Nat.lt_succ_self _) h)

/-- From the last parent back to the root, each element that is moved down puts one more place in
order. -/
theorem makeHeap_spec (key : α → Nat) (hsize : low + size ≤ xs.size) :
    Rearranged low (low + size) xs (makeHeap key low size xs) ∧
      HeapFrom key low size 0 (makeHeap key low size xs) := by
  apply foldl_range_reverse fun first ys =>
    Rearranged low (low + size) xs ys ∧ HeapFrom key low size first ys
  · rintro i ys hi ⟨hr, hheap⟩
    obtain ⟨hr', hheap'⟩ := siftDown_spec (n := size) hheap.heapBut (Nat.le_refl _) (by omega)
      (by rw [hr.size_eq]; exact hsize)
    exact ⟨hr.trans hr', hheap'⟩
  · -- places behind the last parent have no children
    refine ⟨.refl, ?_⟩
    rintro p c hp (rfl | rfl) hc <;> omega

/-- The range with the heap in its first `count` places, and behind the heap the largest elements in
order. -/
structure TakenDown (key : α → Nat) (low high : Nat) (xs : Array α) (count : Nat) (ys : Array α) :
    Prop where
  rearranged : Rearranged low high xs ys
  heap : HeapFrom key low count 0 ys
  sorted : SortedOn key (low + count) high ys
  apart : Apart key low (low + count) high ys

/-- With the root put behind the heap, what is behind the heap is in order, and only the new root is
out of order in it. -/
theorem TakenDown.exchange {count : Nat} (h : TakenDown key low high xs (count + 1) ys)
    (hcount : low + count < high) (hhigh : high ≤ xs.size) :
    (SortedOn key (low + count) high (ys.swapIfInBounds low (low + count)) ∧
        Apart key low (low + count) high (ys.swapIfInBounds low (low + count))) ∧
      HeapBut key low count 0 0 (ys.swapIfInBounds low (low + count)) := by
  have hsize := h.rearranged.size_eq
  have hpair : Rearranged low (low + (count + 1)) ys (ys.swapIfInBounds low (low + count)) :=
    Rearranged.refl.exchange (by omega) (by omega)
  have hlow : low < ys.size := by omega
  have hkeys := keyAt_exchange key hlow (j := low + count) (by omega)
  generalize ys.swapIfInBounds low (low + count) = zs at hpair hkeys ⊢
  have hroot : keyAt key zs (low + count) = keyAt key ys low := by
    rw [hkeys]
    split
    next heq => rw [heq]
    next => rw [if_pos rfl]
  have hbehind : ∀ k, low + (count + 1) ≤ k → keyAt key zs k = keyAt key ys k := fun k hk =>
    hpair.keyAt_outside (.inr hk)
  refine ⟨⟨?_, ?_⟩, ?_⟩
  · apply SortedOn.append (sortedOn_of_le (Nat.le_refl _))
    · exact h.sorted.congr fun k hk _ => hbehind k hk
    · intro i j hi hic hj hjh
      have heq : i = low + count := by omega
      rw [heq, hroot, hbehind j hj]
      exact h.apart low j (Nat.le_refl _) (by omega) hj hjh
  · intro i j hi hic hj hjh
    by_cases hjc : j = low + count
    · -- no element of the heap is larger than the root was
      rw [hjc, hroot]
      apply hpair.forall_keyAt (· ≤ keyAt key ys low) _ i hi (by omega)
      intro k hk hkc
      have hplace : low + (k - low) = k := by omega
      rw [← hplace]
      exact h.heap.le_root (by omega)
    · rw [hbehind j (by omega)]
      exact hpair.forall_keyAt (· ≤ keyAt key ys j)
        (fun k hk hkc => h.apart k j hk hkc (by omega) hjh) i hi (by omega)
  · apply HeapFrom.heapBut
    intro p c hp hc hcc
    have hpc : p < c := by
      unfold IsChild at hc
      omega
    rw [hkeys, hkeys, if_neg (by omega), if_neg (by omega), if_neg (by omega), if_neg (by omega)]
    exact h.heap p c (Nat.zero_le _) hc (by omega)

/-- Putting the root behind the heap, and the element from there in its place. -/
theorem TakenDown.step {count : Nat} (h : TakenDown key low high xs (count + 1) ys)
    (hcount : low + count < high) (hhigh : high ≤ xs.size) :
    TakenDown key low high xs count
      (siftDown key low count (high - low) 0 (ys.swapIfInBounds low (low + count))) := by
  have hpair : Rearranged low high ys (ys.swapIfInBounds low (low + count)) :=
    Rearranged.refl.exchange (by omega) (by omega)
  have hrearranged := h.rearranged.trans hpair
  obtain ⟨⟨hsorted, hapart⟩, hbut⟩ := h.exchange hcount hhigh
  obtain ⟨hr, hheap⟩ := siftDown_spec (n := high - low) hbut (Nat.le_refl _) (by omega)
    (by rw [hrearranged.size_eq]; omega)
  exact
    { rearranged := hrearranged.trans (hr.widen (Nat.le_refl _) (by omega))
      heap := hheap
      sorted := hsorted.congr fun k hk _ => hr.keyAt_outside (.inr hk)
      apart := hapart.of_rearranged_left hr }

theorem sorts_heap (hlow : low ≤ high) (hhigh : high ≤ xs.size) :
    Sorts key low high xs (heap key low high xs) := by
  have hend : low + (high - low) = high := by omega
  have hfits : low + (high - low) ≤ xs.size := by omega
  have hmade := makeHeap_spec key hfits
  rw [hend] at hmade
  have hdown : TakenDown key low high xs 0 (heap key low high xs) := by
    apply foldl_range_reverse (TakenDown key low high xs)
    · intro i ys hi hys
      exact hys.step (by omega) hhigh
    · exact
        { rearranged := hmade.1
          heap := hmade.2
          sorted := sortedOn_of_le (by omega)
          apart := by
            intro i j hi him hj hjh
            omega }
  exact ⟨hdown.rearranged, hdown.sorted⟩

end Sorting
end MiniLua

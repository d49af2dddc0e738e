/-!
# Sorting in place

Elements are sorted by a key. Short ranges are sorted by insertion, so there equal elements keep
their order. A longer range is divided at one of its elements, the median of a few, and its parts
are sorted in turn; with every other division that is far from even, one try less is left, and then
the range is made a heap. A range that looks sorted is tried by insertion first, and one that looks
reversed is turned round.

Where equal elements of a long range come to stand depends on each of these steps. All of them are
fixed, and so is the result.

## Delivered

- `Sorting.insertion`, `Sorting.heap`: the two ways to sort a range outright.
- `Sorting.prepare`, `Sorting.divide`, `Sorting.partition`: preparing and dividing a range.
- `Sorting.range`: a sorted range.
- `sortByKey`: a sorted list.
-/

set_option autoImplicit false

namespace MiniLua

namespace Sorting

/-- The element at place `i` has a smaller key than the one at place `j`. -/
def less {α : Type} (key : α → Nat) (xs : Array α) (i j : Nat) : Bool :=
  match xs[i]?, xs[j]? with
  | some x, some y => key x < key y
  | _, _ => false

/-! ## Insertion -/

/-- Move the element at a place to the left while it is smaller than its neighbour, down to the
place `low`. -/
def sinkLeft {α : Type} (key : α → Nat) (low : Nat) : Nat → Array α → Array α
  | 0, xs => xs
  | j + 1, xs =>
    if low < j + 1 && less key xs (j + 1) j then sinkLeft key low j (xs.swapIfInBounds (j + 1) j)
    else xs

/-- Move the element at place `j - 1` to the right while its neighbour is smaller, `n` places at
most. -/
def sinkRight {α : Type} (key : α → Nat) : Nat → Nat → Array α → Array α
  | 0, _, xs => xs
  | n + 1, j, xs =>
    if less key xs j (j - 1) then sinkRight key n (j + 1) (xs.swapIfInBounds j (j - 1)) else xs

/-- Sort the places from `low` to before `high` by insertion. -/
def insertion {α : Type} (key : α → Nat) (low high : Nat) (xs : Array α) : Array α :=
  (List.range' (low + 1) (high - (low + 1))).foldl (fun xs i => sinkLeft key low i xs) xs

/-- The first place from `i` on, of the `n` places left, whose element is smaller than the one before
it. -/
def firstDrop {α : Type} (key : α → Nat) (xs : Array α) : Nat → Nat → Nat
  | 0, i => i
  | n + 1, i => if less key xs i (i - 1) then i else firstDrop key xs n (i + 1)

/-- Exchange the elements at a place and before it, and move the first of them to the left and the
second to the right, as far as they go. -/
def mend {α : Type} (key : α → Nat) (low high i : Nat) (xs : Array α) : Array α :=
  let xs := xs.swapIfInBounds i (i - 1)
  let xs := if 2 ≤ i - low then sinkLeft key 0 (i - 1) xs else xs
  if 2 ≤ high - i then sinkRight key (high - (i + 1)) (i + 1) xs else xs

/-- Sort a range that is nearly sorted, from place `i` on with a number of tries. The answer tells
whether it is sorted. Short ranges are not changed. -/
def nearlySorted {α : Type} (key : α → Nat) (low high : Nat) :
    Nat → Nat → Array α → Bool × Array α
  | 0, _, xs => (false, xs)
  | tries + 1, i, xs =>
    let i := firstDrop key xs (high - i) i
    if i = high then (true, xs)
    else if high - low < 50 then (false, xs)
    else nearlySorted key low high tries i (mend key low high i xs)

/-! ## Heaps -/

/-- The child with the larger element of the place `root` in a heap of `size` elements, which has a
child. The heap starts at place `low`. -/
def largerChild {α : Type} (key : α → Nat) (low size root : Nat) (xs : Array α) : Nat :=
  let left := 2 * root + 1
  if left + 1 < size && less key xs (low + left) (low + left + 1) then left + 1 else left

/-- Move the element at place `root` of a heap of `size` elements down, below larger ones. -/
def siftDown {α : Type} (key : α → Nat) (low size : Nat) : Nat → Nat → Array α → Array α
  | 0, _, xs => xs
  | n + 1, root, xs =>
    if size ≤ 2 * root + 1 then xs
    else
      let child := largerChild key low size root xs
      if less key xs (low + root) (low + child) then
        siftDown key low size n child (xs.swapIfInBounds (low + root) (low + child))
      else xs

/-- Make the `size` elements from place `low` on a heap, from the last parent back to the root. -/
def makeHeap {α : Type} (key : α → Nat) (low size : Nat) (xs : Array α) : Array α :=
  (List.range ((size - 1) / 2 + 1)).reverse.foldl (fun xs i => siftDown key low size size i xs) xs

/-- Sort the places from `low` to before `high` by way of a heap. The root of the heap goes behind
it, again and again. -/
def heap {α : Type} (key : α → Nat) (low high : Nat) (xs : Array α) : Array α :=
  let size := high - low
  (List.range size).reverse.foldl
    (fun xs i => siftDown key low i size 0 (xs.swapIfInBounds low (low + i)))
    (makeHeap key low size xs)

/-! ## Dividing -/

/-- Two places in the order of their elements, and the number of exchanges after it. -/
def ordered {α : Type} (key : α → Nat) (xs : Array α) (i j swaps : Nat) : Nat × Nat × Nat :=
  if less key xs j i then (j, i, swaps + 1) else (i, j, swaps)

/-- The place of the median of three elements, and the number of exchanges after finding it. -/
def median {α : Type} (key : α → Nat) (xs : Array α) (i j k swaps : Nat) : Nat × Nat :=
  let (i, j, swaps) := ordered key xs i j swaps
  let (j, _, swaps) := ordered key xs j k swaps
  let (_, j, swaps) := ordered key xs i j swaps
  (j, swaps)

/-- The median of the element at a place and its neighbours. -/
def medianNear {α : Type} (key : α → Nat) (xs : Array α) (i swaps : Nat) : Nat × Nat :=
  median key xs (i - 1) i (i + 1) swaps

/-- How a range looks, by the exchanges that a median took. -/
inductive Look where
  | sorted
  | reversed
  | mixed
deriving DecidableEq

/-- Three places of a range to choose from, and the exchanges that finding them took. In a long
range each of them is the median of three neighbours. -/
def samples {α : Type} (key : α → Nat) (low high : Nat) (xs : Array α) : Nat × Nat × Nat × Nat :=
  let quarter := (high - low) / 4
  if 50 ≤ high - low then
    let near := medianNear key xs (low + quarter) 0
    let middle := medianNear key xs (low + quarter * 2) near.2
    let far := medianNear key xs (low + quarter * 3) middle.2
    (near.1, middle.1, far.1, far.2)
  else (low + quarter, low + quarter * 2, low + quarter * 3, 0)

/-- The place to divide a range at, which is the median of three, and how the range looks. -/
def pivot {α : Type} (key : α → Nat) (low high : Nat) (xs : Array α) : Nat × Look :=
  let (i, j, k, swaps) := samples key low high xs
  let m := median key xs i j k swaps
  (m.1, if m.2 = 0 then .sorted else if m.2 = 12 then .reversed else .mixed)

/-- The element at place `i` comes in front of the one at place `p`, where a range is divided: it is
smaller, or equal to it where equal elements come in front too. -/
def inFront {α : Type} (key : α → Nat) (equal : Bool) (xs : Array α) (p i : Nat) : Bool :=
  if equal then !less key xs p i else less key xs i p

/-- Pass over elements that come in front, from place `i` up to `j`. -/
def passFront {α : Type} (key : α → Nat) (equal : Bool) (xs : Array α) (p j : Nat) : Nat → Nat → Nat
  | 0, i => i
  | n + 1, i =>
    if i ≤ j && inFront key equal xs p i then passFront key equal xs p j n (i + 1) else i

/-- Pass over elements that do not come in front, from place `j` down to `i`. -/
def passBack {α : Type} (key : α → Nat) (equal : Bool) (xs : Array α) (p i : Nat) : Nat → Nat → Nat
  | 0, j => j
  | n + 1, j =>
    if i ≤ j && !inFront key equal xs p j then passBack key equal xs p i n (j - 1) else j

/-- A range that is divided: the last place of what comes in front, whether nothing was exchanged for
it, and the elements. -/
structure Division (α : Type) where
  last : Nat
  untouched : Bool
  elements : Array α

/-- Exchange elements between the places `i` and `j` until those that come in front of the one at
place `p` stand there. -/
def divideFrom {α : Type} (key : α → Nat) (equal : Bool) (p : Nat) :
    Nat → Bool → Nat → Nat → Array α → Division α
  | 0, untouched, _, j, xs => ⟨j, untouched, xs⟩
  | n + 1, untouched, i, j, xs =>
    let i := passFront key equal xs p j xs.size i
    let j := passBack key equal xs p i xs.size j
    if j < i then ⟨j, untouched, xs⟩
    else divideFrom key equal p n false (i + 1) (j - 1) (xs.swapIfInBounds i j)

/-- Divide a range at the element of a place, which is moved to the front of the range. -/
def divide {α : Type} (key : α → Nat) (equal : Bool) (low high place : Nat) (xs : Array α) :
    Division α :=
  divideFrom key equal low xs.size true (low + 1) (high - 1) (xs.swapIfInBounds low place)

/-- Divide a range at the element of a place: smaller elements come in front of it and all others
behind. -/
def partition {α : Type} (key : α → Nat) (low high place : Nat) (xs : Array α) : Division α :=
  let d := divide key false low high place xs
  { d with elements := d.elements.swapIfInBounds d.last low }

/-! ## Ranges -/

/-- Turn `n` pairs of elements round, from the places `i` and `j` inwards. -/
def reverseRange {α : Type} : Nat → Nat → Nat → Array α → Array α
  | 0, _, _, xs => xs
  | n + 1, i, j, xs =>
    if i < j then reverseRange n (i + 1) (j - 1) (xs.swapIfInBounds i j) else xs

/-- The number after another one in a sequence without a visible order. -/
def scrambled (n : UInt64) : UInt64 :=
  let n := n ^^^ (n <<< 13)
  let n := n ^^^ (n >>> 7)
  n ^^^ (n <<< 17)

/-- A number below a length, from any number. -/
def wrapped (length n : Nat) : Nat :=
  let n := n % Nat.pow 2 (Nat.log2 length + 1)
  if length ≤ n then n - length else n

/-- Exchange an element in the middle of a range with another one. The state holds the last number
of the sequence. -/
def scatterOne {α : Type} (low high : Nat) (state : UInt64 × Array α) (i : Nat) : UInt64 × Array α :=
  let length := high - low
  let random := scrambled state.1
  (random, state.2.swapIfInBounds (low + length / 4 * 2 - 1 - 1 + i)
    (low + wrapped length random.toNat))

/-- Exchange three elements in the middle of a range with others, to break a pattern that makes
divisions uneven. -/
def scatter {α : Type} (low high : Nat) (xs : Array α) : Array α :=
  ((List.range 3).foldl (scatterOne low high) (UInt64.ofNat (high - low), xs)).2

/-- Where a range is divided, whether it looks sorted, and its elements. -/
structure Choice (α : Type) where
  place : Nat
  promising : Bool
  elements : Array α

/-- Choose the place to divide a range at. A range that looks reversed is turned round. -/
def choose {α : Type} (key : α → Nat) (low high : Nat) (xs : Array α) : Choice α :=
  let p := pivot key low high xs
  if p.2 = .reversed then
    ⟨high - 1 - (p.1 - low), true, reverseRange (high - low) low (high - 1) xs⟩
  else ⟨p.1, p.2 = .sorted, xs⟩

/-- A range before it is divided: whether it is sorted already, where it is divided if not, and its
elements. -/
structure Preparation (α : Type) where
  done : Bool
  place : Nat
  elements : Array α

/-- Prepare a range for division. Its elements are scattered when the last division was uneven, and a
range that looks sorted after two good divisions is tried by insertion. -/
def prepare {α : Type} (key : α → Nat) (low high : Nat) (even divided : Bool) (xs : Array α) :
    Preparation α :=
  let choice := choose key low high (if even then xs else scatter low high xs)
  if even && divided && choice.promising then
    let attempt := nearlySorted key low high 5 (low + 1) choice.elements
    ⟨attempt.1, choice.place, attempt.2⟩
  else ⟨false, choice.place, choice.elements⟩

/-- Sort the places from `low` to before `high`. The number of tries counts uneven divisions; two
flags tell whether the last division was even, and whether it found the range divided already. -/
def range {α : Type} (key : α → Nat) :
    Nat → (low high tries : Nat) → (even divided : Bool) → Array α → Array α
  | 0, _, _, _, _, _, xs => xs
  | n + 1, low, high, tries, even, divided, xs =>
    let length := high - low
    if length ≤ 12 then insertion key low high xs
    else if tries = 0 then heap key low high xs
    else
      let tries := if even then tries else tries - 1
      let start := prepare key low high even divided xs
      if start.done then start.elements
      else if 0 < low && !less key start.elements (low - 1) start.place then
        -- nothing in the range is smaller than this element, so those equal to it come first
        let d := divide key true low high start.place start.elements
        range key n (d.last + 1) high tries even divided d.elements
      else
        let d := partition key low high start.place start.elements
        let left := d.last - low
        let right := high - d.last
        if left < right then
          let xs := range key n low d.last tries true true d.elements
          range key n (d.last + 1) high tries (length / 8 ≤ left) d.untouched xs
        else
          let xs := range key n (d.last + 1) high tries true true d.elements
          range key n low d.last tries (length / 8 ≤ right) d.untouched xs

end Sorting

/-- A list sorted by a key. As many uneven divisions are accepted as its length has binary digits. -/
def sortByKey {α : Type} (key : α → Nat) (xs : List α) : List α :=
  let size := xs.length
  let tries := if size = 0 then 0 else Nat.log2 size + 1
  (Sorting.range key (size + 1) 0 size tries true true xs.toArray).toList

end MiniLua

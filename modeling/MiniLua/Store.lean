import MiniLua.Misuse
import MiniLua.Sorting
import MiniLua.Text.Decimal
import MiniLua.Text.Quoted

/-!
# The variables

There are fifty-two variables, one for each ASCII letter, and each holds a word of thirty-two bits.
They live in slots: the lower-case letters first, then the upper-case ones. A byte that is no letter
names no slot.

## Delivered

- `Store`: the words in their slots; `Store.empty`: all of them zero.
- `Store.slot?`, `Store.letterOf`: letters and slots.
- `Store.fetch`, `Store.assign`: reading and writing by letter; `Store.assign_cases`: what a write
  changes.
- `Store.reset`: clearing all variables.
- `Store.snapshot`, `Store.letters`, `Store.snapshotText`: the variables that are not zero, in slot
  order.
- `Store.sortLetters`: bytes in slot order, those that name no slot first.
-/

set_option autoImplicit false

namespace MiniLua

/-- The words of the fifty-two variables. -/
structure Store where
  slots : Vector Int32 52

namespace Store

/-- Every variable is zero. -/
def empty : Store :=
  ⟨Vector.replicate 52 0⟩

/-- The slot that a byte names. -/
def slot? (letter : UInt8) : Option (Fin 52) :=
  if h : 97 ≤ letter.toNat ∧ letter.toNat ≤ 122 then some ⟨letter.toNat - 97, by omega⟩
  else if h : 65 ≤ letter.toNat ∧ letter.toNat ≤ 90 then some ⟨letter.toNat - 65 + 26, by omega⟩
  else none

/-- The letter of a slot. -/
def letterOf (i : Fin 52) : UInt8 :=
  if i.val < 26 then (97 + i.val).toUInt8 else (65 + (i.val - 26)).toUInt8

/-- The letter of the slot that a byte names is the byte. -/
theorem letterOf_of_slot? {letter : UInt8} {i : Fin 52} (h : slot? letter = some i) :
    letterOf i = letter := by
  have hlt := letter.toNat_lt
  apply UInt8.toNat_inj.1
  unfold slot? at h
  split at h
  · cases h
    have hlow : letter.toNat - 97 < 26 := by omega
    simp only [letterOf, hlow, if_true, Nat.toUInt8_eq, UInt8.toNat_ofNat']
    omega
  · split at h
    · cases h
      have hlow : ¬ letter.toNat - 65 + 26 < 26 := by omega
      simp only [letterOf, hlow, if_false, Nat.toUInt8_eq, UInt8.toNat_ofNat']
      omega
    · cases h

/-- The refusal of a byte that names no slot. -/
def noSlot (letter : UInt8) : Misuse :=
  ⟨"store", "invalid identifier argument " ++ Text.quoteByte letter⟩

/-- The value of a variable. -/
def fetch (s : Store) (letter : UInt8) : Except Misuse Int32 :=
  match slot? letter with
  | some i => .ok (s.slots.get i)
  | none => .error (noSlot letter)

/-- The store with a new value for one variable. -/
def assign (s : Store) (letter : UInt8) (value : Int32) : Except Misuse Store :=
  match slot? letter with
  | some i => .ok ⟨s.slots.set i.val value i.isLt⟩
  | none => .error (noSlot letter)

/-- A write goes to a slot or is refused, and which of the two depends on the letter alone. After
the write the letter has the new value, and every other letter what it had before. -/
theorem assign_cases (letter : UInt8) (value : Int32) :
    (∃ cause, ∀ s : Store, s.assign letter value = .error cause) ∨
      ∀ s : Store, ∃ s', s.assign letter value = .ok s' ∧
        ∀ c, s'.fetch c = if c = letter then .ok value else s.fetch c := by
  cases hslot : slot? letter with
  | none =>
    refine .inl ⟨noSlot letter, ?_⟩
    intro s
    rw [assign, hslot]
  | some i =>
    refine .inr ?_
    intro s
    refine ⟨⟨s.slots.set i.val value i.isLt⟩, by rw [assign, hslot], ?_⟩
    intro c
    by_cases hc : c = letter
    · rw [if_pos hc, hc, fetch, hslot]
      exact congrArg Except.ok (Vector.getElem_set_self i.isLt)
    · rw [if_neg hc, fetch, fetch]
      cases hslot' : slot? c with
      | none => rfl
      | some j =>
        -- another letter has another slot
        have hij : i.val ≠ j.val := by
          intro heq
          apply hc
          rw [← letterOf_of_slot? hslot', ← letterOf_of_slot? hslot, Fin.ext heq]
        exact congrArg Except.ok (Vector.getElem_set_ne i.isLt j.isLt hij)

/-- The store with every variable cleared. -/
def reset (_ : Store) : Store :=
  empty

/-- The variables that are not zero, with their values, in slot order. -/
def snapshot (s : Store) : List (UInt8 × Int32) :=
  (List.finRange 52).filterMap fun i =>
    let value := s.slots.get i
    if value = 0 then none else some (letterOf i, value)

/-- Where a byte stands in slot order; bytes that name no slot come first. -/
def rank (letter : UInt8) : Nat :=
  match slot? letter with
  | some i => i.val + 1
  | none => 0

/-- Bytes in slot order. -/
def sortLetters (letters : List UInt8) : List UInt8 :=
  sortByKey rank letters

/-- The letters of a snapshot in slot order, whatever order its entries come in. -/
def lettersOf (entries : List (UInt8 × Int32)) : List UInt8 :=
  sortLetters (entries.map Prod.fst)

/-- The variables that are not zero, in slot order. -/
def letters (s : Store) : List UInt8 :=
  lettersOf s.snapshot

/-- One variable and its value. -/
def entryText (letter : UInt8) (value : Int32) : String :=
  String.ofList (Char.ofNat letter.toNat :: '=' :: Text.decimal value.toInt)

/-- A snapshot in one line, in slot order. -/
def snapshotText (entries : List (UInt8 × Int32)) : String :=
  if entries.isEmpty then "(empty)"
  else " ".intercalate ((lettersOf entries).map fun letter =>
    entryText letter ((entries.lookup letter).getD 0))

end Store
end MiniLua

import MiniLua.Text.Decimal

/-!
# Numerals

A number has one numeral without superfluous zeros, and any other list of digits with the same value
differs from it by zeros in front. So writing a number and reading it gives the number back, and
reading digits and writing their value drops the zeros in front of them. The text of an integer is the
numeral of its size, behind a minus sign when it is negative.

## Delivered

- `ofList_decimal`: the text of an integer.
- `natural?_toDigits`: reading a numeral gives its number.
- `stripZeros`: digits without superfluous zeros in front.
- `toDigits_digitsValue`, `toDigits_of_natural?`: writing the value of digits drops their
  superfluous zeros.
-/

set_option autoImplicit false

namespace MiniLua.Text

/-- The characters of an integer make up its text. -/
theorem ofList_decimal (n : Int) : String.ofList (decimal n) = toString n := by
  cases n with
  | ofNat k => rfl
  | negSucc k =>
    rw [decimal, String.ofList_cons]
    rfl

/-- The codes of digits. -/
theorem isDigit_iff {c : Char} : isDigit c = true ↔ 48 ≤ c.toNat ∧ c.toNat ≤ 57 := by
  simp only [isDigit, Bool.and_eq_true, decide_eq_true_eq, Char.le_def, UInt32.le_iff_toNat_le]
  rfl

/-- The digits of a number are digits. -/
theorem isDigit_of_mem_toDigits {n : Nat} {c : Char} (h : c ∈ Nat.toDigits 10 n) :
    isDigit c = true := by
  have hc := Nat.isDigit_of_mem_toDigits (by decide) (by decide) h
  simpa only [Char.isDigit, isDigit, Char.le_def] using hc

/-- Reading a numeral gives its number. -/
theorem natural?_toDigits (n : Nat) : natural? (Nat.toDigits 10 n) = some n := by
  have hdigits : (Nat.toDigits 10 n).all isDigit = true :=
    List.all_eq_true.2 fun c hc => isDigit_of_mem_toDigits hc
  have hvalue : digitsValue 0 (Nat.toDigits 10 n) = n := Nat.ofDigitChars_ten_toDigits
  rw [natural?, if_pos ⟨Nat.toDigits_ne_nil, hdigits⟩, hvalue]

/-- The value of digits is that of the first digit, followed by the others. -/
theorem digitsValue_cons (v : Nat) (c : Char) (cs : List Char) :
    digitsValue v (c :: cs) = digitsValue (10 * v + digitValue c) cs :=
  List.foldl_cons

/-- The numeral of a single digit is that digit. -/
theorem toDigits_digitValue {c : Char} (hc : isDigit c = true) :
    Nat.toDigits 10 (digitValue c) = [c] := by
  have hcode := isDigit_iff.1 hc
  have htable : ∀ d < 10, Nat.toDigits 10 d = [Char.ofNat (48 + d)] := by decide
  have hlt : digitValue c < 10 := by
    show c.toNat - 48 < 10
    omega
  have hback : 48 + digitValue c = c.toNat := by
    show 48 + (c.toNat - 48) = c.toNat
    omega
  rw [htable _ hlt, hback, Char.ofNat_toNat]

/-- The digits behind a number that is not zero are the last digits of its numeral. -/
theorem toDigits_digitsValue_of_pos {v : Nat} (hv : 0 < v) {cs : List Char}
    (hcs : ∀ c ∈ cs, isDigit c = true) :
    Nat.toDigits 10 (digitsValue v cs) = Nat.toDigits 10 v ++ cs := by
  induction cs generalizing v with
  | nil => simp [digitsValue]
  | cons c cs ih =>
    have hc := hcs c List.mem_cons_self
    have hcode := isDigit_iff.1 hc
    have hlt : digitValue c < 10 := by
      show c.toNat - 48 < 10
      omega
    calc Nat.toDigits 10 (digitsValue v (c :: cs))
        = Nat.toDigits 10 (10 * v + digitValue c) ++ cs := by
          rw [digitsValue_cons]
          exact ih (by omega) fun d hd => hcs d (List.mem_cons_of_mem c hd)
      _ = Nat.toDigits 10 v ++ [c] ++ cs := by
          rw [← Nat.toDigits_append_toDigits (by decide) hv hlt, toDigits_digitValue hc]
      _ = Nat.toDigits 10 v ++ c :: cs := by
          rw [List.append_assoc, List.singleton_append]

/-- The digits without superfluous zeros in front. Of zeros only, one is left. -/
def stripZeros (cs : List Char) : List Char :=
  match cs.dropWhile (· = '0') with
  | [] => ['0']
  | c :: rest => c :: rest

/-- Writing the value of digits drops their superfluous zeros. -/
theorem toDigits_digitsValue {cs : List Char} (hcs : ∀ c ∈ cs, isDigit c = true) :
    Nat.toDigits 10 (digitsValue 0 cs) = stripZeros cs := by
  induction cs with
  | nil => rfl
  | cons c cs ih =>
    have hrest : ∀ d ∈ cs, isDigit d = true := fun d hd => hcs d (List.mem_cons_of_mem c hd)
    by_cases hzero : c = '0'
    -- a zero in front changes neither the value nor what is left of the digits
    · subst hzero
      exact ih hrest
    · have hc := hcs c List.mem_cons_self
      have hcode := isDigit_iff.1 hc
      have hne : c.toNat ≠ '0'.toNat := fun h => hzero (Char.toNat_inj.1 h)
      have hpos : 0 < digitValue c := by
        show 0 < c.toNat - '0'.toNat
        have : '0'.toNat = 48 := rfl
        omega
      have hstrip : stripZeros (c :: cs) = c :: cs := by
        simp [stripZeros, hzero]
      rw [hstrip, digitsValue_cons, Nat.mul_zero, Nat.zero_add,
        toDigits_digitsValue_of_pos hpos hrest, toDigits_digitValue hc, List.singleton_append]

/-- The number that digits are read as is written as these digits without superfluous zeros. -/
theorem toDigits_of_natural? {cs : List Char} {n : Nat} (h : natural? cs = some n) :
    Nat.toDigits 10 n = stripZeros cs := by
  rw [natural?] at h
  split at h
  · rename_i hcs
    cases h
    exact toDigits_digitsValue (List.all_eq_true.1 hcs.2)
  · cases h

end MiniLua.Text

import MiniLua.Proofs.Safety

/-!
# Words and integers

Expressions are computed on words of thirty-two bits, and every operator cuts its result to a word.
Cutting goes through sums, differences and products, so without a division it makes no difference
whether every result is cut or only the last one: the value is that of the expression over all
integers, cut once. A quotient is cut towards zero and then to a word, and a zero divisor anywhere in an
expression leaves the whole expression without a value.

## Delivered

- `ArithOp.onIntegers`, `Expr.unbounded`: expressions over all integers.
- `ArithOp.apply_ofInt`, `Expr.eval_eq_ofInt`: cutting once is enough without a division.
- `Expr.eval_division`: the value of a division.
- `Expr.eval_error_of_contains`, `Expr.eval_eq_divideByZero_iff`: zero divisors.
- `Expr.eval_exact`: what an expression gives, in every case.
-/

set_option autoImplicit false

namespace MiniLua

/-! ## Expressions over all integers -/

/-- An operator on integers without bounds. -/
def ArithOp.onIntegers (a b : Int) : ArithOp → Int
  | .add => a + b
  | .sub => a - b
  | .mul => a * b
  | .div => a.tdiv b
  | .other _ => 0

/-- The value of an expression over all integers, where the variables have the values of their words. -/
def Expr.unbounded (s : Store) : Expr → Int
  | .missing => 0
  | .var x =>
    match s.fetch x.letter with
    | .ok value => value.toInt
    | .error _ => 0
  | .lit value => value.toInt
  | .binary op left right _ => op.onIntegers (left.unbounded s) (right.unbounded s)

/-- There is no division in the expression. -/
def Expr.DivisionFree (e : Expr) : Prop :=
  ∀ dividend divisor bare, ¬ e.Contains (.binary .div dividend divisor bare)

/-- Cutting goes through an operator that is no division. -/
theorem ArithOp.apply_ofInt {op : ArithOp} (hop : op.isValid = true) (hdiv : op ≠ .div) (a b : Int) :
    op.apply (Int32.ofInt a) (Int32.ofInt b) = .ok (Int32.ofInt (op.onIntegers a b)) := by
  cases op with
  | add => exact congrArg Except.ok (Int32.ofInt_add a b).symm
  | sub => exact congrArg Except.ok (Int32.ofInt_sub a b).symm
  | mul => exact congrArg Except.ok (Int32.ofInt_mul a b).symm
  | div => exact absurd rfl hdiv
  | other text => cases hop

/-- An expression without a division has the value that it has over all integers, cut to a word. -/
theorem Expr.eval_eq_ofInt {e : Expr} (h : e.isWellFormed = true) (hfree : e.DivisionFree)
    (s : Store) : e.eval s = .ok (Int32.ofInt (e.unbounded s)) := by
  induction e with
  | missing => cases h
  | var x =>
    obtain ⟨value, hvalue⟩ := Ident.exists_fetch h s
    rw [Expr.eval, Expr.unbounded, hvalue, Int32.ofInt_toInt]
    rfl
  | lit value => rw [Expr.eval, Expr.unbounded, Int32.ofInt_toInt]
  | binary op left right bare ihl ihr =>
    simp only [Expr.isWellFormed, Bool.and_eq_true] at h
    obtain ⟨⟨⟨hop, hl⟩, hr⟩, -⟩ := h
    have hleft := ihl hl fun dividend divisor bare hnode => hfree dividend divisor bare (.left hnode)
    have hright := ihr hr fun dividend divisor bare hnode => hfree dividend divisor bare (.right hnode)
    have hdiv : op ≠ .div := by
      rintro rfl
      exact hfree left right bare (.self _)
    rw [Expr.eval, hleft, hright]
    exact ArithOp.apply_ofInt hop hdiv _ _

/-! ## Divisions -/

/-- A division gives the quotient, cut towards zero and then to a word. -/
theorem Expr.eval_division {dividend divisor : Expr} {s : Store} {a b : Int32}
    (ha : dividend.eval s = .ok a) (hb : divisor.eval s = .ok b) (hzero : b ≠ 0) (bare : Bool) :
    ∃ v, (Expr.binary .div dividend divisor bare).eval s = .ok v ∧
      v.toInt = (a.toInt.tdiv b.toInt).bmod 4294967296 := by
  refine ⟨a / b, ?_, Int32.toInt_div a b⟩
  rw [Expr.eval, ha, hb]
  exact if_neg hzero

/-- A division by zero has no value. -/
theorem Expr.exists_eval_division_error {divisor : Expr} {s : Store} (h : divisor.eval s = .ok 0)
    (dividend : Expr) (bare : Bool) :
    ∃ fault, (Expr.binary .div dividend divisor bare).eval s = .error fault := by
  rw [Expr.eval]
  cases dividend.eval s with
  | error fault => exact ⟨fault, rfl⟩
  | ok a =>
    rw [h]
    exact ⟨.divideByZero, rfl⟩

/-- An expression has no value when one of its nodes has none. -/
theorem Expr.eval_error_of_contains {e node : Expr} (hnode : e.Contains node) {s : Store}
    {fault : Fault} (h : node.eval s = .error fault) : ∃ fault', e.eval s = .error fault' := by
  induction hnode with
  | self e => exact ⟨fault, h⟩
  | left _ ih =>
    obtain ⟨fault', hleft⟩ := ih h
    refine ⟨fault', ?_⟩
    rw [Expr.eval, hleft]
  | @right op left right e bare _ ih =>
    obtain ⟨fault', hright⟩ := ih h
    rw [Expr.eval, hright]
    -- the left operand is computed first and may have a fault of its own
    cases left.eval s with
    | error fault => exact ⟨fault, rfl⟩
    | ok a => exact ⟨fault', rfl⟩

/-- A well-formed expression fails exactly when one of its divisions has a divisor that is zero. -/
theorem Expr.eval_eq_divideByZero_iff {e : Expr} (h : e.isWellFormed = true) (s : Store) :
    e.eval s = .error .divideByZero ↔ ∃ dividend divisor bare,
      e.Contains (.binary .div dividend divisor bare) ∧ divisor.eval s = .ok 0 := by
  constructor
  · intro hfault
    obtain ⟨-, dividend, divisor, bare, a, hnode, -, hzero⟩ := dividesByZero_of_eval_error h hfault
    exact ⟨dividend, divisor, bare, hnode, hzero⟩
  · rintro ⟨dividend, divisor, bare, hnode, hzero⟩
    obtain ⟨fault, hdivision⟩ := exists_eval_division_error hzero dividend bare
    obtain ⟨fault', hfault⟩ := eval_error_of_contains hnode hdivision
    rw [hfault, (dividesByZero_of_eval_error h hfault).1]

/-- A well-formed expression crashes exactly when one of its divisions has a divisor that is zero, and
else it has a value. Without a division the value is the one over all integers, modulo the number of
words and between the least word and the largest. A division whose divisor is not zero gives the
quotient cut towards zero, brought between the bounds of words in the same way. -/
theorem Expr.eval_exact {e : Expr} (h : e.isWellFormed = true) (s : Store) :
    (e.eval s = .error .divideByZero ↔ ∃ dividend divisor bare,
      e.Contains (.binary .div dividend divisor bare) ∧ divisor.eval s = .ok 0) ∧
    (e.eval s ≠ .error .divideByZero → ∃ v, e.eval s = .ok v) ∧
    (e.DivisionFree → ∃ v, e.eval s = .ok v ∧ v.toInt = (e.unbounded s).bmod 4294967296) ∧
    ∀ dividend divisor bare a b, e.Contains (.binary .div dividend divisor bare) →
      dividend.eval s = .ok a → divisor.eval s = .ok b → b ≠ 0 →
      ∃ v, (Expr.binary .div dividend divisor bare).eval s = .ok v ∧
        v.toInt = (a.toInt.tdiv b.toInt).bmod 4294967296 := by
  refine ⟨eval_eq_divideByZero_iff h s, fun hcalm => ?_, fun hfree => ?_, ?_⟩
  · cases hvalue : e.eval s with
    | ok v => exact ⟨v, rfl⟩
    | error fault =>
      rw [hvalue, (dividesByZero_of_eval_error h hvalue).1] at hcalm
      exact absurd rfl hcalm
  · exact ⟨_, eval_eq_ofInt h hfree s, Int32.toInt_ofInt⟩
  · intro dividend divisor bare a b _ ha hb hzero
    exact eval_division ha hb hzero bare

example : (Expr.binary .div (.lit (-7)) (.lit 2)).eval .empty = .ok (-3) := rfl

/-- A product that is no word any more, and the one quotient that is none. -/
theorem Expr.eval_exact_out_of_bounds :
    ∃ product quotient s, product = Expr.binary .mul (.lit 100000) (.lit (-100000)) ∧
      quotient = Expr.binary .div (.lit (-2147483648)) (.lit (-1)) ∧ s = Store.empty ∧
      product.isWellFormed = true ∧ quotient.isWellFormed = true ∧ product.unbounded s = -10000000000 ∧
      (∃ v, product.eval s = .ok v ∧ v.toInt = -1410065408) ∧
      ∃ v, quotient.eval s = .ok v ∧ v.toInt = -2147483648 := by
  have hfree : (Expr.binary .mul (.lit 100000) (.lit (-100000))).DivisionFree := by
    intro dividend divisor bare hnode
    cases hnode with
    | left h => cases h
    | right h => cases h
  obtain ⟨-, -, hproduct, -⟩ := Expr.eval_exact
    (e := .binary .mul (.lit 100000) (.lit (-100000))) rfl .empty
  obtain ⟨-, -, -, hquotient⟩ := Expr.eval_exact
    (e := .binary .div (.lit (-2147483648)) (.lit (-1))) rfl .empty
  obtain ⟨v, hv, hproduct⟩ := hproduct hfree
  obtain ⟨w, hw, hquotient⟩ := hquotient _ _ _ _ _ (.self _) rfl rfl (by decide)
  refine ⟨_, _, _, rfl, rfl, rfl, rfl, rfl, by decide, ⟨v, hv, ?_⟩, w, hw, ?_⟩
  · rw [hproduct]
    decide
  · rw [hquotient]
    decide

end MiniLua

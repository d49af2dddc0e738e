import MiniLua.Proofs.Construction
import MiniLua.Proofs.Spelling
import MiniLua.Proofs.Numeral
import MiniLua.Syntax.Dump

/-!
# Trees from their dumps

The dump of a tree can be read in one way only. This is so at three levels. A character can be told from
its escape, whatever comes behind it, and no escape starts with the quote that ends a string. The text of
a value ends where the value ends, when no digit comes behind it; and behind an item or a field there is
always a comma or a bracket. And trees that passed the checks of their constructors have different values:
the label of a value says what was built, and the parts say from what.

## Delivered

- `Json.unescape_escape`, `Json.writeString_inj`: strings from their texts.
- `Json.writeInt_inj`: numbers from their texts.
- `Json.write_inj`, `Json.compact_inj`: values from their texts.
- `Expr.json_inj`, `Cond.json_inj`, `Stmt.json_inj`, `Block.json_inj`, `Program.json_inj`,
  `Node.json_inj`: trees from their values.
- `Node.eq_of_compact_eq`: trees from their dumps.
-/

set_option autoImplicit false

namespace MiniLua

/-! ## Strings -/

namespace Text

/-- The value of hexadecimal digits, if all of them are digits. -/
def hexNumber? (digits : List Char) : Option Nat :=
  digits.foldlM (fun value c => (hexValue? c).map fun d => value * 16 + d) 0

theorem hexValue?_hexDigit : ∀ d < 16, hexValue? (hexDigit d) = some d := by
  decide

/-- The digits of a value that has no more of them give the value back. -/
theorem hexNumber?_hexDigits {width n : Nat} (h : n < Nat.pow 16 width) :
    hexNumber? (hexDigits width n) = some n := by
  induction width generalizing n with
  | zero =>
    have hn : n = 0 := Nat.lt_one_iff.1 h
    rw [hn]
    rfl
  | succ width ih =>
    have hdiv : n / 16 < Nat.pow 16 width := by
      have hpow : n < Nat.pow 16 width * 16 := h
      omega
    have hmod : n % 16 < 16 := Nat.mod_lt n (by decide)
    have hfront := ih hdiv
    unfold hexNumber? at hfront
    rw [hexDigits, hexNumber?, List.foldlM_append, hfront]
    simp only [Option.bind_eq_bind, Option.bind_some, List.foldlM_cons, List.foldlM_nil,
      hexValue?_hexDigit _ hmod, Option.map_some]
    change some (n / 16 * 16 + n % 16) = some n
    congr 1
    omega

theorem length_hexDigits (width n : Nat) : (hexDigits width n).length = width := by
  induction width generalizing n with
  | zero => rfl
  | succ width ih => simp [hexDigits, ih]

end Text

namespace Json

/-- The character of a short escape. -/
def unescapeShort (letter : Char) : Char :=
  if letter = 'b' then '\x08'
  else if letter = 'f' then '\x0c'
  else if letter = 'n' then '\n'
  else if letter = 'r' then '\r'
  else if letter = 't' then '\t'
  else letter

/-- The character at the front of the inside of a string, and what comes behind it. There is none at
the quote that ends the string. -/
def unescape : List Char → Option (Char × List Char)
  | [] => none
  | '"' :: _ => none
  | '\\' :: 'u' :: rest =>
    (Text.hexNumber? (rest.take 4)).map fun n => (Char.ofNat n, rest.drop 4)
  | '\\' :: letter :: rest => some (unescapeShort letter, rest)
  | c :: rest => some (c, rest)

theorem unescape_code (rest : List Char) : unescape ('\\' :: 'u' :: rest) =
    (Text.hexNumber? (rest.take 4)).map fun n => (Char.ofNat n, rest.drop 4) :=
  rfl

theorem unescape_of_ne {c : Char} (hquote : c ≠ '"') (hslash : c ≠ '\\') (rest : List Char) :
    unescape (c :: rest) = some (c, rest) := by
  unfold unescape
  split <;> simp_all

/-- An escaped character is read back, whatever comes behind it. -/
theorem unescape_escape (c : Char) (rest : List Char) :
    unescape (escape c ++ rest) = some (c, rest) := by
  unfold escape
  split
  · rename_i h
    simp only [Bool.or_eq_true, decide_eq_true_eq] at h
    rcases h with rfl | rfl <;> rfl
  rename_i hplain
  split
  · subst_vars
    rfl
  split
  · subst_vars
    rfl
  split
  · subst_vars
    rfl
  split
  · subst_vars
    rfl
  split
  · subst_vars
    rfl
  split
  · -- four digits are enough for the characters that are written by their codes
    rename_i hcode
    have hlt : c.toNat < Nat.pow 16 4 := by
      simp only [Bool.or_eq_true, decide_eq_true_eq] at hcode
      rcases hcode with ((((hlow | rfl) | rfl) | rfl) | rfl) | rfl
      · exact Nat.lt_trans hlow (by decide)
      all_goals decide
    have hlength := Text.length_hexDigits 4 c.toNat
    rw [List.cons_append, List.cons_append, unescape_code, List.take_left' hlength,
      List.drop_left' hlength, Text.hexNumber?_hexDigits hlt, Option.map_some, Char.ofNat_toNat]
  · simp only [Bool.or_eq_true, decide_eq_true_eq, not_or] at hplain
    exact unescape_of_ne hplain.1 hplain.2 rest

/-- An escaped character can be told from any other, whatever comes behind them. -/
theorem escape_append_inj {c d : Char} {s t : List Char} (h : escape c ++ s = escape d ++ t) :
    c = d ∧ s = t := by
  have hread := congrArg unescape h
  rw [unescape_escape, unescape_escape] at hread
  exact Prod.mk.inj (Option.some.inj hread)

theorem escape_append_ne_quote (c : Char) (s t : List Char) : escape c ++ s ≠ '"' :: t := by
  intro h
  have hread := congrArg unescape h
  rw [unescape_escape] at hread
  cases hread

/-- The inside of a string ends at its quote. -/
theorem foldr_escape_inj {cs ds s t : List Char}
    (h : cs.foldr (fun c tail => escape c ++ tail) ('"' :: s) =
      ds.foldr (fun c tail => escape c ++ tail) ('"' :: t)) : cs = ds ∧ s = t := by
  induction cs generalizing ds with
  | nil =>
    cases ds with
    | nil => exact ⟨rfl, List.tail_eq_of_cons_eq h⟩
    | cons d ds => exact absurd h.symm (escape_append_ne_quote d _ _)
  | cons c cs ih =>
    cases ds with
    | nil => exact absurd h (escape_append_ne_quote c _ _)
    | cons d ds =>
      obtain ⟨rfl, hrest⟩ := escape_append_inj h
      obtain ⟨rfl, hbehind⟩ := ih hrest
      exact ⟨rfl, hbehind⟩

/-- A string ends where its text ends. -/
theorem writeString_inj {a b : String} {s t : List Char} (h : writeString a s = writeString b t) :
    a = b ∧ s = t := by
  obtain ⟨hchars, hbehind⟩ := foldr_escape_inj (List.tail_eq_of_cons_eq h)
  exact ⟨String.toList_inj.1 hchars, hbehind⟩

/-! ## Numbers -/

/-- No digit comes first. -/
def Stops (s : List Char) : Prop :=
  ∀ c ∈ s.head?, Text.isDigit c = false

theorem stops_cons {c : Char} (h : Text.isDigit c = false) (s : List Char) : Stops (c :: s) := by
  intro d hd
  cases hd
  exact h

/-- The digits of a number end where no further digit comes. -/
theorem toDigits_append_inj {m n : Nat} {s t : List Char} (hs : Stops s) (ht : Stops t)
    (h : Nat.toDigits 10 m ++ s = Nat.toDigits 10 n ++ t) : m = n ∧ s = t := by
  have hwhile : ∀ {k : Nat} {r : List Char}, Stops r →
      (Nat.toDigits 10 k ++ r).takeWhile Text.isDigit = Nat.toDigits 10 k := by
    intro k r hr
    rw [List.takeWhile_append_of_pos fun c hc => Text.isDigit_of_mem_toDigits hc]
    cases r with
    | nil => simp
    | cons c r => simp [hr c rfl]
  have hdigits : Nat.toDigits 10 m = Nat.toDigits 10 n := by
    rw [← hwhile hs, h, hwhile ht]
  have hvalue := congrArg Text.natural? hdigits
  rw [Text.natural?_toDigits, Text.natural?_toDigits] at hvalue
  rw [hdigits] at h
  exact ⟨Option.some.inj hvalue, List.append_cancel_left h⟩

/-- A number has a first digit. -/
theorem exists_toDigits_cons (n : Nat) :
    ∃ d ds, Nat.toDigits 10 n = d :: ds ∧ Text.isDigit d = true := by
  cases hdigits : Nat.toDigits 10 n with
  | nil => exact absurd hdigits Nat.toDigits_ne_nil
  | cons d ds =>
    refine ⟨d, ds, rfl, ?_⟩
    apply Text.isDigit_of_mem_toDigits (n := n)
    simp [hdigits]

/-- It is no minus sign. -/
theorem toDigits_append_ne_minus (n : Nat) (s t : List Char) : Nat.toDigits 10 n ++ s ≠ '-' :: t := by
  intro h
  obtain ⟨d, ds, hdigits, hd⟩ := exists_toDigits_cons n
  rw [hdigits] at h
  rw [List.head_eq_of_cons_eq h] at hd
  cases hd

/-- A number ends where no further digit comes. -/
theorem writeInt_inj {m n : Int} {s t : List Char} (hs : Stops s) (ht : Stops t)
    (h : writeInt m s = writeInt n t) : m = n ∧ s = t := by
  cases m with
  | ofNat m =>
    cases n with
    | ofNat n =>
      obtain ⟨rfl, hbehind⟩ := toDigits_append_inj hs ht h
      exact ⟨rfl, hbehind⟩
    | negSucc n => exact absurd h (toDigits_append_ne_minus m s _)
  | negSucc m =>
    cases n with
    | ofNat n => exact absurd h.symm (toDigits_append_ne_minus n t _)
    | negSucc n =>
      obtain ⟨hsucc, hbehind⟩ := toDigits_append_inj hs ht (List.tail_eq_of_cons_eq h)
      obtain rfl : m = n := Nat.succ.inj hsucc
      exact ⟨rfl, hbehind⟩

/-! ## Values -/

/-- The characters that the text of a value may start with. -/
def opens : Json → Char → Bool
  | .null, c => c = 'n'
  | .num _, c => Text.isDigit c || c = '-'
  | .str _, c => c = '"'
  | .arr _, c => c = '['
  | .obj _, c => c = '\x7b'

theorem exists_opens (v : Json) (s : List Char) :
    ∃ c t, v.write s = c :: t ∧ v.opens c = true := by
  cases v with
  | null => exact ⟨_, _, by rw [write], rfl⟩
  | num n =>
    cases n with
    | ofNat n =>
      obtain ⟨d, ds, hdigits, hd⟩ := exists_toDigits_cons n
      refine ⟨d, ds ++ s, ?_, by simp [opens, hd]⟩
      rw [write]
      change Nat.toDigits 10 n ++ s = d :: (ds ++ s)
      rw [hdigits, List.cons_append]
    | negSucc n => exact ⟨_, _, by rw [write]; rfl, rfl⟩
  | str text => exact ⟨_, _, by rw [write, writeString], rfl⟩
  | arr items => exact ⟨_, _, by rw [write], rfl⟩
  | obj fields => exact ⟨_, _, by rw [write], rfl⟩

theorem opens_of_write {v : Json} {c : Char} {s t : List Char} (h : v.write s = c :: t) :
    v.opens c = true := by
  obtain ⟨d, r, hwrite, hopens⟩ := v.exists_opens s
  rw [hwrite] at h
  rwa [List.head_eq_of_cons_eq h] at hopens

/-- What comes behind an item is a comma or the end of the array. -/
theorem stops_writeItems (items : List Json) (s : List Char) :
    Stops (writeItems items false (']' :: s)) := by
  cases items with
  | nil => exact stops_cons (by decide) s
  | cons v vs => exact stops_cons (by decide) _

/-- An item does not start as the end of an array does. -/
theorem writeItems_ne_close (v : Json) (vs : List Json) (first : Bool) (s t : List Char) :
    writeItems (v :: vs) first s ≠ ']' :: t := by
  intro h
  rw [writeItems] at h
  cases first with
  | false => cases h
  | true =>
    have hopens : v.opens ']' = true := opens_of_write h
    cases v <;> cases hopens

/-- What comes behind a field is a comma or the end of the object. -/
theorem stops_writeFields (fields : List (String × Json)) (s : List Char) :
    Stops (writeFields fields false ('\x7d' :: s)) := by
  cases fields with
  | nil => exact stops_cons (by decide) s
  | cons field fields => exact stops_cons (by decide) _

/-- A field does not start as the end of an object does. -/
theorem writeFields_ne_close (field : String × Json) (fields : List (String × Json)) (first : Bool)
    (s t : List Char) : writeFields (field :: fields) first s ≠ '\x7d' :: t := by
  intro h
  rw [writeFields] at h
  cases first <;> cases h

/-- The comma in front of what is not the first says nothing more. -/
theorem eq_of_separated {first : Bool} {s t : List Char}
    (h : (if first then s else ',' :: s) = if first then t else ',' :: t) : s = t := by
  cases first with
  | false => exact List.tail_eq_of_cons_eq h
  | true => exact h

/-- The form of the values whose texts start with a character: null, a number, a string, an array or an
object. -/
def formOf (c : Char) : Nat :=
  if c = 'n' then 0
  else if c = '"' then 2
  else if c = '[' then 3
  else if c = '\x7b' then 4
  else 1

theorem ctorIdx_of_opens {v : Json} {c : Char} (h : v.opens c = true) : v.ctorIdx = formOf c := by
  cases v with
  | num n =>
    have hne : ∀ d, (num n).opens d = false → c ≠ d := by
      rintro d hd rfl
      rw [h] at hd
      cases hd
    rw [formOf, if_neg (hne 'n' rfl), if_neg (hne '"' rfl), if_neg (hne '[' rfl),
      if_neg (hne '\x7b' rfl)]
    rfl
  | _ =>
    rw [of_decide_eq_true h]
    rfl

/-- Values with the same text are of the same form. -/
theorem ctorIdx_eq_of_write {v w : Json} {s t : List Char} (h : v.write s = w.write t) :
    v.ctorIdx = w.ctorIdx := by
  obtain ⟨c, r, hv, hopens⟩ := v.exists_opens s
  rw [hv] at h
  rw [ctorIdx_of_opens hopens, ctorIdx_of_opens (opens_of_write h.symm)]

-- One induction for values, items and fields, on the first of the two that are compared. The second
-- is of the same form, since the forms start with different characters.
mutual

/-- A value ends where its text ends, when no digit comes behind it. -/
theorem write_inj {v w : Json} {s t : List Char} (hs : Stops s) (ht : Stops t)
    (h : v.write s = w.write t) : v = w ∧ s = t := by
  have hform := ctorIdx_eq_of_write h
  cases v with
  | null =>
    cases w with
    | null =>
      simp only [write, List.cons.injEq, true_and] at h
      exact ⟨rfl, h⟩
    | _ => cases hform
  | num m =>
    cases w with
    | num n =>
      rw [write, write] at h
      obtain ⟨rfl, hbehind⟩ := writeInt_inj hs ht h
      exact ⟨rfl, hbehind⟩
    | _ => cases hform
  | str a =>
    cases w with
    | str b =>
      rw [write, write] at h
      obtain ⟨rfl, hbehind⟩ := writeString_inj h
      exact ⟨rfl, hbehind⟩
    | _ => cases hform
  | arr items =>
    cases w with
    | arr items' =>
      rw [write, write] at h
      obtain ⟨rfl, hbehind⟩ := writeItems_inj (List.tail_eq_of_cons_eq h)
      exact ⟨rfl, hbehind⟩
    | _ => cases hform
  | obj fields =>
    cases w with
    | obj fields' =>
      rw [write, write] at h
      obtain ⟨rfl, hbehind⟩ := writeFields_inj (List.tail_eq_of_cons_eq h)
      exact ⟨rfl, hbehind⟩
    | _ => cases hform

theorem writeItems_inj {items items' : List Json} {first : Bool} {s t : List Char}
    (h : writeItems items first (']' :: s) = writeItems items' first (']' :: t)) :
    items = items' ∧ s = t := by
  cases items with
  | nil =>
    cases items' with
    | nil =>
      rw [writeItems, writeItems] at h
      exact ⟨rfl, List.tail_eq_of_cons_eq h⟩
    | cons w ws =>
      rw [writeItems] at h
      exact absurd h.symm (writeItems_ne_close w ws first _ s)
  | cons v vs =>
    cases items' with
    | nil =>
      rw [writeItems.eq_1] at h
      exact absurd h (writeItems_ne_close v vs first _ t)
    | cons w ws =>
      rw [writeItems, writeItems] at h
      obtain ⟨rfl, hrest⟩ :=
        write_inj (stops_writeItems vs s) (stops_writeItems ws t) (eq_of_separated h)
      obtain ⟨rfl, hbehind⟩ := writeItems_inj hrest
      exact ⟨rfl, hbehind⟩

theorem writeFields_inj {fields fields' : List (String × Json)} {first : Bool} {s t : List Char}
    (h : writeFields fields first ('\x7d' :: s) = writeFields fields' first ('\x7d' :: t)) :
    fields = fields' ∧ s = t := by
  cases fields with
  | nil =>
    cases fields' with
    | nil =>
      rw [writeFields, writeFields] at h
      exact ⟨rfl, List.tail_eq_of_cons_eq h⟩
    | cons field fields =>
      rw [writeFields] at h
      exact absurd h.symm (writeFields_ne_close field fields first _ s)
  | cons field fields =>
    cases fields' with
    | nil =>
      rw [writeFields.eq_1] at h
      exact absurd h (writeFields_ne_close field fields first _ t)
    | cons field' fields' =>
      obtain ⟨key, v⟩ := field
      obtain ⟨key', w⟩ := field'
      rw [writeFields, writeFields] at h
      obtain ⟨rfl, hvalue⟩ := writeString_inj (eq_of_separated h)
      obtain ⟨rfl, hrest⟩ := write_inj (stops_writeFields fields s) (stops_writeFields fields' t)
        (List.tail_eq_of_cons_eq hvalue)
      obtain ⟨rfl, hbehind⟩ := writeFields_inj hrest
      exact ⟨rfl, hbehind⟩

end

/-- A value has its text for itself. -/
theorem compact_inj {v w : Json} (h : v.compact = w.compact) : v = w := by
  have hempty : Stops [] := by
    intro c hc
    cases hc
  exact (write_inj hempty hempty (String.ofList_injective h)).1

end Json

/-! ## Trees -/

theorem labelled_inj {a b : String} {parts parts' : List (String × Json)} :
    labelled a false parts = labelled b false parts' ↔ a = b ∧ parts = parts' := by
  simp [labelled, shownLabel]

/-- The label of the type of a tree, whether it was checked or not. -/
def Node.title : Node → String
  | .expr .missing | .cond .missing | .stmt .missing | .block .missing => ""
  | .expr (.var _) => "Identifier"
  | .expr (.lit _) => "IntegerLiteral"
  | .expr (.binary ..) => "BinaryExpression"
  | .cond (.compare ..) => "BooleanExpression"
  | .stmt (.assign ..) => "AssignmentStatement"
  | .stmt (.print ..) => "PrintStatement"
  | .stmt (.branch ..) => "IfStatement"
  | .stmt (.loopWhile ..) => "WhileStatement"
  | .stmt (.loopUntil ..) => "RepeatStatement"
  | .block (.seq ..) => "Block"
  | .program _ => "Program"

/-- A checked tree shows the label of its type. -/
theorem Node.exists_json {n : Node} (h : n.isWellFormed = true) :
    ∃ parts, n.json = labelled n.title false parts := by
  cases n with
  | expr e =>
    cases e with
    | missing => cases h
    | var x =>
      have hbare : x.bare = false := by
        simp only [Node.isWellFormed, Expr.isWellFormed, Ident.isWellFormed, Bool.and_eq_true,
          Bool.not_eq_true'] at h
        exact h.2
      exact ⟨_, by rw [Node.json, Expr.json, Ident.json, hbare]; rfl⟩
    | lit n => exact ⟨_, rfl⟩
    | binary op left right bare =>
      simp only [Node.isWellFormed, Expr.isWellFormed, Bool.and_eq_true, Bool.not_eq_true'] at h
      obtain ⟨-, rfl⟩ := h
      exact ⟨_, rfl⟩
  | cond c =>
    cases c with
    | missing => cases h
    | compare op left right bare =>
      simp only [Node.isWellFormed, Cond.isWellFormed, Bool.and_eq_true, Bool.not_eq_true'] at h
      obtain ⟨-, rfl⟩ := h
      exact ⟨_, rfl⟩
  | stmt s =>
    cases s with
    | missing => simp [Node.isWellFormed, Stmt.isWellFormed] at h
    | _ =>
      simp only [Node.isWellFormed, Stmt.isWellFormed, Bool.and_eq_true, Bool.not_eq_true'] at h
      obtain ⟨-, rfl⟩ := h
      exact ⟨_, by rw [Node.json, Stmt.json]; rfl⟩
  | block b =>
    cases b with
    | missing => simp [Node.isWellFormed, Block.isWellFormed] at h
    | seq stmts bare =>
      simp only [Node.isWellFormed, Block.isWellFormed, Bool.and_eq_true, Bool.not_eq_true'] at h
      obtain ⟨-, rfl⟩ := h
      exact ⟨_, by rw [Node.json, Block.json]; rfl⟩
  | program p =>
    have hbare : p.bare = false := by
      simp only [Node.isWellFormed, Program.isWellFormed, Bool.and_eq_true, Bool.not_eq_true'] at h
      exact h.2
    exact ⟨_, by rw [Node.json, Program.json, hbare]; rfl⟩

/-- Checked trees with equal values are of the same type. -/
theorem Node.title_eq_of_json_eq {a b : Node} (ha : a.isWellFormed = true)
    (hb : b.isWellFormed = true) (h : a.json = b.json) : a.title = b.title := by
  obtain ⟨parts, hparts⟩ := exists_json ha
  obtain ⟨parts', hparts'⟩ := exists_json hb
  rw [hparts, hparts'] at h
  exact (labelled_inj.1 h).1

/-- A byte is told by its character. -/
theorem Ident.text_inj {x y : Ident} (h : x.text = y.text) : x.letter = y.letter := by
  have hchar : Char.ofNat x.letter.toNat = Char.ofNat y.letter.toNat := by
    have hlist := congrArg String.toList h
    simpa [Ident.text] using hlist
  have hcode := congrArg Char.toNat hchar
  rw [toNat_charOfByte, toNat_charOfByte] at hcode
  exact UInt8.toNat_inj.1 hcode

theorem Ident.json_inj {x y : Ident} (hx : x.isWellFormed = true) (hy : y.isWellFormed = true)
    (h : x.json = y.json) : x = y := by
  obtain ⟨a, bare⟩ := x
  obtain ⟨b, bare'⟩ := y
  simp only [Ident.isWellFormed, Bool.and_eq_true, Bool.not_eq_true'] at hx hy
  obtain ⟨-, rfl⟩ := hx
  obtain ⟨-, rfl⟩ := hy
  have htext : (Ident.mk a false).text = (Ident.mk b false).text := by
    simpa [Ident.json, labelled_inj] using h
  rw [show a = b from Ident.text_inj htext]

theorem ArithOp.text_inj {a b : ArithOp} (ha : a.isValid = true) (hb : b.isValid = true)
    (h : a.text = b.text) : a = b := by
  rw [← ArithOp.ofText_text ha, h, ArithOp.ofText_text hb]

theorem RelOp.text_inj {a b : RelOp} (ha : a.isValid = true) (hb : b.isValid = true)
    (h : a.text = b.text) : a = b := by
  rw [← RelOp.ofText_text ha, h, RelOp.ofText_text hb]

/-- Checked expressions have different values. -/
theorem Expr.json_inj {e f : Expr} (he : e.isWellFormed = true) (hf : f.isWellFormed = true)
    (h : e.json = f.json) : e = f := by
  induction e generalizing f with
  | missing => cases he
  | var x =>
    have htitle := Node.title_eq_of_json_eq (a := .expr (.var x)) (b := .expr f) he hf h
    cases f with
    | var y => rw [Ident.json_inj he hf h]
    | _ => simp [Node.title] at htitle
  | lit m =>
    have htitle := Node.title_eq_of_json_eq (a := .expr (.lit m)) (b := .expr f) he hf h
    cases f with
    | lit n =>
      have hvalue : m.toInt = n.toInt := by
        simpa [Expr.json, labelled_inj] using h
      rw [Int32.toInt_inj.1 hvalue]
    | _ => simp [Node.title] at htitle
  | binary op left right bare ihl ihr =>
    have htitle := Node.title_eq_of_json_eq (a := .expr (.binary op left right bare)) (b := .expr f)
      he hf h
    cases f with
    | binary op' left' right' bare' =>
      simp only [Expr.isWellFormed, Bool.and_eq_true, Bool.not_eq_true'] at he hf
      obtain ⟨⟨⟨hop, hl⟩, hr⟩, rfl⟩ := he
      obtain ⟨⟨⟨hop', hl'⟩, hr'⟩, rfl⟩ := hf
      simp only [Expr.json, labelled_inj, List.cons.injEq, Prod.mk.injEq, Json.str.injEq, true_and,
        and_true] at h
      obtain ⟨htext, hleft, hright⟩ := h
      rw [ArithOp.text_inj hop hop' htext, ihl hl hl' hleft, ihr hr hr' hright]
    | _ => simp [Node.title] at htitle

/-- Checked conditions have different values. -/
theorem Cond.json_inj {c d : Cond} (hc : c.isWellFormed = true) (hd : d.isWellFormed = true)
    (h : c.json = d.json) : c = d := by
  cases c with
  | missing => cases hc
  | compare op left right bare =>
    cases d with
    | missing => cases hd
    | compare op' left' right' bare' =>
      simp only [Cond.isWellFormed, Bool.and_eq_true, Bool.not_eq_true'] at hc hd
      obtain ⟨⟨⟨hop, hl⟩, hr⟩, rfl⟩ := hc
      obtain ⟨⟨⟨hop', hl'⟩, hr'⟩, rfl⟩ := hd
      simp only [Cond.json, labelled_inj, List.cons.injEq, Prod.mk.injEq, Json.str.injEq, true_and,
        and_true] at h
      obtain ⟨htext, hleft, hright⟩ := h
      rw [RelOp.text_inj hop hop' htext, Expr.json_inj hl hl' hleft, Expr.json_inj hr hr' hright]

-- One induction for statements, blocks and lists of statements, on the first of the two.
mutual

/-- Checked statements have different values. -/
theorem Stmt.json_inj {s t : Stmt} (hs : s.isWellFormed = true) (ht : t.isWellFormed = true)
    (h : s.json = t.json) : s = t := by
  have htitle := Node.title_eq_of_json_eq (a := .stmt s) (b := .stmt t) hs ht h
  cases s with
  | missing => simp [Stmt.isWellFormed] at hs
  | assign target value bare =>
    cases t with
    | assign target' value' bare' =>
      simp only [Stmt.isWellFormed, Bool.and_eq_true, Bool.not_eq_true'] at hs ht
      obtain ⟨⟨hx, hv⟩, rfl⟩ := hs
      obtain ⟨⟨hx', hv'⟩, rfl⟩ := ht
      simp only [Stmt.json, labelled_inj, List.cons.injEq, Prod.mk.injEq, true_and, and_true] at h
      rw [Ident.json_inj hx hx' h.1, Expr.json_inj hv hv' h.2]
    | _ => simp [Node.title] at htitle
  | print value bare =>
    cases t with
    | print value' bare' =>
      simp only [Stmt.isWellFormed, Bool.and_eq_true, Bool.not_eq_true'] at hs ht
      obtain ⟨hv, rfl⟩ := hs
      obtain ⟨hv', rfl⟩ := ht
      simp only [Stmt.json, labelled_inj, List.cons.injEq, Prod.mk.injEq, true_and, and_true] at h
      rw [Expr.json_inj hv hv' h]
    | _ => simp [Node.title] at htitle
  | branch cond onTrue onFalse bare =>
    cases t with
    | branch cond' onTrue' onFalse' bare' =>
      simp only [Stmt.isWellFormed, Bool.and_eq_true, Bool.not_eq_true'] at hs ht
      obtain ⟨⟨⟨hc, hyes⟩, hno⟩, rfl⟩ := hs
      obtain ⟨⟨⟨hc', hyes'⟩, hno'⟩, rfl⟩ := ht
      simp only [Stmt.json, labelled_inj, List.cons.injEq, Prod.mk.injEq, true_and, and_true] at h
      rw [Cond.json_inj hc hc' h.1, Block.json_inj hyes hyes' h.2.1, Block.json_inj hno hno' h.2.2]
    | _ => simp [Node.title] at htitle
  | loopWhile cond body bare =>
    cases t with
    | loopWhile cond' body' bare' =>
      simp only [Stmt.isWellFormed, Bool.and_eq_true, Bool.not_eq_true'] at hs ht
      obtain ⟨⟨hc, hb⟩, rfl⟩ := hs
      obtain ⟨⟨hc', hb'⟩, rfl⟩ := ht
      simp only [Stmt.json, labelled_inj, List.cons.injEq, Prod.mk.injEq, true_and, and_true] at h
      rw [Cond.json_inj hc hc' h.1, Block.json_inj hb hb' h.2]
    | _ => simp [Node.title] at htitle
  | loopUntil body cond bare =>
    cases t with
    | loopUntil body' cond' bare' =>
      simp only [Stmt.isWellFormed, Bool.and_eq_true, Bool.not_eq_true'] at hs ht
      obtain ⟨⟨hb, hc⟩, rfl⟩ := hs
      obtain ⟨⟨hb', hc'⟩, rfl⟩ := ht
      simp only [Stmt.json, labelled_inj, List.cons.injEq, Prod.mk.injEq, true_and, and_true] at h
      rw [Block.json_inj hb hb' h.1, Cond.json_inj hc hc' h.2]
    | _ => simp [Node.title] at htitle

/-- Checked blocks have different values. -/
theorem Block.json_inj {b c : Block} (hb : b.isWellFormed = true) (hc : c.isWellFormed = true)
    (h : b.json = c.json) : b = c := by
  cases b with
  | missing => simp [Block.isWellFormed] at hb
  | seq stmts bare =>
    cases c with
    | missing => simp [Block.isWellFormed] at hc
    | seq stmts' bare' =>
      simp only [Block.isWellFormed, Bool.and_eq_true, Bool.not_eq_true'] at hb hc
      obtain ⟨hs, rfl⟩ := hb
      obtain ⟨hs', rfl⟩ := hc
      simp only [Block.json, labelled_inj, List.cons.injEq, Prod.mk.injEq, Json.arr.injEq, true_and,
        and_true] at h
      rw [jsonAll_inj hs hs' h]

theorem jsonAll_inj {stmts stmts' : List Stmt} (hs : areWellFormed stmts = true)
    (hs' : areWellFormed stmts' = true) (h : jsonAll stmts = jsonAll stmts') : stmts = stmts' := by
  cases stmts with
  | nil =>
    cases stmts' with
    | nil => rfl
    | cons t ts => simp [jsonAll] at h
  | cons s ss =>
    cases stmts' with
    | nil => simp [jsonAll] at h
    | cons t ts =>
      simp only [areWellFormed, Bool.and_eq_true] at hs hs'
      simp only [jsonAll, List.cons.injEq] at h
      rw [Stmt.json_inj hs.1 hs'.1 h.1, jsonAll_inj hs.2 hs'.2 h.2]

end

/-- Checked programs have different values: one with a name has a field more than one without. -/
theorem Program.json_inj {p q : Program} (hp : p.isWellFormed = true) (hq : q.isWellFormed = true)
    (h : p.json = q.json) : p = q := by
  obtain ⟨name, body, bare⟩ := p
  obtain ⟨name', body', bare'⟩ := q
  simp only [Program.isWellFormed, Bool.and_eq_true, Bool.not_eq_true', Option.all_eq_true] at hp hq
  obtain ⟨⟨hname, hbody⟩, rfl⟩ := hp
  obtain ⟨⟨hname', hbody'⟩, rfl⟩ := hq
  simp only [Program.json, labelled_inj, true_and] at h
  cases name with
  | none =>
    cases name' with
    | none =>
      simp only [List.cons.injEq, Prod.mk.injEq, true_and, and_true] at h
      rw [Block.json_inj hbody hbody' h]
    | some y => simp at h
  | some x =>
    cases name' with
    | none => simp at h
    | some y =>
      simp only [List.cons.injEq, Prod.mk.injEq, true_and, and_true] at h
      rw [Ident.json_inj (hname x rfl) (hname' y rfl) h.1, Block.json_inj hbody hbody' h.2]

namespace Node

/-- The type of the checked trees with a label: expressions, conditions, statements, blocks or
programs. -/
def typeOf (title : String) : Nat :=
  if title ∈ ["Identifier", "IntegerLiteral", "BinaryExpression"] then 0
  else if title = "BooleanExpression" then 1
  else if title = "Block" then 3
  else if title = "Program" then 4
  else 2

theorem ctorIdx_of_isWellFormed {n : Node} (h : n.isWellFormed = true) :
    n.ctorIdx = typeOf n.title := by
  cases n with
  | expr e =>
    cases e with
    | missing => cases h
    | _ => simp [title, typeOf, Node.ctorIdx]
  | cond c =>
    cases c with
    | missing => cases h
    | compare op left right bare => simp [title, typeOf, Node.ctorIdx]
  | stmt s =>
    cases s with
    | missing => simp [Node.isWellFormed, Stmt.isWellFormed] at h
    | _ => simp [title, typeOf, Node.ctorIdx]
  | block b =>
    cases b with
    | missing => simp [Node.isWellFormed, Block.isWellFormed] at h
    | seq stmts bare => simp [title, typeOf, Node.ctorIdx]
  | program p => simp [title, typeOf, Node.ctorIdx]

/-- Checked trees have different values. -/
theorem json_inj {a b : Node} (ha : a.isWellFormed = true) (hb : b.isWellFormed = true)
    (h : a.json = b.json) : a = b := by
  have htype : a.ctorIdx = b.ctorIdx := by
    rw [ctorIdx_of_isWellFormed ha, ctorIdx_of_isWellFormed hb, title_eq_of_json_eq ha hb h]
  cases a with
  | expr e =>
    cases b with
    | expr f => rw [Expr.json_inj ha hb h]
    | _ => cases htype
  | cond c =>
    cases b with
    | cond d => rw [Cond.json_inj ha hb h]
    | _ => cases htype
  | stmt s =>
    cases b with
    | stmt t => rw [Stmt.json_inj ha hb h]
    | _ => cases htype
  | block body =>
    cases b with
    | block body' => rw [Block.json_inj ha hb h]
    | _ => cases htype
  | program p =>
    cases b with
    | program q => rw [Program.json_inj ha hb h]
    | _ => cases htype

/-! ## Dumps -/

/-- Every node of the tree came out of its constructor. -/
def Built : Node → Prop
  | .expr e => e.Built
  | .cond c => c.Built
  | .stmt s => s.Built
  | .block b => b.Built
  | .program p => p.Built

theorem Built.isWellFormed {n : Node} (h : n.Built) : n.isWellFormed = true := by
  cases n with
  | expr e => exact Expr.built_iff_isWellFormed.1 h
  | cond c => exact Cond.built_iff_isWellFormed.1 h
  | stmt s => exact Stmt.Built.isWellFormed h
  | block b => exact Block.Built.isWellFormed h
  | program p => exact Program.built_iff_isWellFormed.1 h

/-- Two trees that were built by the constructors and have the same dump are the same tree. -/
theorem eq_of_compact_eq {a b : Node} (ha : a.Built) (hb : b.Built)
    (h : a.json.compact = b.json.compact) : a = b := by
  apply json_inj ha.isWellFormed hb.isWellFormed
  exact Json.compact_inj h

/-- A loop with a negative literal and an operator that is escaped. -/
def countDown : Stmt :=
  .loopWhile (.compare .ge (.var ⟨120, false⟩) (.lit (-1))) (.seq [.print (.var ⟨120, false⟩)])

/-- A block that was given its statement and one to which it was added have the same dump. -/
theorem eq_of_compact_eq_countDown : ∃ b, (Block.seq []).append? countDown = .ok b ∧
    (Node.block (.seq [countDown])).Built ∧ (Node.block b).Built ∧
    (Node.block (.seq [countDown])).json.compact = (Node.block b).json.compact ∧
    Node.block (.seq [countDown]) = Node.block b := by
  have hstmt : countDown.Built := Stmt.built_of_isWellFormed (by decide)
  have hgiven : (Node.block (.seq [countDown])).Built := Block.built_of_isWellFormed (by decide)
  have hempty : (Block.seq []).Built := Block.built_of_isWellFormed (by decide)
  have hadded : (Node.block (.seq [countDown])).Built := Block.Built.append hempty hstmt rfl
  exact ⟨_, rfl, hgiven, hadded, rfl, eq_of_compact_eq hgiven hadded rfl⟩

end Node
end MiniLua

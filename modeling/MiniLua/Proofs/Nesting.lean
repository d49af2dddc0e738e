import MiniLua.Proofs.RoundTrip
import MiniLua.Syntax.Dump

/-!
# How deep trees are nested

The depth of a value is the number of arrays and objects that stand inside one another. A program has
a text of its tree just when the depth of its value is within the limit, and there are programs on both
sides of the limit: the language puts no bound on the nesting of expressions.

## Delivered

- `Json.depth`, `Json.firstDeeper?_eq_none_iff`: the depth, and the search for a place beyond a limit.
- `Program.dump?_of_depth_le`, `Program.exists_dump?_eq_error`: the programs that have a text of their
  tree, and what is said of the others.
- `Program.nested`, `Program.text_nested`, `Program.depth_json_nested`: programs of every depth, with
  their texts.
-/

set_option autoImplicit false

namespace MiniLua

/-! ## The depth of a value -/

namespace Json

mutual

/-- The number of arrays and objects that stand inside one another. -/
def depth : Json → Nat
  | .arr items => depthItems items + 1
  | .obj fields => depthFields fields + 1
  | _ => 0

/-- The depth of the deepest item. -/
def depthItems : List Json → Nat
  | [] => 0
  | v :: vs => max v.depth (depthItems vs)

/-- The depth of the deepest field. -/
def depthFields : List (String × Json) → Nat
  | [] => 0
  | (_, v) :: fields => max v.depth (depthFields fields)

end

-- The search gives up one level at each array or object, and looks at all that is inside.
mutual

/-- Nothing is found beyond a limit just when the value stays within it. -/
theorem firstDeeper?_eq_none_iff (n : Nat) (v : Json) : v.firstDeeper? n = none ↔ v.depth ≤ n := by
  cases v with
  | null => cases n <;> simp [firstDeeper?, depth]
  | num value => cases n <;> simp [firstDeeper?, depth]
  | str text => cases n <;> simp [firstDeeper?, depth]
  | arr items =>
    cases n with
    | zero => simp [firstDeeper?, depth]
    | succ n => rw [firstDeeper?, depth, firstDeeperItem?_eq_none_iff n items, Nat.succ_le_succ_iff]
  | obj fields =>
    cases n with
    | zero => simp [firstDeeper?, depth]
    | succ n => rw [firstDeeper?, depth, firstDeeperField?_eq_none_iff n fields, Nat.succ_le_succ_iff]

theorem firstDeeperItem?_eq_none_iff (n : Nat) (items : List Json) :
    firstDeeperItem? n items = none ↔ depthItems items ≤ n := by
  cases items with
  | nil => simp [firstDeeperItem?, depthItems]
  | cons v vs =>
    have hv := firstDeeper?_eq_none_iff n v
    have hvs := firstDeeperItem?_eq_none_iff n vs
    rw [firstDeeperItem?, depthItems, Nat.max_le, ← hv, ← hvs]
    cases v.firstDeeper? n <;> simp

theorem firstDeeperField?_eq_none_iff (n : Nat) (fields : List (String × Json)) :
    firstDeeperField? n fields = none ↔ depthFields fields ≤ n := by
  cases fields with
  | nil => simp [firstDeeperField?, depthFields]
  | cons field fields =>
    obtain ⟨key, v⟩ := field
    have hv := firstDeeper?_eq_none_iff n v
    have hfields := firstDeeperField?_eq_none_iff n fields
    rw [firstDeeperField?, depthFields, Nat.max_le, ← hv, ← hfields]
    cases v.firstDeeper? n <;> simp

end

end Json

/-! ## Programs with a text of their tree -/

namespace Program

/-- The texts that say that a tree is nested too deep. -/
def depthProblems : List String :=
  ["exceeded max depth",
    "json: error calling MarshalJSON for type *ast.Identifier: exceeded max depth"]

theorem depthProblem_mem (v : Json) : depthProblem v ∈ depthProblems := by
  unfold depthProblem
  split <;> simp [depthProblems]

theorem dump?_of_depth_le {p : Program} (h : p.json.depth ≤ maxDepth) :
    p.dump? = .ok p.json.indented := by
  rw [dump?, (Json.firstDeeper?_eq_none_iff maxDepth p.json).2 h]

theorem exists_dump?_eq_error {p : Program} (h : maxDepth < p.json.depth) :
    ∃ problem ∈ depthProblems, p.dump? = .error problem := by
  cases hfound : p.json.firstDeeper? maxDepth with
  | none => exact absurd ((Json.firstDeeper?_eq_none_iff maxDepth p.json).1 hfound) (Nat.not_le.2 h)
  | some v => exact ⟨depthProblem v, depthProblem_mem v, by rw [dump?, hfound]⟩

end Program

/-! ## Programs of every depth -/

/-- One minus one minus one and so on, in front of a two. -/
def Expr.nested : Nat → Expr
  | 0 => .lit 2
  | n + 1 => .binary .sub (.lit 1) (nested n)

namespace Expr

theorem isWellFormed_nested (n : Nat) : (nested n).isWellFormed = true := by
  induction n with
  | zero => rfl
  | succ n ih => simp [nested, isWellFormed, ArithOp.isValid, ih]

theorem desugar_nested (n : Nat) : (nested n).desugar = nested n := by
  induction n with
  | zero => rfl
  | succ n ih =>
    rw [nested, desugar, ih]
    rfl

theorem depth_json_nested (n : Nat) : (nested n).json.depth = n + 1 := by
  induction n with
  | zero => rfl
  | succ n ih =>
    rw [nested, json, labelled, Json.depth]
    simp [Json.depthFields, ih, json, labelled, Json.depth]

theorem words_nested_ne_nil (n : Nat) : (nested n).words [] ≠ [] := by
  cases n <;> simp [nested, words, literalWords]

theorem writeWords_nested (n : Nat) (rest : List Char) :
    writeWords ((nested n).words []) rest =
      (String.join (List.replicate n "- 1 ")).toList ++ '2' :: rest := by
  induction n with
  | zero => rfl
  | succ n ih =>
    have hone : (nested (n + 1)).words [] = "-" :: "1" :: (nested n).words [] := rfl
    rw [hone, writeWords, writeWords, ih, List.replicate_succ, String.join_cons]
    · simp
    · exact words_nested_ne_nil n
    · simp

end Expr

namespace Program

/-- A program with one assignment of a nested expression. -/
def nested (n : Nat) : Program where
  name := some ⟨102, false⟩
  body := .seq [.assign ⟨120, false⟩ (.nested n)]

/-- The text of the program. -/
def nestedText (n : Nat) : String :=
  "function f ( )\n  x = " ++ String.join (List.replicate n "- 1 ") ++ "2\nend\n"

theorem layout_nested (n : Nat) : (nested n).layout =
    [⟨0, ["function", "f", "(", ")"]⟩, ⟨1, "x" :: "=" :: (Expr.nested n).words []⟩, ⟨0, ["end"]⟩] :=
  rfl

theorem text_nested (n : Nat) : (nested n).text = nestedText n := by
  have hwords : ∀ rest, writeWords ("x" :: "=" :: (Expr.nested n).words []) rest =
      'x' :: ' ' :: '=' :: ' ' :: ((String.join (List.replicate n "- 1 ")).toList ++ '2' :: rest) := by
    intro rest
    rw [writeWords, writeWords, Expr.writeWords_nested]
    · simp
    · exact Expr.words_nested_ne_nil n
    · simp
  -- characters first: two lines with fixed words, and between them the line of the assignment
  have hchars : (nested n).layout.foldr Line.write [] = "function f ( )\n  x = ".toList ++
      (String.join (List.replicate n "- 1 ")).toList ++ "2\nend\n".toList := by
    simp only [layout_nested, List.foldr_cons, List.foldr_nil, Line.write, hwords]
    simp [writeWords]
  calc (nested n).text
      = String.ofList ((nested n).layout.foldr Line.write []) := rfl
    _ = nestedText n := by
      rw [hchars, String.ofList_append, String.ofList_append, String.ofList_toList,
        String.ofList_toList, String.ofList_toList]
      rfl

theorem ofBytes?_nestedText (n : Nat) :
    Program.ofBytes? (Text.encode (nestedText n)) = .ok (nested n) := by
  have hwf : (nested n).isWellFormed = true := by
    simp [nested, isWellFormed, Block.isWellFormed, areWellFormed, Stmt.isWellFormed,
      Expr.isWellFormed_nested]
    decide
  have hdesugar : (nested n).desugar = nested n := by
    simp [nested, desugar, Block.desugar, desugarAll, Stmt.desugar, Expr.desugar_nested]
  rw [← text_nested, ofBytes?_text_of_isWellFormed hwf, hdesugar]

theorem depth_json_nested (n : Nat) : (nested n).json.depth = n + 5 := by
  simp [nested, json, labelled, Json.depth, Json.depthFields, Json.depthItems, Block.json, jsonAll,
    Stmt.json, Ident.json, Expr.depth_json_nested]

end Program
end MiniLua

import MiniLua.Proofs.Canonical
import MiniLua.Proofs.Construction

/-!
# Writing programs and reading them back

The text of a tree holds the words of the tree, so reading it gives back what these words spell. For
a tree that the constructors built this is the tree without its negative literals and with a name;
for one that was itself read it is the same tree again, and the tokens of its text are those it was
read from, with the numerals as they are written.

## Delivered

- `Program.words_text`: the words of a program's text.
- `Program.exists_tokens?_text`: the tokens of a program's text.
- `Program.exists_spelled_of_ofBytes?`: a text that is read has tokens that spell the program.
- `Program.ofBytes?_text_of_isWellFormed`: reading the text of a well-formed program.
-/

set_option autoImplicit false

namespace MiniLua

/-! ## The text of a program -/

/-- The words of a program's text are the words of the program, when tokens can say these. -/
theorem Program.words_text {p : Program} {us : List Token} (h : Say us p.words) :
    Text.words (Text.encode p.text) = p.words.map String.toList := by
  have hwords : ∀ line ∈ p.layout, ∀ w ∈ line.words, Lexeme.IsWord w.toList := by
    intro line hline w hw
    refine h.isWord w ?_
    rw [← p.layout_words]
    exact List.mem_flatMap.2 ⟨line, hline, hw⟩
  rw [Program.text, Text.words_layoutText hwords, ← p.layout_words, List.map_flatMap]

/-- The tokens of a program's text are those that say the words of the program, wherever these
stand. -/
theorem Program.exists_tokens?_text {p : Program} {us : List Token} (h : Say us p.words) :
    ∃ ts lines, TokenQueue.tokens? (Text.encode p.text) = .ok (ts ++ [TokenQueue.endToken lines]) ∧
      ts.map Token.view = us.map Token.view := by
  have hwords : ∀ w ∈ Text.words (Text.encode p.text), Lexeme.IsWord w := by
    rw [Program.words_text h]
    exact List.forall_mem_map.2 h.isWord
  have hlexemes : Text.words (Text.encode p.text) = us.map fun u => u.lexeme.toList := by
    rw [Program.words_text h, ← h.2, List.map_map]
    rfl
  obtain ⟨all, hall⟩ := TokenQueue.exists_tokens? hwords
  obtain ⟨ts, lines, rfl, hclass, htexts⟩ := TokenQueue.tokens?_spec hall
  exact ⟨ts, lines, hall, map_view_eq_of_map_lexeme_eq hclass h.1 (htexts.trans hlexemes)⟩

/-- A text that is read has classified tokens that spell the program. -/
theorem Program.exists_spelled_of_ofBytes? {bytes : Bytes} {p : Program}
    (h : Program.ofBytes? bytes = .ok p) :
    ∃ ts lines, TokenQueue.tokens? bytes = .ok (ts ++ [TokenQueue.endToken lines]) ∧
      (∀ t ∈ ts, t.IsClassified) ∧ Program.Spelled ts p := by
  cases hq : TokenQueue.ofBytes bytes with
  | error e =>
    rw [Program.ofBytes?, hq] at h
    cases h
  | ok q =>
    have hall : TokenQueue.tokens? bytes = .ok q.tokens := by
      rw [TokenQueue.tokens?, hq]
      rfl
    obtain ⟨ts, lines, hts, hclass, -⟩ := TokenQueue.tokens?_spec hall
    rw [hts] at hall
    exact ⟨ts, lines, hall, hclass,
      advances_finish_iff_spelled.1 ((Program.ofBytes?_eq_ok_iff_advances hall).1 h)⟩

/-- Reading the text of a well-formed program gives what the program is spelled as. -/
theorem Program.ofBytes?_text_of_isWellFormed {p : Program} (h : p.isWellFormed = true) :
    Program.ofBytes? (Text.encode p.text) = .ok p.desugar := by
  obtain ⟨us, hsay, hspelled⟩ := Program.exists_spelled h
  obtain ⟨ts, lines, htokens, hview⟩ := Program.exists_tokens?_text hsay
  have hts : Program.Spelled ts p.desugar := hspelled.of_view hview.symm
  exact (Program.ofBytes?_eq_ok_iff_advances htokens).2 hts.advances

/-! ## Round trips -/

/-- The text of every program that the constructors build is read, and as the program without its
negative literals and with a name. A program that was read from a text is read from its own text
again. -/
theorem Program.ofBytes?_text :
    (∀ p : Program, p.Built → Program.ofBytes? (Text.encode p.text) = .ok p.desugar) ∧
    (∀ (bytes : Bytes) (p : Program), Program.ofBytes? bytes = .ok p →
      Program.ofBytes? (Text.encode p.text) = .ok p) := by
  refine ⟨?_, ?_⟩
  · intro p h
    exact Program.ofBytes?_text_of_isWellFormed (Program.built_iff_isWellFormed.1 h)
  -- a program that was read is well formed and already spelled without negative literals
  · intro bytes p h
    obtain ⟨ts, lines, -, hclass, hspelled⟩ := Program.exists_spelled_of_ofBytes? h
    have hread := Program.ofBytes?_text_of_isWellFormed (hspelled.isWellFormed hclass)
    rwa [hspelled.desugar_eq] at hread

/-- Negative literals, the least one among them, in a program without a name. -/
theorem Program.ofBytes?_text_negative :
    ∃ p q : Program, p.Built ∧
      p = ⟨none, .seq [.assign ⟨120, false⟩ (.lit (-5)), .print (.lit (-2147483648))], false⟩ ∧
      q = ⟨some ⟨102, false⟩, .seq [.assign ⟨120, false⟩ (.binary .sub (.lit 0) (.lit 5)),
        .print (.binary .sub (.binary .sub (.lit 0) (.lit 2147483647)) (.lit 1))], false⟩ ∧
      Program.ofBytes? (Text.encode p.text) = .ok q ∧
      Program.ofBytes? (Text.encode q.text) = .ok q := by
  have hbuilt : Program.Built
      ⟨none, .seq [.assign ⟨120, false⟩ (.lit (-5)), .print (.lit (-2147483648))], false⟩ :=
    Program.built_iff_isWellFormed.2 rfl
  have hread := Program.ofBytes?_text.1 _ hbuilt
  exact ⟨_, _, hbuilt, rfl, rfl, hread, Program.ofBytes?_text.2 _ _ hread⟩

/-- The tokens of the text of a program that was read are the tokens it was read from, by kind and
lexeme, once superfluous zeros are dropped from the numerals. -/
theorem Program.tokens?_text_eq_canonical {bytes : Bytes} {p : Program}
    (h : Program.ofBytes? bytes = .ok p) :
    ∃ source written, TokenQueue.tokens? bytes = .ok source ∧
      TokenQueue.tokens? (Text.encode p.text) = .ok written ∧
      written.map Token.view = source.map fun t => t.canonical.view := by
  obtain ⟨ts, lines, htokens, hclass, hspelled⟩ := Program.exists_spelled_of_ofBytes? h
  obtain ⟨us, lines', hwritten, hview⟩ := Program.exists_tokens?_text (hspelled.say hclass)
  refine ⟨_, _, htokens, hwritten, ?_⟩
  -- the end of the stream is no number and has one lexeme, on whatever line it stands
  rw [List.map_append, hview, List.map_append, List.map_map]
  rfl

/-- A numeral with zeros in front, read and written again. -/
theorem Program.tokens?_text_zeros :
    ∃ (p : Program) (written : List Token),
      Program.ofBytes? (Text.encode "function f ( ) x = 007 end") = .ok p ∧
      TokenQueue.tokens? (Text.encode p.text) = .ok written ∧
      written.map Token.view = [(.functionWord, "function"), (.identifier, "f"), (.leftParen, "("),
        (.rightParen, ")"), (.identifier, "x"), (.assign, "="), (.integer, "7"), (.endWord, "end"),
        (.endOfStream, "EOS")] := by
  have htokens : TokenQueue.tokens? (Text.encode "function f ( ) x = 007 end") = .ok
      [⟨.functionWord, "function", 1, 1⟩, ⟨.identifier, "f", 1, 10⟩, ⟨.leftParen, "(", 1, 12⟩,
        ⟨.rightParen, ")", 1, 14⟩, ⟨.identifier, "x", 1, 16⟩, ⟨.assign, "=", 1, 18⟩,
        ⟨.integer, "007", 1, 20⟩, ⟨.endWord, "end", 1, 24⟩, ⟨.endOfStream, "EOS", 1, 1⟩] :=
    TokenQueue.eq_ok_of_toOption (by decide +kernel)
  have hread : Program.ofBytes? (Text.encode "function f ( ) x = 007 end") =
      .ok { name := some ⟨102, false⟩, body := .seq [.assign ⟨120, false⟩ (.lit 7)] } := by
    rw [Program.ofBytes?_eq_run htokens]
    rfl
  obtain ⟨source, written, hsource, hwritten, hview⟩ := Program.tokens?_text_eq_canonical hread
  rw [htokens] at hsource
  cases hsource
  exact ⟨_, written, hread, hwritten, hview.trans (by decide +kernel)⟩

end MiniLua

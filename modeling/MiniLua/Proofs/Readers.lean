import MiniLua.Proofs.Spacing

/-!
# Texts from readers

A reader takes a text byte by byte and hands out its lines: a newline ends a line, one carriage return
at the end of a line is dropped, and what stands behind the last newline is a line unless it is empty.
A line of one mebibyte or more is never handed out, and then the whole reading fails.

A text has the same tokens at the same places whether it comes as a whole or from a reader. The
carriage return that the reader drops is a delimiter at the end of its line: it is part of no lexeme,
and it stands behind all of them, so that no column changes.

## Delivered

- `Text.handOut?`, `Text.scanLines?`: the reader, one byte at a time.
- `Text.scanLines?_eq`: the lines that it hands out are the lines of the text.
- `Lexeme.ofLine_dropReturn`: a line has the same lexemes without its carriage return.
- `TokenQueue.ofReader_agrees`: a reader and a whole text give the same tokens.
-/

set_option autoImplicit false

namespace MiniLua

/-! ## Line by line -/

namespace Text

/-- The line as it is handed out, unless it is too long. -/
def handOut? (line : Bytes) : Option Bytes :=
  if line.length < TokenQueue.lineLimit then some (TokenQueue.dropReturn line) else none

/-- The lines that a reader hands out of the bytes to come, behind the bytes `held` of the unfinished
line, last first. -/
def scanLines? (held : Bytes) : Bytes → Option (List Bytes)
  | [] =>
    if held.isEmpty then some []
    else do
      let line ← handOut? held.reverse
      return [line]
  | b :: rest =>
    if b = 0x0a then do
      let line ← handOut? held.reverse
      let lines ← scanLines? [] rest
      return line :: lines
    else scanLines? (b :: held) rest

theorem splitOn_ne_nil {α : Type} [DecidableEq α] (sep : α) (xs : List α) : splitOn sep xs ≠ [] := by
  induction xs with
  | nil => simp [splitOn]
  | cons x xs ih =>
    unfold splitOn at ih ⊢
    rw [List.foldr_cons]
    split
    · exact List.cons_ne_nil _ _
    · split <;> exact List.cons_ne_nil _ _

/-- The line before a newline is followed by the lines behind it. -/
theorem lines_append_cons {xs : Bytes} (hxs : 0x0a ∉ xs) (ys : Bytes) :
    lines (xs ++ 0x0a :: ys) = xs :: lines ys := by
  obtain ⟨piece, pieces, hpieces⟩ := List.exists_cons_of_ne_nil (splitOn_ne_nil 0x0a ys)
  rw [lines, lines, splitOn_append_cons hxs, hpieces, dropLastEmpty, dropLastEmpty,
    List.getLast?_cons_cons]
  split
  · rw [List.dropLast_cons_cons]
  · rfl

/-- A text without a newline is one line, unless it is empty. -/
theorem lines_of_not_mem {xs : Bytes} (hxs : 0x0a ∉ xs) :
    lines xs = if xs.isEmpty then [] else [xs] := by
  rw [lines, splitOn_eq_singleton hxs]
  cases xs <;> rfl

/-- A reader hands out the lines of a text, each without a carriage return at its end, unless one of
them is too long. -/
theorem scanLines?_eq {held : Bytes} (hheld : 0x0a ∉ held) (bytes : Bytes) :
    scanLines? held bytes = (lines (held.reverse ++ bytes)).mapM handOut? := by
  -- on the bytes to come; those of the unfinished line belong to the first line
  induction bytes generalizing held with
  | nil =>
    have hreverse : 0x0a ∉ held.reverse := fun hmem => hheld (List.mem_reverse.1 hmem)
    rw [scanLines?, List.append_nil, lines_of_not_mem hreverse, List.isEmpty_reverse]
    split
    · rfl
    · rw [List.mapM_cons, List.mapM_nil]
      rfl
  | cons b bytes ih =>
    rw [scanLines?]
    split
    -- a newline hands out the unfinished line, and any other byte makes it longer
    · rename_i hb
      subst hb
      have hreverse : 0x0a ∉ held.reverse := fun hmem => hheld (List.mem_reverse.1 hmem)
      rw [lines_append_cons hreverse, List.mapM_cons, ih List.not_mem_nil]
      rfl
    · rename_i hb
      have hmore : 0x0a ∉ b :: held := by
        intro hmem
        rcases List.mem_cons.1 hmem with rfl | hmem
        · exact hb rfl
        · exact hheld hmem
      rw [ih hmore, List.reverse_cons, List.append_assoc, List.singleton_append]

/-- Lines that are all short enough are handed out. -/
theorem mapM_handOut?_of_short {lines : List Bytes}
    (h : ∀ line ∈ lines, line.length < TokenQueue.lineLimit) :
    lines.mapM handOut? = some (lines.map TokenQueue.dropReturn) := by
  induction lines with
  | nil => rfl
  | cons line lines ih =>
    obtain ⟨hline, hlines⟩ := List.forall_mem_cons.1 h
    rw [List.mapM_cons, ih hlines, handOut?, if_pos hline]
    rfl

/-- A line that is too long stops the reader, whatever the others are. -/
theorem mapM_handOut?_of_long {lines : List Bytes} {line : Bytes} (hmem : line ∈ lines)
    (hlong : TokenQueue.lineLimit ≤ line.length) : lines.mapM handOut? = none := by
  induction lines with
  | nil => cases hmem
  | cons first lines ih =>
    rw [List.mapM_cons]
    rcases List.mem_cons.1 hmem with rfl | hmem
    · rw [handOut?, if_neg (Nat.not_lt.2 hlong)]
      rfl
    · rw [ih hmem]
      cases handOut? first <;> rfl

end Text

/-! ## Carriage returns -/

namespace Lexeme

/-- A delimiter at the end of the characters adds nothing to a scan. -/
theorem scan_append_delimiter {c : Char} (hc : Text.isDelimiter c = true) (cs : List Char)
    (column : Nat) (current : List Char) (found : List Lexeme) :
    scan (cs ++ [c]) column current found = scan cs column current found := by
  induction cs generalizing column current found with
  | nil => simp [scan, hc, close]
  | cons d cs ih =>
    rw [List.cons_append, scan, scan, ih, ih]

/-- A line has the same lexemes at the same columns without the carriage return at its end. -/
theorem ofLine_dropReturn (line : Bytes) :
    ofLine (Text.decode (TokenQueue.dropReturn line)) = ofLine (Text.decode line) := by
  unfold TokenQueue.dropReturn
  split
  -- the carriage return is one byte and a delimiter, so it decodes alone and ends no other lexeme
  · rename_i hlast
    obtain ⟨front, rfl⟩ := List.getLast?_eq_some_iff.1 hlast
    rw [List.dropLast_concat, Text.decode_append_ascii (by decide)]
    exact (scan_append_delimiter (by decide) _ _ _ _).symm
  · rfl

end Lexeme

/-! ## Queues -/

namespace TokenQueue

/-- Texts whose lines have the same lexemes, line by line, give the same queue. -/
theorem ofLines_map_congr {α : Type} {f g : α → List Char}
    (h : ∀ x, Lexeme.ofLine (f x) = Lexeme.ofLine (g x)) (xs : List α) :
    ofLines (xs.map f) = ofLines (xs.map g) := by
  have hlexemes : lexemes (xs.map f) = lexemes (xs.map g) := by
    simp only [lexemes, List.zipIdx_map, List.flatMap_map, Prod.map, h]
  rw [ofLines, ofLines, hlexemes, List.length_map, List.length_map]

/-- A reader whose lines are all short gives the queue of the whole text. -/
theorem ofReader_of_short {bytes : Bytes} (h : ∀ line ∈ Text.lines bytes, line.length < lineLimit) :
    ofReader { content := bytes } = (ofBytes bytes).mapError .lexical := by
  have hany : ((Text.lines bytes).any fun line => lineLimit ≤ line.length) = false := by
    rw [List.any_eq_false]
    intro line hline
    simpa using h line hline
  have hlines : ofLines ((Text.lines bytes).map fun line => Text.decode (dropReturn line)) =
      ofBytes bytes :=
    ofLines_map_congr Lexeme.ofLine_dropReturn _
  rw [ofReader, if_neg (by rw [hany]; exact Bool.false_ne_true)]
  change (ofLines ((Text.lines bytes).map _)).mapError ReadError.lexical = _
  rw [hlines]

/-- A reader with a line that is too long gives nothing else. -/
theorem ofReader_of_long {bytes line : Bytes} (hmem : line ∈ Text.lines bytes)
    (hlong : lineLimit ≤ line.length) : ofReader { content := bytes } = .error .lineTooLong := by
  have hany : ((Text.lines bytes).any fun line => lineLimit ≤ line.length) = true :=
    List.any_eq_true.2 ⟨line, hmem, by simpa using hlong⟩
  rw [ofReader, if_pos hany]

/-- A reader gives the queue of the lines that it hands out. -/
theorem ofReader_eq_elim (bytes : Bytes) :
    ofReader { content := bytes } = (Text.scanLines? [] bytes).elim (.error .lineTooLong)
      fun lines => (ofLines (lines.map Text.decode)).mapError .lexical := by
  rw [Text.scanLines?_eq List.not_mem_nil, List.reverse_nil, List.nil_append]
  by_cases hlong : ∃ line ∈ Text.lines bytes, lineLimit ≤ line.length
  · obtain ⟨line, hmem, hlong⟩ := hlong
    rw [ofReader_of_long hmem hlong, Text.mapM_handOut?_of_long hmem hlong, Option.elim_none]
  · have hshort : ∀ line ∈ Text.lines bytes, line.length < lineLimit := by
      intro line hmem
      exact Nat.lt_of_not_le fun hle => hlong ⟨line, hmem, hle⟩
    rw [ofReader_of_short hshort, Text.mapM_handOut?_of_short hshort, Option.elim_some, List.map_map]
    exact congrArg _ (ofLines_map_congr (fun line => (Lexeme.ofLine_dropReturn line).symm) _)

/-- A reader that does not break hands out the lines of a text one by one. When all of them are shorter
than one mebibyte, its queue is the queue of the whole text, with the same tokens at the same places
and the same number of lines, or both fail with the same failure. Otherwise the reader fails at a line
that is too long, whatever is wrong with the other lines. -/
theorem ofReader_agrees (bytes : Bytes) :
    ofReader { content := bytes } = (Text.scanLines? [] bytes).elim (.error .lineTooLong)
      (fun lines => (ofLines (lines.map Text.decode)).mapError .lexical) ∧
    ((∀ line ∈ Text.lines bytes, line.length < 1048576) →
      (ofReader { content := bytes }).mapError ReadError.failure =
        (ofBytes bytes).mapError LexError.failure) ∧
    ((∃ line ∈ Text.lines bytes, 1048576 ≤ line.length) →
      ∃ f, (ofReader { content := bytes }).mapError ReadError.failure = .error f ∧
        f.text = "lexer: read source: bufio.Scanner: token too long") := by
  refine ⟨ofReader_eq_elim bytes, ?_, ?_⟩
  · intro hshort
    rw [ofReader_of_short hshort]
    cases ofBytes bytes <;> rfl
  · rintro ⟨line, hmem, hlong⟩
    rw [ofReader_of_long hmem hlong]
    exact ⟨_, rfl, rfl⟩

/-- A text with carriage returns has the same queue from a reader. A text whose first line is no token
and whose second line is too long fails at its first word, and a reader of it at its second line. -/
theorem ofReader_returns_and_long_line :
    (∃ bytes q, bytes = Text.encode "x\r\n= 1\r" ∧
      q = ⟨[⟨.identifier, "x", 1, 1⟩, ⟨.assign, "=", 2, 1⟩, ⟨.integer, "1", 2, 3⟩,
        ⟨.endOfStream, "EOS", 2, 1⟩], 2⟩ ∧
      ofBytes bytes = .ok q ∧ (ofReader { content := bytes }).mapError ReadError.failure = .ok q) ∧
    ∃ bytes f, bytes = Text.encode "9a\n" ++ List.replicate 1048576 0x78 ∧
      ofBytes bytes = .error ⟨.brokenNumber, 1, 1⟩ ∧
      (ofReader { content := bytes }).mapError ReadError.failure = .error f ∧
      f.text = "lexer: read source: bufio.Scanner: token too long" := by
  constructor
  · have hqueue : ofBytes (Text.encode "x\r\n= 1\r") = .ok ⟨[⟨.identifier, "x", 1, 1⟩,
        ⟨.assign, "=", 2, 1⟩, ⟨.integer, "1", 2, 3⟩, ⟨.endOfStream, "EOS", 2, 1⟩], 2⟩ :=
      eq_ok_of_toOption (by decide +kernel)
    have hshort : ∀ line ∈ Text.lines (Text.encode "x\r\n= 1\r"), line.length < 1048576 := by
      decide +kernel
    have hread := (ofReader_agrees (Text.encode "x\r\n= 1\r")).2.1 hshort
    rw [hqueue] at hread
    exact ⟨_, _, rfl, rfl, hqueue, hread⟩
  · have hlines : Text.lines (Text.encode "9a\n" ++ List.replicate 1048576 0x78) =
        [[0x39, 0x61], List.replicate 1048576 0x78] := by
      have htext : Text.encode "9a\n" ++ List.replicate 1048576 0x78 =
          [0x39, 0x61] ++ 0x0a :: List.replicate 1048576 0x78 := by
        rw [show Text.encode "9a\n" = [0x39, 0x61, 0x0a] by decide +kernel]
        rfl
      have hsecond : 0x0a ∉ List.replicate 1048576 (0x78 : UInt8) := by
        intro hmem
        exact absurd (List.eq_of_mem_replicate hmem) (by decide)
      rw [htext, Text.lines_append_cons (by decide), Text.lines_of_not_mem hsecond,
        List.isEmpty_replicate]
      rfl
    have hfirst : ofBytes (Text.encode "9a\n" ++ List.replicate 1048576 0x78) =
        .error ⟨.brokenNumber, 1, 1⟩ := by
      rw [ofBytes, hlines]
      rfl
    have hlong : ∃ line ∈ Text.lines (Text.encode "9a\n" ++ List.replicate 1048576 0x78),
        1048576 ≤ line.length := by
      refine ⟨List.replicate 1048576 0x78, ?_, Nat.le_of_eq List.length_replicate.symm⟩
      rw [hlines]
      exact List.mem_cons_of_mem _ List.mem_cons_self
    obtain ⟨f, hread, htext⟩ :=
      (ofReader_agrees (Text.encode "9a\n" ++ List.replicate 1048576 0x78)).2.2 hlong
    exact ⟨_, f, rfl, hfirst, hread, htext⟩

end TokenQueue
end MiniLua

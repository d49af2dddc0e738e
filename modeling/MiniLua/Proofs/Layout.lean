import MiniLua.Proofs.Scanning
import MiniLua.Syntax.Layout

/-!
# The words of a layout

The text of a layout has the words of the layout, in the same order, as long as each of them is a
word at all: classified, and therefore not empty, in ASCII and without a delimiter. A text in ASCII
is its bytes, so it survives being encoded, cut into lines and decoded again.

## Delivered

- `Text.encode_ofList`, `Text.decode_asciiBytes`: ASCII as bytes and back.
- `Text.lines_flatMap`: the lines of a text whose lines all end with a newline.
- `Text.words_layoutText`: the words of the text of a layout.
-/

set_option autoImplicit false

namespace MiniLua

namespace Text

/-! ## ASCII as bytes -/

/-- Every character is an ASCII one. -/
def IsAscii (cs : List Char) : Prop :=
  ∀ c ∈ cs, c.toNat < 128

/-- The bytes of ASCII characters. -/
def asciiBytes (cs : List Char) : Bytes :=
  cs.map fun c => c.toNat.toUInt8

/-- The list of a byte array is read off its data from any place on. -/
theorem toList_loop (bytes : ByteArray) (i : Nat) (acc : List UInt8) :
    ByteArray.toList.loop bytes i acc = acc.reverse ++ bytes.data.toList.drop i := by
  fun_induction ByteArray.toList.loop bytes i acc with
  | case1 i acc hlt ih =>
    have hsize : i < bytes.data.toList.length := hlt
    have hget : bytes.get! i = bytes.data.toList[i] := by
      show bytes.data[i]! = bytes.data.toList[i]
      rw [Array.getElem_toList, getElem!_pos]
    rw [ih, List.reverse_cons, List.append_assoc, List.singleton_append, hget,
      ← List.drop_eq_getElem_cons hsize]
  | case2 i acc hge =>
    have hsize : bytes.data.toList.length ≤ i := Nat.le_of_not_lt hge
    rw [List.drop_eq_nil_of_le hsize, List.append_nil]

/-- The byte of an ASCII character has its code. -/
theorem toNat_toUInt8_of_ascii {c : Char} (hc : c.toNat < 128) :
    c.toNat.toUInt8.toNat = c.toNat := by
  rw [Nat.toUInt8, UInt8.toNat_ofNat', Nat.mod_eq_of_lt (by omega)]

/-- A character of ASCII is encoded as the byte with its code. -/
theorem utf8EncodeChar_of_ascii {c : Char} (hc : c.toNat < 128) :
    String.utf8EncodeChar c = [c.toNat.toUInt8] := by
  have hle : c.val.toNat ≤ 127 := Nat.le_of_lt_succ hc
  rw [String.utf8EncodeChar, if_pos hle]
  rfl

/-- A text in ASCII is encoded character by character. -/
theorem encode_ofList {cs : List Char} (hcs : IsAscii cs) :
    encode (String.ofList cs) = asciiBytes cs := by
  have hflat : cs.flatMap String.utf8EncodeChar = asciiBytes cs := by
    induction cs with
    | nil => rfl
    | cons c cs ih =>
      rw [List.flatMap_cons, utf8EncodeChar_of_ascii (hcs c List.mem_cons_self),
        ih fun d hd => hcs d (List.mem_cons_of_mem c hd)]
      rfl
  rw [encode, String.toUTF8_eq_toByteArray, String.toByteArray_ofList, ByteArray.toList,
    toList_loop, List.utf8Encode, List.toList_data_toByteArray, hflat]
  rfl

/-- A byte of ASCII is read as the character with its code. -/
theorem leading_of_ascii {c : Char} (hc : c.toNat < 128) (rest : Bytes) :
    leading c.toNat.toUInt8 rest = (c, 0) := by
  have hbyte := toNat_toUInt8_of_ascii hc
  have hlt : c.toNat.toUInt8 < 0x80 := by
    rw [UInt8.lt_iff_toNat_lt, hbyte]
    exact hc
  unfold leading
  rw [if_pos hlt, hbyte, Char.ofNat_toNat]

/-- Bytes of ASCII are decoded character by character. -/
theorem decodeAcc_asciiBytes {cs : List Char} (hcs : IsAscii cs) (acc : List Char) :
    decodeAcc 0 (asciiBytes cs) acc = acc.reverse ++ cs := by
  induction cs generalizing acc with
  | nil => simp [asciiBytes, decodeAcc]
  | cons c cs ih =>
    have hc := hcs c List.mem_cons_self
    have hrest : IsAscii cs := fun d hd => hcs d (List.mem_cons_of_mem c hd)
    have hstep : decodeAcc 0 (asciiBytes (c :: cs)) acc =
        decodeAcc 0 (asciiBytes cs) (c :: acc) := by
      rw [asciiBytes, List.map_cons, decodeAcc, leading_of_ascii hc]
      rfl
    rw [hstep, ih hrest, List.reverse_cons, List.append_assoc, List.singleton_append]

/-- ASCII survives encoding and decoding. -/
theorem decode_asciiBytes {cs : List Char} (hcs : IsAscii cs) : decode (asciiBytes cs) = cs :=
  decodeAcc_asciiBytes hcs []

/-! ## Lines that end with a newline -/

/-- A piece without the separator is a piece of its own before a separator. -/
theorem splitOn_append_cons {α : Type} [DecidableEq α] {sep : α} {xs : List α} (hxs : sep ∉ xs)
    (ys : List α) : splitOn sep (xs ++ sep :: ys) = xs :: splitOn sep ys := by
  induction xs with
  | nil => simp [splitOn]
  | cons x xs ih =>
    have hx : x ≠ sep := fun h => hxs (h ▸ List.mem_cons_self)
    have htail := ih fun h => hxs (List.mem_cons_of_mem x h)
    unfold splitOn at htail ⊢
    rw [List.cons_append, List.foldr_cons, htail]
    simp [hx]

/-- The lines of a text whose lines all end with a newline. -/
theorem lines_flatMap {pieces : List Bytes} (hpieces : ∀ piece ∈ pieces, 0x0a ∉ piece) :
    lines (pieces.flatMap fun piece => piece ++ [0x0a]) = pieces := by
  have hsplit : splitOn 0x0a (pieces.flatMap fun piece => piece ++ [0x0a]) = pieces ++ [[]] := by
    induction pieces with
    | nil => rfl
    | cons piece pieces ih =>
      rw [List.flatMap_cons, List.append_assoc, List.singleton_append,
        splitOn_append_cons (hpieces piece List.mem_cons_self),
        ih fun p hp => hpieces p (List.mem_cons_of_mem piece hp), List.cons_append]
  -- the newline at the end starts an empty piece, which is no line
  rw [lines, hsplit, dropLastEmpty, List.getLast?_concat, List.dropLast_concat]

end Text

/-! ## Lines of a layout -/

/-- The characters of a line without its newline. -/
def Line.chars (line : Line) : List Char :=
  List.replicate (2 * line.depth) ' ' ++ writeWords line.words []

/-- The words of a line come before what follows them. -/
theorem writeWords_append (words : List String) (rest : List Char) :
    writeWords words rest = writeWords words [] ++ rest := by
  induction words with
  | nil => rfl
  | cons w words ih =>
    cases words with
    | nil => simp [writeWords]
    | cons v words =>
      -- the definition has the last word apart, and it hides the shape of the others
      show w.toList ++ ' ' :: writeWords (v :: words) rest =
        (w.toList ++ ' ' :: writeWords (v :: words) []) ++ rest
      rw [ih, List.append_assoc, List.cons_append]

/-- The runs of words with one space between them are the words. -/
theorem runs_writeWords {words : List String} (h : ∀ w ∈ words, Lexeme.IsWord w.toList) :
    Text.runs (writeWords words []) = words.map String.toList := by
  induction words with
  | nil => exact Text.runs_nil
  | cons w words ih =>
    obtain ⟨hne, hchars⟩ := (h w List.mem_cons_self).ascii
    have hone := Text.runs_eq_singleton hne fun c hc => (hchars c hc).2
    cases words with
    | nil => simpa [writeWords] using hone
    | cons v words =>
      show Text.runs (w.toList ++ ' ' :: writeWords (v :: words) []) =
        w.toList :: (v :: words).map String.toList
      rw [Text.runs_append_cons (by decide), hone,
        ih fun u hu => h u (List.mem_cons_of_mem w hu), List.singleton_append]

/-- Indentation adds no run. -/
theorem runs_replicate (n : Nat) (cs : List Char) :
    Text.runs (List.replicate n ' ' ++ cs) = Text.runs cs := by
  induction n with
  | zero => rfl
  | succ n ih => rw [List.replicate_succ, List.cons_append, Text.runs_cons (by decide), ih]

/-- The runs of a line are its words. -/
theorem Line.runs_chars {line : Line} (h : ∀ w ∈ line.words, Lexeme.IsWord w.toList) :
    Text.runs line.chars = line.words.map String.toList := by
  rw [Line.chars, runs_replicate, runs_writeWords h]

/-- The characters of a line are spaces and those of its words. -/
theorem eq_space_or_mem_of_mem_writeWords {words : List String} {c : Char}
    (hc : c ∈ writeWords words []) : c = ' ' ∨ ∃ w ∈ words, c ∈ w.toList := by
  induction words with
  | nil => cases hc
  | cons w words ih =>
    cases words with
    | nil =>
      rw [writeWords, List.append_nil] at hc
      exact .inr ⟨w, List.mem_cons_self, hc⟩
    | cons v words =>
      have hc' : c ∈ w.toList ++ ' ' :: writeWords (v :: words) [] := hc
      rcases List.mem_append.1 hc' with hc' | hc'
      · exact .inr ⟨w, List.mem_cons_self, hc'⟩
      · rcases List.mem_cons.1 hc' with rfl | hc'
        · exact .inl rfl
        · rcases ih hc' with hspace | ⟨u, hu, hcu⟩
          · exact .inl hspace
          · exact .inr ⟨u, List.mem_cons_of_mem w hu, hcu⟩

/-- The characters of a line are ASCII, and none of them is a newline. -/
theorem Line.ascii_of_mem_chars {line : Line} (h : ∀ w ∈ line.words, Lexeme.IsWord w.toList)
    {c : Char} (hc : c ∈ line.chars) : c.toNat < 128 ∧ c ≠ '\n' := by
  have hcases : c = ' ' ∨ ∃ w ∈ line.words, c ∈ w.toList := by
    rcases List.mem_append.1 hc with hc | hc
    · exact .inl (List.eq_of_mem_replicate hc)
    · exact eq_space_or_mem_of_mem_writeWords hc
  rcases hcases with rfl | ⟨w, hw, hcw⟩
  · decide
  · obtain ⟨hlt, hdelim⟩ := (h w hw).ascii.2 c hcw
    refine ⟨hlt, ?_⟩
    rintro rfl
    exact absurd hdelim (by decide)

/-! ## The text of a layout -/

/-- The text of a layout is its lines, each with a newline at its end. -/
theorem foldr_write (lines : List Line) :
    lines.foldr Line.write [] = lines.flatMap fun line => line.chars ++ ['\n'] := by
  induction lines with
  | nil => rfl
  | cons line lines ih =>
    rw [List.foldr_cons, ih, List.flatMap_cons, Line.write, writeWords_append, Line.chars,
      List.append_assoc, List.append_assoc, List.singleton_append]

/-- The words of the text of a layout are those of its lines. -/
theorem Text.words_layoutText {lines : List Line}
    (h : ∀ line ∈ lines, ∀ w ∈ line.words, Lexeme.IsWord w.toList) :
    Text.words (Text.encode (layoutText lines)) =
      lines.flatMap fun line => line.words.map String.toList := by
  have hascii : Text.IsAscii (lines.flatMap fun line => line.chars ++ ['\n']) := by
    intro c hc
    obtain ⟨line, hline, hc⟩ := List.mem_flatMap.1 hc
    rcases List.mem_append.1 hc with hc | hc
    · exact (Line.ascii_of_mem_chars (h line hline) hc).1
    · rw [List.mem_singleton.1 hc]
      decide
  have hbytes : Text.encode (layoutText lines) =
      (lines.map fun line => Text.asciiBytes line.chars).flatMap fun piece => piece ++ [0x0a] := by
    rw [layoutText, foldr_write, Text.encode_ofList hascii, Text.asciiBytes, List.map_flatMap,
      List.flatMap_map]
    simp only [Text.asciiBytes, List.map_append]
    rfl
  have hnewline : ∀ piece ∈ lines.map (fun line => Text.asciiBytes line.chars),
      0x0a ∉ piece := by
    intro piece hpiece hmem
    obtain ⟨line, hline, rfl⟩ := List.mem_map.1 hpiece
    obtain ⟨c, hc, hcode⟩ := List.mem_map.1 hmem
    obtain ⟨hlt, hne⟩ := Line.ascii_of_mem_chars (h line hline) hc
    have hten : c.toNat = '\n'.toNat := by
      rw [← Text.toNat_toUInt8_of_ascii hlt, hcode]
      rfl
    exact hne (Char.toNat_inj.1 hten)
  -- the lines of the bytes are those of the layout, so the runs are compared line by line
  rw [Text.words, hbytes, Text.lines_flatMap hnewline, List.flatMap_map]
  rw [List.flatMap_def, List.flatMap_def]
  refine congrArg List.flatten (List.map_congr_left fun line hline => ?_)
  rw [Text.decode_asciiBytes fun c hc => (Line.ascii_of_mem_chars (h line hline) hc).1,
    Line.runs_chars (h line hline)]

end MiniLua

import MiniLua.Proofs.Readers

/-!
# Characters and lines of a text

What the characters of a text are can be said without a decoder: a character stands for the bytes of
its UTF-8 form, and a byte at which no such form begins is read on its own as the replacement
character. And what its lines are can be said without a search for newlines: a newline closes a line,
and behind the last newline is one more line unless nothing is there. The decoder and the cut into
lines find exactly that, and cutting before decoding finds the lines of the decoded text.

## Delivered

- `Text.Reads`: the characters that bytes are read as.
- `Text.leading_cases`, `Text.leading_encode`: the decoder takes whole UTF-8 forms, and all of them.
- `Text.reads_decode`, `Text.Reads.eq_decode`: bytes are read in one way, the way of the decoder.
- `Text.IsLines`, `Text.IsLines.unique`: the lines of a text.
- `Text.isLines_map_decode`: the lines of the decoded text.
-/

set_option autoImplicit false

namespace MiniLua.Text

/-- The characters that bytes are read as. A character takes the bytes of its UTF-8 form, and a byte at
which no such form begins is read as the replacement character. -/
inductive Reads : Bytes → List Char → Prop
  | nil : Reads [] []
  | char {bytes : Bytes} {cs : List Char} (c : Char) (h : Reads bytes cs) :
      Reads (String.utf8EncodeChar c ++ bytes) (c :: cs)
  | stray {b : UInt8} {bytes : Bytes} {cs : List Char}
      (hb : ∀ c, ¬ String.utf8EncodeChar c <+: b :: bytes) (h : Reads bytes cs) :
      Reads (b :: bytes) (replacement :: cs)

/-! ## Bounds of bytes -/

theorem isContinuation_iff {b : UInt8} :
    isContinuation b = true ↔ 128 ≤ b.toNat ∧ b.toNat ≤ 191 := by
  simp only [isContinuation, Bool.and_eq_true, decide_eq_true_eq, UInt8.le_iff_toNat_le]
  rfl

/-- Four first bytes narrow the bounds of the second one. -/
theorem isSecond_iff {first second : UInt8} :
    isSecond first second = true ↔ 128 ≤ second.toNat ∧ second.toNat ≤ 191 ∧
      (first.toNat = 224 → 160 ≤ second.toNat) ∧ (first.toNat = 237 → second.toNat ≤ 159) ∧
      (first.toNat = 240 → 144 ≤ second.toNat) ∧ (first.toNat = 244 → second.toNat ≤ 143) := by
  unfold isSecond
  simp only [← UInt8.toNat_inj]
  repeat' split
  all_goals
    simp only [isContinuation_iff, Bool.and_eq_true, decide_eq_true_eq, UInt8.le_iff_toNat_le,
      UInt8.reduceToNat] at *
    omega

/-! ## What the decoder takes is a UTF-8 form -/

/-- A valid code is the code of its character. -/
theorem toNat_val_ofNat {n : Nat} (h : n.isValidChar) : (Char.ofNat n).val.toNat = n := by
  rw [Char.ofNat, dif_pos h]
  rfl

theorem ofNat_eq {n : Nat} {b : UInt8} (h : n = b.toNat) : UInt8.ofNat n = b := by
  rw [h, UInt8.ofNat_toNat]

section Forms

variable {b b₁ b₂ b₃ : UInt8}

theorem utf8EncodeChar_one (hb : b.toNat < 128) :
    String.utf8EncodeChar (Char.ofNat b.toNat) = [b] := by
  have hvalid : b.toNat.isValidChar := .inl (by omega)
  simp only [String.utf8EncodeChar, toNat_val_ofNat hvalid]
  rw [if_pos (by omega), ofNat_eq rfl]

theorem utf8EncodeChar_two (hb : 194 ≤ b.toNat ∧ b.toNat ≤ 223) (h₁ : isContinuation b₁ = true) :
    String.utf8EncodeChar (Char.ofNat (b.toNat % 32 * 64 + payload b₁)) = [b, b₁] := by
  rw [isContinuation_iff] at h₁
  unfold payload
  have hvalid : (b.toNat % 32 * 64 + b₁.toNat % 64).isValidChar := .inl (by omega)
  simp only [String.utf8EncodeChar, toNat_val_ofNat hvalid]
  rw [if_neg (by omega), if_pos (by omega), ofNat_eq (b := b) (by omega),
    ofNat_eq (b := b₁) (by omega)]

/-- The bounds of the second byte leave out the codes with shorter forms and the surrogates. -/
theorem utf8EncodeChar_three (hb : 224 ≤ b.toNat ∧ b.toNat ≤ 239) (h₁ : isSecond b b₁ = true)
    (h₂ : isContinuation b₂ = true) :
    String.utf8EncodeChar (Char.ofNat (b.toNat % 16 * 4096 + payload b₁ * 64 + payload b₂)) =
      [b, b₁, b₂] := by
  rw [isSecond_iff] at h₁
  rw [isContinuation_iff] at h₂
  unfold payload
  have hvalid : (b.toNat % 16 * 4096 + b₁.toNat % 64 * 64 + b₂.toNat % 64).isValidChar := by
    unfold Nat.isValidChar
    omega
  simp only [String.utf8EncodeChar, toNat_val_ofNat hvalid]
  rw [if_neg (by omega), if_neg (by omega), if_pos (by omega), ofNat_eq (b := b) (by omega),
    ofNat_eq (b := b₁) (by omega), ofNat_eq (b := b₂) (by omega)]

theorem utf8EncodeChar_four (hb : 240 ≤ b.toNat ∧ b.toNat ≤ 244) (h₁ : isSecond b b₁ = true)
    (h₂ : isContinuation b₂ = true) (h₃ : isContinuation b₃ = true) :
    String.utf8EncodeChar
        (Char.ofNat (b.toNat % 8 * 262144 + payload b₁ * 4096 + payload b₂ * 64 + payload b₃)) =
      [b, b₁, b₂, b₃] := by
  rw [isSecond_iff] at h₁
  rw [isContinuation_iff] at h₂ h₃
  unfold payload
  have hvalid : (b.toNat % 8 * 262144 + b₁.toNat % 64 * 4096 + b₂.toNat % 64 * 64 +
      b₃.toNat % 64).isValidChar := by
    unfold Nat.isValidChar
    omega
  simp only [String.utf8EncodeChar, toNat_val_ofNat hvalid]
  rw [if_neg (by omega), if_neg (by omega), if_neg (by omega), ofNat_eq (b := b) (by omega),
    ofNat_eq (b := b₁) (by omega), ofNat_eq (b := b₂) (by omega), ofNat_eq (b := b₃) (by omega)]

end Forms

/-- The decoder takes one byte as the replacement character, or the UTF-8 form of the character that it
gives. -/
theorem leading_cases (b : UInt8) (rest : Bytes) :
    leading b rest = (replacement, 0) ∨
      String.utf8EncodeChar (leading b rest).1 = b :: rest.take (leading b rest).2 := by
  unfold leading
  simp only [Bool.and_eq_true, decide_eq_true_eq, UInt8.lt_iff_toNat_lt, UInt8.le_iff_toNat_le,
    UInt8.reduceToNat]
  repeat' split
  all_goals try exact .inl rfl
  -- one goal is left for each number of bytes
  · rename_i hb
    exact .inr (utf8EncodeChar_one hb)
  · rename_i hb _ b₁ _ h₁
    exact .inr (utf8EncodeChar_two hb h₁)
  · rename_i hb _ b₁ b₂ _ h
    exact .inr (utf8EncodeChar_three hb h.1 h.2)
  · rename_i hb _ b₁ b₂ b₃ _ h
    exact .inr (utf8EncodeChar_four hb h.1.1 h.1.2 h.2)

/-! ## Every UTF-8 form is taken -/

/-- The UTF-8 form of a character is taken as a whole, whatever follows it. -/
theorem leading_encode (c : Char) (rest : Bytes) :
    ∃ b more, String.utf8EncodeChar c = b :: more ∧ leading b (more ++ rest) = (c, more.length) := by
  have hvalid : c.val.toNat.isValidChar := c.valid
  have hc : Char.ofNat c.val.toNat = c := Char.ofNat_toNat c
  have hbyte {n : Nat} (h : n < 256) : (UInt8.ofNat n).toNat = n := UInt8.toNat_ofNat_of_lt h
  unfold Nat.isValidChar at hvalid
  unfold String.utf8EncodeChar
  generalize c.val.toNat = v at hvalid hc
  -- one case for each number of bytes, in which the code is put together from what they hold of it
  dsimp only
  split
  · refine ⟨_, _, rfl, ?_⟩
    simp (disch := omega) only [leading, UInt8.lt_iff_toNat_lt, UInt8.reduceToNat, hbyte]
    rw [if_pos (by omega), hc]
    rfl
  · split
    · have hcode : (v / 64 % 32 + 192) % 32 * 64 + (v % 64 + 128) % 64 = v := by omega
      refine ⟨_, _, rfl, ?_⟩
      simp (disch := omega) only [leading, Bool.and_eq_true, decide_eq_true_eq,
        UInt8.lt_iff_toNat_lt, UInt8.le_iff_toNat_le, UInt8.reduceToNat, List.cons_append,
        isContinuation_iff, payload, hbyte]
      rw [if_neg (by omega), if_pos (by omega), if_pos (by omega), hcode, hc]
      rfl
    · split
      · have hcode : (v / 4096 % 16 + 224) % 16 * 4096 + (v / 64 % 64 + 128) % 64 * 64 +
            (v % 64 + 128) % 64 = v := by omega
        refine ⟨_, _, rfl, ?_⟩
        simp (disch := omega) only [leading, Bool.and_eq_true, decide_eq_true_eq,
          UInt8.lt_iff_toNat_lt, UInt8.le_iff_toNat_le, UInt8.reduceToNat, List.cons_append,
          isContinuation_iff, isSecond_iff, payload, hbyte]
        rw [if_neg (by omega), if_neg (by omega), if_pos (by omega), if_pos (by omega), hcode, hc]
        rfl
      · have hcode : (v / 262144 % 8 + 240) % 8 * 262144 + (v / 4096 % 64 + 128) % 64 * 4096 +
            (v / 64 % 64 + 128) % 64 * 64 + (v % 64 + 128) % 64 = v := by omega
        refine ⟨_, _, rfl, ?_⟩
        simp (disch := omega) only [leading, Bool.and_eq_true, decide_eq_true_eq,
          UInt8.lt_iff_toNat_lt, UInt8.le_iff_toNat_le, UInt8.reduceToNat, List.cons_append,
          isContinuation_iff, isSecond_iff, payload, hbyte]
        rw [if_neg (by omega), if_neg (by omega), if_neg (by omega), if_pos (by omega),
          if_pos (by omega), hcode, hc]
        rfl

/-- A byte is taken alone as the replacement character exactly when no UTF-8 form begins at it. -/
theorem leading_eq_stray_iff {b : UInt8} {rest : Bytes} :
    leading b rest = (replacement, 0) ↔ ∀ c, ¬ String.utf8EncodeChar c <+: b :: rest := by
  constructor
  · rintro h c ⟨behind, hbytes⟩
    obtain ⟨b', more, hc, hleading⟩ := leading_encode c behind
    rw [hc, List.cons_append, List.cons.injEq] at hbytes
    obtain ⟨rfl, rfl⟩ := hbytes
    rw [h, Prod.mk.injEq] at hleading
    obtain ⟨rfl, hlength⟩ := hleading
    -- the replacement character itself has a form of three bytes
    have hthree := congrArg List.length hc
    rw [List.length_cons, ← hlength] at hthree
    exact absurd hthree (by decide)
  · intro h
    rcases leading_cases b rest with hstray | hchar
    · exact hstray
    · refine absurd ?_ (h (leading b rest).1)
      rw [hchar, List.cons_prefix_cons]
      exact ⟨rfl, List.take_prefix _ _⟩

/-! ## Whole texts -/

/-- Bytes that belong to a character that was read are passed over. -/
theorem decodeAcc_eq_drop (skip : Nat) (bytes : Bytes) (acc : List Char) :
    decodeAcc skip bytes acc = decodeAcc 0 (bytes.drop skip) acc := by
  induction bytes generalizing skip with
  | nil =>
    rw [List.drop_nil]
    cases skip <;> rfl
  | cons b bytes ih =>
    cases skip with
    | zero => rfl
    | succ skip => exact ih skip

/-- The first character of a text is followed by those of the bytes behind it. -/
theorem decode_cons (b : UInt8) (rest : Bytes) :
    decode (b :: rest) = (leading b rest).1 :: decode (rest.drop (leading b rest).2) := by
  rw [decode, decodeAcc]
  change decodeAcc (leading b rest).2 rest [(leading b rest).1] = _
  rw [decodeAcc_eq_append, decodeAcc_eq_drop]
  rfl

/-- Every text is read as its characters. -/
theorem reads_decode (bytes : Bytes) : Reads bytes (decode bytes) := by
  -- on the length, since a character takes several bytes away
  induction hn : bytes.length using Nat.strongRecOn generalizing bytes with
  | ind n ih =>
    cases bytes with
    | nil => exact .nil
    | cons b rest =>
      have hrest : Reads (rest.drop (leading b rest).2) (decode (rest.drop (leading b rest).2)) := by
        refine ih _ ?_ _ rfl
        rw [← hn, List.length_drop, List.length_cons]
        omega
      rw [decode_cons]
      rcases leading_cases b rest with hstray | hchar
      · rw [hstray] at hrest ⊢
        exact .stray (leading_eq_stray_iff.1 hstray) hrest
      · have hbytes : b :: rest = String.utf8EncodeChar (leading b rest).1 ++
            rest.drop (leading b rest).2 := by
          rw [hchar, List.cons_append, List.take_append_drop]
        rw [congrArg Reads hbytes]
        exact .char _ hrest

/-- Bytes are read in one way only. -/
theorem Reads.eq_decode {bytes : Bytes} {cs : List Char} (h : Reads bytes cs) : cs = decode bytes := by
  induction h with
  | nil => rfl
  | @char bytes cs c h ih =>
    obtain ⟨b, more, hbytes, hleading⟩ := leading_encode c bytes
    rw [hbytes, List.cons_append, decode_cons, hleading, List.drop_left, ih]
  | stray hb h ih => rw [decode_cons, leading_eq_stray_iff.2 hb, ih, List.drop_zero]

/-! ## Lines -/

/-- The lines of a text. A newline closes a line, and what stands behind the last newline is one more
line unless it is empty. -/
inductive IsLines : List Char → List (List Char) → Prop
  | none : IsLines [] []
  | last {line : List Char} (hne : line ≠ []) (hline : '\n' ∉ line) : IsLines line [line]
  | closed {line cs : List Char} {lines : List (List Char)} (hline : '\n' ∉ line)
      (h : IsLines cs lines) : IsLines (line ++ '\n' :: cs) (line :: lines)

/-- A line is what stands before the first newline. -/
theorem append_newline_inj {line line' cs cs' : List Char} (hline : '\n' ∉ line)
    (hline' : '\n' ∉ line') (h : line ++ '\n' :: cs = line' ++ '\n' :: cs') :
    line = line' ∧ cs = cs' := by
  induction line generalizing line' with
  | nil =>
    cases line' with
    | nil => exact ⟨rfl, (List.cons.inj h).2⟩
    | cons c line' => exact absurd ((List.cons.inj h).1 ▸ List.mem_cons_self) hline'
  | cons c line ih =>
    cases line' with
    | nil => exact absurd ((List.cons.inj h).1 ▸ List.mem_cons_self) hline
    | cons c' line' =>
      obtain ⟨rfl, hrest⟩ := List.cons.inj h
      obtain ⟨rfl, hcs⟩ := ih (fun hmem => hline (List.mem_cons_of_mem _ hmem))
        (fun hmem => hline' (List.mem_cons_of_mem _ hmem)) hrest
      exact ⟨rfl, hcs⟩

/-- A text has its lines in one way only. -/
theorem IsLines.unique {cs : List Char} {lines lines' : List (List Char)} (h : IsLines cs lines)
    (h' : IsLines cs lines') : lines = lines' := by
  induction h generalizing lines' with
  | none =>
    generalize hcs : ([] : List Char) = cs at h'
    cases h' with
    | none => rfl
    | last hne _ => exact absurd hcs.symm hne
    | closed _ _ => simp at hcs
  | @last line hne hline =>
    cases h' with
    | none => exact absurd rfl hne
    | last _ _ => rfl
    | closed _ _ => exact absurd (List.mem_append_right _ List.mem_cons_self) hline
  | @closed line cs lines hline h ih =>
    generalize hcs : line ++ '\n' :: cs = text at h'
    cases h' with
    | none => simp at hcs
    | last _ hline' => exact absurd (hcs ▸ List.mem_append_right _ List.mem_cons_self) hline'
    | closed hline' h' =>
      obtain ⟨rfl, rfl⟩ := append_newline_inj hline hline' hcs
      rw [ih h']

/-- A newline that is read was a byte of its own. -/
theorem Reads.newline_mem {bytes : Bytes} {cs : List Char} (h : Reads bytes cs) (hmem : '\n' ∈ cs) :
    0x0a ∈ bytes := by
  induction h with
  | nil => cases hmem
  | char c h ih =>
    rcases List.mem_cons.1 hmem with rfl | hmem
    · exact List.mem_append_left _ (by decide)
    · exact List.mem_append_right _ (ih hmem)
  | stray hb h ih =>
    rcases List.mem_cons.1 hmem with heq | hmem
    · exact absurd heq (by decide)
    · exact List.mem_cons_of_mem _ (ih hmem)

/-- Cutting a text into lines and decoding each of them gives the lines of the decoded text. -/
theorem isLines_map_decode (bytes : Bytes) : IsLines (decode bytes) ((lines bytes).map decode) := by
  have hsolid {xs : Bytes} (hxs : 0x0a ∉ xs) : '\n' ∉ decode xs :=
    fun hmem => hxs ((reads_decode xs).newline_mem hmem)
  -- on the length, as the text is taken apart at its first newline
  induction hn : bytes.length using Nat.strongRecOn generalizing bytes with
  | ind n ih =>
    by_cases hmem : (0x0a : UInt8) ∈ bytes
    · obtain ⟨xs, ys, rfl, hxs⟩ := List.eq_append_cons_of_mem hmem
      have hlt : ys.length < n := by
        rw [← hn, List.length_append, List.length_cons]
        omega
      rw [lines_append_cons hxs, decode_append_ascii (by decide), List.map_cons]
      exact .closed (hsolid hxs) (ih _ hlt ys rfl)
    · rw [lines_of_not_mem hmem]
      cases bytes with
      | nil => exact .none
      | cons b rest => exact .last (by rw [decode_cons]; exact List.cons_ne_nil _ _) (hsolid hmem)

end MiniLua.Text

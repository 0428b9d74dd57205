import MetaFed.Text.Percent

/-!
Percent escapes are undone by reading: the written form of a text reads back as the text, and holds
no character but unreserved ones and the escape sign.
-/

namespace MetaFed.Text

namespace Utf8

theorem valid_toNat (c : Char) : c.toNat < 0xD800 ∨ 0xDFFF < c.toNat ∧ c.toNat < 0x110000 := c.valid

theorem encode_lt (s : List Char) : ∀ b ∈ encode s, b < 256 := by
  intro b hb
  obtain ⟨c, _, hc⟩ := List.mem_flatMap.1 hb
  have hv := valid_toNat c
  simp only [encodeChar] at hc
  split at hc
  · simp only [List.mem_singleton] at hc; omega
  split at hc
  · simp only [List.mem_cons, List.not_mem_nil, or_false] at hc; omega
  split at hc
  · simp only [List.mem_cons, List.not_mem_nil, or_false] at hc; omega
  · simp only [List.mem_cons, List.not_mem_nil, or_false] at hc; omega

theorem decodeFrom_first {b : Nat} {p : Pending} (h : first b = .inr p) (bs : List Nat) :
    decodeFrom none (b :: bs) = decodeFrom (some p) bs := by
  simp [decodeFrom, step, step.start, h]

theorem decodeFrom_more {bits owed low high b : Nat} (hl : low ≤ b) (hh : b ≤ high) (bs : List Nat) :
    decodeFrom (some ⟨bits, owed + 1, low, high⟩) (b :: bs) =
      decodeFrom (some ⟨bits * 64 + (b - 0x80), owed, 0x80, 0xBF⟩) bs := by
  simp [decodeFrom, step, hl, hh]

theorem decodeFrom_last {bits low high b : Nat} (hl : low ≤ b) (hh : b ≤ high) (bs : List Nat) :
    decodeFrom (some ⟨bits, 0, low, high⟩) (b :: bs) =
      Char.ofNat (bits * 64 + (b - 0x80)) :: decodeFrom none bs := by
  simp [decodeFrom, step, hl, hh]

theorem first_two {b : Nat} (hl : 0xC2 ≤ b) (hh : b < 0xE0) :
    first b = .inr ⟨b - 0xC0, 0, 0x80, 0xBF⟩ := by
  rw [first, if_neg (by omega), if_neg (by omega), if_pos hh]

/-- A start of three bytes; the bounds of the second byte shut out what two bytes can spell and
what is no character. -/
theorem first_three {b : Nat} (hl : 0xE0 ≤ b) (hh : b < 0xF0) :
    ∃ low high, first b = .inr ⟨b - 0xE0, 1, low, high⟩ ∧
      (low = if b = 0xE0 then 0xA0 else 0x80) ∧ (high = if b = 0xED then 0x9F else 0xBF) := by
  by_cases h0 : b = 0xE0
  · subst h0; exact ⟨_, _, rfl, rfl, rfl⟩
  by_cases hd : b = 0xED
  · subst hd; exact ⟨_, _, rfl, rfl, rfl⟩
  refine ⟨0x80, 0xBF, ?_, by rw [if_neg h0], by rw [if_neg hd]⟩
  rw [first, if_neg (by omega), if_neg (by omega), if_neg (by omega), if_neg h0, if_neg hd,
    if_pos hh]

theorem first_four {b : Nat} (hl : 0xF0 ≤ b) (hh : b ≤ 0xF4) :
    ∃ low high, first b = .inr ⟨b - 0xF0, 2, low, high⟩ ∧
      (low = if b = 0xF0 then 0x90 else 0x80) ∧ (high = if b = 0xF4 then 0x8F else 0xBF) := by
  by_cases h0 : b = 0xF0
  · subst h0; exact ⟨_, _, rfl, rfl, rfl⟩
  by_cases h4 : b = 0xF4
  · subst h4; exact ⟨_, _, rfl, rfl, rfl⟩
  refine ⟨0x80, 0xBF, ?_, by rw [if_neg h0], by rw [if_neg h4]⟩
  rw [first, if_neg (by omega), if_neg (by omega), if_neg (by omega), if_neg (by omega),
    if_neg (by omega), if_neg (by omega), if_neg h0, if_pos (by omega)]

/-- The bytes of a character leave nothing pending, whatever follows them. -/
theorem decodeFrom_encodeChar (c : Char) (bs : List Nat) :
    decodeFrom none (encodeChar c ++ bs) = c :: decodeFrom none bs := by
  have hv := valid_toNat c
  have hof : Char.ofNat c.toNat = c := Char.ofNat_toNat c
  simp only [encodeChar]
  generalize c.toNat = n at hv hof ⊢
  subst hof
  -- One case for each number of bytes. The bounds on a second byte rule out what fewer bytes
  -- can spell and what is no character, so that they hold of the bytes written here.
  by_cases h1 : n < 0x80
  · simp [h1, decodeFrom, step, step.start, first]
  by_cases h2 : n < 0x800
  · rw [if_neg h1, if_pos h2, List.cons_append, List.cons_append, List.nil_append,
      decodeFrom_first (first_two (by omega) (by omega)), decodeFrom_last (by omega) (by omega),
      show (0xC0 + n / 64 - 0xC0) * 64 + (0x80 + n % 64 - 0x80) = n by omega]
  by_cases h3 : n < 0x10000
  · rw [if_neg h1, if_neg h2, if_pos h3]
    obtain ⟨low, high, hf, hlow, hhigh⟩ :=
      first_three (b := 0xE0 + n / 4096) (by omega) (by omega)
    simp only [List.cons_append, List.nil_append]
    rw [decodeFrom_first hf, decodeFrom_more (by split at hlow <;> omega)
      (by split at hhigh <;> omega), decodeFrom_last (by omega) (by omega),
      show ((0xE0 + n / 4096 - 0xE0) * 64 + (0x80 + n / 64 % 64 - 0x80)) * 64 +
        (0x80 + n % 64 - 0x80) = n by omega]
  · rw [if_neg h1, if_neg h2, if_neg h3]
    obtain ⟨low, high, hf, hlow, hhigh⟩ :=
      first_four (b := 0xF0 + n / 262144) (by omega) (by omega)
    simp only [List.cons_append, List.nil_append]
    rw [decodeFrom_first hf, decodeFrom_more (by split at hlow <;> omega)
      (by split at hhigh <;> omega), decodeFrom_more (by omega) (by omega),
      decodeFrom_last (by omega) (by omega),
      show (((0xF0 + n / 262144 - 0xF0) * 64 + (0x80 + n / 4096 % 64 - 0x80)) * 64 +
        (0x80 + n / 64 % 64 - 0x80)) * 64 + (0x80 + n % 64 - 0x80) = n by omega]

theorem decode_encode (s : List Char) : decode (encode s) = s := by
  rw [decode]
  induction s with
  | nil => rfl
  | cons c s ih => rw [encode, List.flatMap_cons, decodeFrom_encodeChar, ← encode, ih]

end Utf8

namespace Percent

theorem hexValue_hexDigit : ∀ n < 16, hexValue? (hexDigit n) = some n := by
  decide

theorem toNat_ofNat_ascii : ∀ b < 128, (Char.ofNat b).toNat = b := by
  decide

theorem unreserved_of_hexDigit : ∀ n < 16, isUnreserved (hexDigit n) = true := by
  decide

theorem pieces_cons {c : Char} (h : c ≠ '%') (s : List Char) : pieces (c :: s) = plain c :: pieces s := by
  rw [pieces]
  rintro a b r rfl -
  exact h rfl

theorem pieces_escapeByte {b : Nat} (hb : b < 256) (s : List Char) :
    pieces (escapeByte b ++ s) = .byte b :: pieces s := by
  rw [escapeByte]
  split
  · rename_i h
    have hn : (Char.ofNat b).toNat = b := toNat_ofNat_ascii b h.1
    have hne : Char.ofNat b ≠ '%' := by
      intro he
      rw [he] at h
      exact absurd h.2 (by decide)
    rw [List.singleton_append, pieces_cons hne, plain, hn, if_pos h.1]
  · simp only [List.cons_append, List.nil_append]
    rw [pieces, hexValue_hexDigit _ (by omega), hexValue_hexDigit _ (by omega)]
    simp only [List.cons.injEq, Piece.byte.injEq, and_true]
    omega

theorem pieces_escapeBytes {bs : List Nat} (h : ∀ b ∈ bs, b < 256) :
    pieces (bs.flatMap escapeByte) = bs.map .byte := by
  induction bs with
  | nil => rfl
  | cons b bs ih =>
      rw [List.flatMap_cons, pieces_escapeByte (h b List.mem_cons_self), List.map_cons,
        ih fun x hx => h x (List.mem_cons_of_mem b hx)]

theorem pieces_escape (s : List Char) : pieces (escape s) = (Utf8.encode s).map .byte :=
  pieces_escapeBytes (Utf8.encode_lt s)

theorem decodeFrom_bytes (p : Option Utf8.Pending) (bs : List Nat) :
    decodeFrom p (bs.map .byte) = Utf8.decodeFrom p bs := by
  induction bs generalizing p with
  | nil => rfl
  | cons b bs ih => rw [List.map_cons, decodeFrom, ih, Utf8.decodeFrom]

theorem unescape_escape (s : List Char) : unescape (escape s) = s := by
  rw [unescape, pieces_escape, decodeFrom_bytes, ← Utf8.decode, Utf8.decode_encode]

theorem mem_escape {s : List Char} {c : Char} (h : c ∈ escape s) : c = '%' ∨ isUnreserved c = true := by
  obtain ⟨b, hb, hc⟩ := List.mem_flatMap.1 h
  have hlt := Utf8.encode_lt s b hb
  rw [escapeByte] at hc
  split at hc
  · rename_i hu
    rw [List.mem_singleton.1 hc]
    exact .inr hu.2
  · simp only [List.mem_cons, List.not_mem_nil, or_false] at hc
    rcases hc with rfl | rfl | rfl
    · exact .inl rfl
    · exact .inr (unreserved_of_hexDigit _ (by omega))
    · exact .inr (unreserved_of_hexDigit _ (by omega))

theorem colon_not_mem_escape (s : List Char) : ':' ∉ escape s := by
  intro h
  rcases mem_escape h with h | h
  · exact absurd h (by decide)
  · exact absurd h (by decide)

end Percent

end MetaFed.Text

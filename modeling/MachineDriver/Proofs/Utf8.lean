import MachineDriver.Text.Utf8

set_option autoImplicit false

/-!
# Reading UTF-8 undoes writing it

The bytes of a text are read back as this text, and no other bytes are: `decode_eq_ok_iff`. A
character takes one to four bytes; for each length there is one lemma that reads it and one that
writes it, both in terms of the numbers of the bytes, and `piecesAfter_none_eq_char_cons_iff` puts
them together.

A lenient reader takes any bytes. Which of them it keeps and which it replaces is said by
`Repaired`, without a word about how bytes are read, and `repaired_iff` shows that it does so. -/

namespace MachineDriver.Text.Utf8

/-! ## Numbers of characters and bytes -/

theorem toNat_ofNat {n : Nat} (h : n < 0xD800 ∨ 0xDFFF < n ∧ n < 0x110000) :
    (Char.ofNat n).toNat = n := by
  have hvalid : n.isValidChar := h
  rw [Char.ofNat, dif_pos hvalid]
  rfl

theorem toNat_range (c : Char) : c.toNat < 0xD800 ∨ 0xDFFF < c.toNat ∧ c.toNat < 0x110000 :=
  c.valid

theorem toNat_byte {n : Nat} (h : n < 256) : (UInt8.ofNat n).toNat = n := by
  simp [Nat.mod_eq_of_lt h]

theorem byte_eq {n : Nat} (b : UInt8) (h : n = b.toNat) : UInt8.ofNat n = b := by
  rw [h, UInt8.ofNat_toNat]

/-! ## Writing a character -/

section Writing

variable {c : Char} (b₀ b₁ b₂ b₃ : UInt8)

theorem encode_one (h : c.toNat < 0x80) : String.utf8EncodeChar c = [UInt8.ofNat c.toNat] := by
  have hv : c.val.toNat ≤ 127 := Nat.le_of_lt_succ h
  rw [String.utf8EncodeChar, if_pos hv]
  rfl

theorem encode_ascii {b : UInt8} (h : b.toNat < 0x80) :
    String.utf8EncodeChar (Char.ofNat b.toNat) = [b] := by
  have hn : (Char.ofNat b.toNat).toNat = b.toNat := toNat_ofNat (.inl (by omega))
  rw [encode_one (by omega), hn, UInt8.ofNat_toNat]

theorem encode_two (hlow : 0x80 ≤ c.toNat) (hhigh : c.toNat < 0x800)
    (h₀ : b₀.toNat = c.toNat / 64 + 192) (h₁ : b₁.toNat = c.toNat % 64 + 128) :
    String.utf8EncodeChar c = [b₀, b₁] := by
  have hv : c.val.toNat = c.toNat := rfl
  rw [String.utf8EncodeChar, hv, if_neg (by omega), if_pos (by omega), byte_eq b₀ (by omega),
    byte_eq b₁ (by omega)]

theorem encode_three (hlow : 0x800 ≤ c.toNat) (hhigh : c.toNat < 0x10000)
    (h₀ : b₀.toNat = c.toNat / 4096 + 224) (h₁ : b₁.toNat = c.toNat / 64 % 64 + 128)
    (h₂ : b₂.toNat = c.toNat % 64 + 128) : String.utf8EncodeChar c = [b₀, b₁, b₂] := by
  have hv : c.val.toNat = c.toNat := rfl
  rw [String.utf8EncodeChar, hv, if_neg (by omega), if_neg (by omega), if_pos (by omega),
    byte_eq b₀ (by omega), byte_eq b₁ h₁.symm, byte_eq b₂ h₂.symm]

theorem encode_four (hlow : 0x10000 ≤ c.toNat) (h₀ : b₀.toNat = c.toNat / 262144 + 240)
    (h₁ : b₁.toNat = c.toNat / 4096 % 64 + 128) (h₂ : b₂.toNat = c.toNat / 64 % 64 + 128)
    (h₃ : b₃.toNat = c.toNat % 64 + 128) : String.utf8EncodeChar c = [b₀, b₁, b₂, b₃] := by
  have hv : c.val.toNat = c.toNat := rfl
  have hrange := toNat_range c
  rw [String.utf8EncodeChar, hv, if_neg (by omega), if_neg (by omega), if_neg (by omega),
    byte_eq b₀ (by omega), byte_eq b₁ h₁.symm, byte_eq b₂ h₂.symm, byte_eq b₃ h₃.symm]

end Writing

/-! ## Reading a character -/

section Reading

variable {b : UInt8}

theorem start_one (h : b.toNat < 0x80) : start b = .whole (Char.ofNat b.toNat) := by
  simp [start, h]

theorem start_two (h : 0xC2 ≤ b.toNat) (h' : b.toNat < 0xE0) :
    start b = .begins ⟨0x80, 0xBF, 1, 1, b.toNat - 0xC0⟩ := by
  grind [start]

theorem start_three (h : 0xE0 ≤ b.toNat) (h' : b.toNat < 0xF0) :
    start b = .begins ⟨if b.toNat = 0xE0 then 0xA0 else 0x80,
      if b.toNat = 0xED then 0x9F else 0xBF, 2, 1, b.toNat - 0xE0⟩ := by
  grind [start]

theorem start_four (h : 0xF0 ≤ b.toNat) (h' : b.toNat ≤ 0xF4) :
    start b = .begins ⟨if b.toNat = 0xF0 then 0x90 else 0x80,
      if b.toNat = 0xF4 then 0x8F else 0xBF, 3, 1, b.toNat - 0xF0⟩ := by
  grind [start]

theorem start_stray (h : 0x80 ≤ b.toNat) (h' : b.toNat < 0xC2 ∨ 0xF4 < b.toNat) :
    start b = .stray := by
  grind [start]

theorem piecesAfter_begins {begun : Begun} (h : start b = .begins begun) (rest : List UInt8) :
    piecesAfter none (b :: rest) = piecesAfter (some begun) rest := by
  rw [piecesAfter_none_cons, h]

variable {low high owed seen bits : Nat} {bytes : List UInt8} {c : Char} {ps : List Piece}

/-- A character to which one byte is owed is completed by it. -/
theorem piecesAfter_last_iff :
    piecesAfter (some ⟨low, high, 1, seen, bits⟩) bytes = .char c :: ps
      ↔ ∃ byte rest, bytes = byte :: rest ∧ low ≤ byte.toNat ∧ byte.toNat ≤ high
        ∧ c = Char.ofNat (bits * 64 + (byte.toNat - 0x80)) ∧ ps = piecesAfter none rest := by
  cases bytes with
  | nil => simp
  | cons byte rest =>
      rw [piecesAfter_some_cons]
      by_cases hrange : low ≤ byte.toNat ∧ byte.toNat ≤ high
      · rw [if_pos hrange]
        grind
      · rw [if_neg hrange]
        grind

/-- A character to which more bytes are owed goes on with the next one. -/
theorem piecesAfter_more_iff (howed : owed ≠ 1) :
    piecesAfter (some ⟨low, high, owed, seen, bits⟩) bytes = .char c :: ps
      ↔ ∃ byte rest, bytes = byte :: rest ∧ low ≤ byte.toNat ∧ byte.toNat ≤ high
        ∧ piecesAfter (some ⟨0x80, 0xBF, owed - 1, seen + 1, bits * 64 + (byte.toNat - 0x80)⟩) rest
          = .char c :: ps := by
  cases bytes with
  | nil => simp
  | cons byte rest =>
      rw [piecesAfter_some_cons]
      by_cases hrange : low ≤ byte.toNat ∧ byte.toNat ≤ high
      · rw [if_pos hrange]
        grind
      · rw [if_neg hrange]
        grind

end Reading

/-! ## Characters -/

/-- What was written as a character is read as this character. -/
theorem piecesAfter_encode (c : Char) (rest : List UInt8) :
    piecesAfter none (String.utf8EncodeChar c ++ rest) = .char c :: piecesAfter none rest := by
  have hrange := toNat_range c
  have hsame {n : Nat} (h : n = c.toNat) : c = Char.ofNat n := by rw [h, Char.ofNat_toNat]
  rcases Nat.lt_or_ge c.toNat 0x80 with hone | hone
  · have h₀ : (UInt8.ofNat c.toNat).toNat = c.toNat := toNat_byte (by omega)
    rw [encode_one hone, List.singleton_append, piecesAfter_none_cons, start_one (by omega), h₀,
      Char.ofNat_toNat]
  obtain ⟨b, hb⟩ : ∃ b : UInt8, b.toNat = c.toNat % 64 + 128 := ⟨_, toNat_byte (by omega)⟩
  rcases Nat.lt_or_ge c.toNat 0x800 with htwo | htwo
  · obtain ⟨b₀, h₀⟩ : ∃ b : UInt8, b.toNat = c.toNat / 64 + 192 := ⟨_, toNat_byte (by omega)⟩
    rw [encode_two b₀ b hone htwo h₀ hb, List.cons_append,
      piecesAfter_begins (start_two (by omega) (by omega)), piecesAfter_last_iff]
    exact ⟨b, rest, rfl, by omega, by omega, hsame (by omega), rfl⟩
  obtain ⟨a, ha⟩ : ∃ b : UInt8, b.toNat = c.toNat / 64 % 64 + 128 := ⟨_, toNat_byte (by omega)⟩
  rcases Nat.lt_or_ge c.toNat 0x10000 with hthree | hthree
  · obtain ⟨b₀, h₀⟩ : ∃ b : UInt8, b.toNat = c.toNat / 4096 + 224 := ⟨_, toNat_byte (by omega)⟩
    rw [encode_three b₀ a b htwo hthree h₀ ha hb, List.cons_append,
      piecesAfter_begins (start_three (by omega) (by omega)), piecesAfter_more_iff (by decide)]
    refine ⟨a, b :: rest, rfl, by split <;> omega, by split <;> omega, ?_⟩
    exact piecesAfter_last_iff.mpr ⟨b, rest, rfl, by omega, by omega, hsame (by omega), rfl⟩
  · obtain ⟨b₀, h₀⟩ : ∃ b : UInt8, b.toNat = c.toNat / 262144 + 240 := ⟨_, toNat_byte (by omega)⟩
    obtain ⟨b₁, h₁⟩ : ∃ b : UInt8, b.toNat = c.toNat / 4096 % 64 + 128 :=
      ⟨_, toNat_byte (by omega)⟩
    rw [encode_four b₀ b₁ a b hthree h₀ h₁ ha hb, List.cons_append,
      piecesAfter_begins (start_four (by omega) (by omega)), piecesAfter_more_iff (by decide)]
    refine ⟨b₁, a :: b :: rest, rfl, by split <;> omega, by split <;> omega, ?_⟩
    rw [piecesAfter_more_iff (by decide)]
    refine ⟨a, b :: rest, rfl, by omega, by omega, ?_⟩
    exact piecesAfter_last_iff.mpr ⟨b, rest, rfl, by omega, by omega, hsame (by omega), rfl⟩

section Inversion

variable {b₀ : UInt8} {bytes : List UInt8} {c : Char} {ps : List Piece}

theorem exists_of_two (hlow : 0xC2 ≤ b₀.toNat) (hhigh : b₀.toNat < 0xE0)
    (h : piecesAfter none (b₀ :: bytes) = .char c :: ps) :
    ∃ rest, b₀ :: bytes = String.utf8EncodeChar c ++ rest ∧ ps = piecesAfter none rest := by
  rw [piecesAfter_begins (start_two hlow hhigh), piecesAfter_last_iff] at h
  obtain ⟨b₁, rest, rfl, hlow₁, hhigh₁, hc, rfl⟩ := h
  have hn := congrArg Char.toNat hc
  rw [toNat_ofNat (by omega)] at hn
  refine ⟨rest, ?_, rfl⟩
  rw [encode_two b₀ b₁ (by omega) (by omega) (by omega) (by omega)]
  rfl

theorem exists_of_three (hlow : 0xE0 ≤ b₀.toNat) (hhigh : b₀.toNat < 0xF0)
    (h : piecesAfter none (b₀ :: bytes) = .char c :: ps) :
    ∃ rest, b₀ :: bytes = String.utf8EncodeChar c ++ rest ∧ ps = piecesAfter none rest := by
  rw [piecesAfter_begins (start_three hlow hhigh), piecesAfter_more_iff (by decide)] at h
  obtain ⟨b₁, rest, rfl, hlow₁, hhigh₁, h⟩ := h
  obtain ⟨b₂, rest, rfl, hlow₂, hhigh₂, hc, rfl⟩ := piecesAfter_last_iff.mp h
  have hb₁ : 0x80 ≤ b₁.toNat ∧ b₁.toNat ≤ 0xBF := by
    constructor
    · split at hlow₁ <;> omega
    · split at hhigh₁ <;> omega
  -- The ranges of the second byte leave out the short forms and the surrogates.
  have hbits : b₀.toNat = 0xE0 → 0xA0 ≤ b₁.toNat := by
    intro h₀
    rwa [if_pos h₀] at hlow₁
  have hsurrogate : b₀.toNat = 0xED → b₁.toNat ≤ 0x9F := by
    intro h₀
    rwa [if_pos h₀] at hhigh₁
  have hn := congrArg Char.toNat hc
  rw [toNat_ofNat (by omega)] at hn
  refine ⟨rest, ?_, rfl⟩
  rw [encode_three b₀ b₁ b₂ (by omega) (by omega) (by omega) (by omega) (by omega)]
  rfl

theorem exists_of_four (hlow : 0xF0 ≤ b₀.toNat) (hhigh : b₀.toNat ≤ 0xF4)
    (h : piecesAfter none (b₀ :: bytes) = .char c :: ps) :
    ∃ rest, b₀ :: bytes = String.utf8EncodeChar c ++ rest ∧ ps = piecesAfter none rest := by
  rw [piecesAfter_begins (start_four hlow hhigh), piecesAfter_more_iff (by decide)] at h
  obtain ⟨b₁, rest, rfl, hlow₁, hhigh₁, h⟩ := h
  obtain ⟨b₂, rest, rfl, hlow₂, hhigh₂, h⟩ := (piecesAfter_more_iff (by decide)).mp h
  obtain ⟨b₃, rest, rfl, hlow₃, hhigh₃, hc, rfl⟩ := piecesAfter_last_iff.mp h
  have hb₁ : 0x80 ≤ b₁.toNat ∧ b₁.toNat ≤ 0xBF := by
    constructor
    · split at hlow₁ <;> omega
    · split at hhigh₁ <;> omega
  have hbits : b₀.toNat = 0xF0 → 0x90 ≤ b₁.toNat := by
    intro h₀
    rwa [if_pos h₀] at hlow₁
  have hlast : b₀.toNat = 0xF4 → b₁.toNat ≤ 0x8F := by
    intro h₀
    rwa [if_pos h₀] at hhigh₁
  have hn := congrArg Char.toNat hc
  rw [toNat_ofNat (by omega)] at hn
  refine ⟨rest, ?_, rfl⟩
  rw [encode_four b₀ b₁ b₂ b₃ (by omega) (by omega) (by omega) (by omega) (by omega)]
  rfl

/-- What is read as a character was written as this character. -/
theorem exists_of_piecesAfter (h : piecesAfter none bytes = .char c :: ps) :
    ∃ rest, bytes = String.utf8EncodeChar c ++ rest ∧ ps = piecesAfter none rest := by
  cases bytes with
  | nil => simp at h
  | cons b₀ bytes =>
      rcases Nat.lt_or_ge b₀.toNat 0x80 with hone | hone
      · rw [piecesAfter_none_cons, start_one hone, List.cons.injEq, Piece.char.injEq] at h
        obtain ⟨rfl, rfl⟩ := h
        have hn : (Char.ofNat b₀.toNat).toNat = b₀.toNat := toNat_ofNat (by omega)
        refine ⟨bytes, ?_, rfl⟩
        rw [encode_one (by omega), hn, UInt8.ofNat_toNat, List.singleton_append]
      · by_cases hstray : b₀.toNat < 0xC2 ∨ 0xF4 < b₀.toNat
        · rw [piecesAfter_none_cons, start_stray hone hstray] at h
          cases h
        · rcases Nat.lt_or_ge b₀.toNat 0xE0 with htwo | htwo
          · exact exists_of_two (by omega) htwo h
          rcases Nat.lt_or_ge b₀.toNat 0xF0 with hthree | hthree
          · exact exists_of_three htwo hthree h
          · exact exists_of_four hthree (by omega) h

end Inversion

/-- **The first piece of a byte string** is a character exactly when the bytes of this character
    come first. -/
theorem piecesAfter_none_eq_char_cons_iff {bytes : List UInt8} {c : Char} {ps : List Piece} :
    piecesAfter none bytes = .char c :: ps
      ↔ ∃ rest, bytes = String.utf8EncodeChar c ++ rest ∧ ps = piecesAfter none rest := by
  refine ⟨exists_of_piecesAfter, ?_⟩
  rintro ⟨rest, rfl, rfl⟩
  exact piecesAfter_encode c rest

/-! ## Texts -/

theorem piecesAfter_some_ne_nil (begun : Begun) (bytes : List UInt8) :
    piecesAfter (some begun) bytes ≠ [] := by
  induction bytes generalizing begun with
  | nil => simp
  | cons byte rest ih =>
      rw [piecesAfter_some_cons]
      split
      · split
        · exact List.cons_ne_nil _ _
        · exact ih _
      · exact List.cons_ne_nil _ _

theorem piecesAfter_none_eq_nil_iff {bytes : List UInt8} :
    piecesAfter none bytes = [] ↔ bytes = [] := by
  cases bytes with
  | nil => simp
  | cons byte rest =>
      rw [piecesAfter_none_cons]
      split
      · simp
      · simp [piecesAfter_some_ne_nil]
      · simp

theorem charsFrom_eq_ok_nil_iff {index : Nat} {ps : List Piece} :
    charsFrom index ps = .ok [] ↔ ps = [] := by
  cases ps with
  | nil => simp [charsFrom]
  | cons p ps => cases p <;> simp [charsFrom]; split <;> simp

theorem charsFrom_eq_ok_cons_iff {index : Nat} {ps : List Piece} {c : Char} {cs : List Char} :
    charsFrom index ps = .ok (c :: cs)
      ↔ ∃ rest, ps = .char c :: rest ∧ charsFrom (index + c.utf8Size) rest = .ok cs := by
  cases ps with
  | nil => simp [charsFrom]
  | cons p ps =>
      cases p with
      | char c' =>
          rw [charsFrom]
          split <;> grind
      | broken n => simp [charsFrom]
      | cut n => simp [charsFrom]

/-- The characters of a byte string are those that it was written from. -/
theorem charsFrom_pieces_eq_ok_iff {index : Nat} {bytes : List UInt8} {cs : List Char} :
    charsFrom index (piecesAfter none bytes) = .ok cs ↔ bytes = encodeChars cs := by
  induction cs generalizing index bytes with
  | nil => rw [charsFrom_eq_ok_nil_iff, piecesAfter_none_eq_nil_iff]; rfl
  | cons c cs ih =>
      rw [charsFrom_eq_ok_cons_iff]
      simp only [piecesAfter_none_eq_char_cons_iff]
      constructor
      · rintro ⟨ps, ⟨rest, rfl, rfl⟩, hrest⟩
        rw [ih.mp hrest]
        rfl
      · rintro rfl
        exact ⟨_, ⟨encodeChars cs, rfl, rfl⟩, ih.mpr rfl⟩

/-- **Reading undoes writing**, and reads nothing that was not written. -/
theorem decode_eq_ok_iff {bytes : List UInt8} {s : String} :
    decode bytes = .ok s ↔ bytes = encode s := by
  have hchars (cs : List Char) : decodeChars bytes = .ok cs ↔ bytes = encodeChars cs :=
    charsFrom_pieces_eq_ok_iff
  unfold decode
  constructor
  · intro h
    split at h
    · rename_i cs hcs
      cases h
      rw [encode, String.toList_ofList]
      exact (hchars cs).mp hcs
    · cases h
  · intro h
    rw [(hchars s.toList).mpr h]
    simp

/-! ## Repaired bytes

What a lenient reader makes of bytes that are no text, in terms of the bytes of characters alone. -/

/-- Some character begins with these bytes. -/
def Begins (run : List UInt8) : Prop :=
  ∃ c : Char, run <+: String.utf8EncodeChar c

/-- Where a part that is no character begins with `run`, the bytes `more` are the rest of it and
    `bytes` come after it: it is as long as some character could go on, and not shorter than
    `run`. -/
structure Ends (run more bytes : List UInt8) : Prop where
  begun : more ≠ [] → Begins (run ++ more)
  longest : ∀ next rest, bytes = next :: rest → ¬ Begins (run ++ more ++ [next])

/-- Bytes with each character kept, and the replacement character in place of each part that is
    none. -/
inductive Repaired : List UInt8 → List UInt8 → Prop where
  | nil : Repaired [] []
  | char (c : Char) {bytes repaired : List UInt8} (h : Repaired bytes repaired) :
      Repaired (String.utf8EncodeChar c ++ bytes) (String.utf8EncodeChar c ++ repaired)
  | part (first : UInt8) (more : List UInt8) {bytes repaired : List UInt8}
      (broken : ∀ c, ¬ String.utf8EncodeChar c <+: first :: more ++ bytes)
      (ends : Ends [first] more bytes) (h : Repaired bytes repaired) :
      Repaired (first :: more ++ bytes) (String.utf8EncodeChar '\uFFFD' ++ repaired)

/-! ## The parts that are no characters -/

section Parts

variable {run bytes : List UInt8} {b : Begun} {byte : UInt8} {p : Piece} {ps : List Piece}

/-- Bytes that are read as something else do not begin with a character. -/
theorem not_isPrefix_of_pieces (h : piecesAfter none bytes = p :: ps) (hp : ∀ c, p ≠ .char c)
    (c : Char) : ¬ String.utf8EncodeChar c <+: bytes := by
  rintro ⟨rest, rfl⟩
  rw [piecesAfter_encode] at h
  cases h
  exact hp c rfl

/-- What is owed to a character can be supplied. -/
theorem exists_completion (low high seen bits owed : Nat) (hlow : low ≤ byte.toNat)
    (hhigh : byte.toNat ≤ high) :
    ∃ tail c, piecesAfter (some ⟨low, high, owed + 1, seen, bits⟩) (byte :: tail)
      = [Piece.char c] := by
  induction owed generalizing low high seen bits byte with
  | zero =>
      refine ⟨[], Char.ofNat (bits * 64 + (byte.toNat - 0x80)), ?_⟩
      exact piecesAfter_last_iff.mpr ⟨byte, [], rfl, hlow, hhigh, rfl, rfl⟩
  | succ owed ih =>
      have hnext : (0x80 : UInt8).toNat = 0x80 := rfl
      obtain ⟨tail, c, htail⟩ := @ih 0x80 0x80 0xBF (seen + 1) (bits * 64 + (byte.toNat - 0x80))
        (by omega) (by omega)
      refine ⟨0x80 :: tail, c, ?_⟩
      rw [piecesAfter_more_iff (by omega)]
      exact ⟨byte, 0x80 :: tail, rfl, hlow, hhigh, htail⟩

/-- After the bytes `run` a character is open, to which bytes are owed. -/
structure Opens (run : List UInt8) (b : Begun) : Prop where
  reads : ∀ rest, piecesAfter none (run ++ rest) = piecesAfter (some b) rest
  owed : 1 ≤ b.owed

/-- Some character begins with the bytes that were read and any byte that is owed. -/
theorem Opens.begins (h : Opens run b) (hrange : b.low ≤ byte.toNat ∧ byte.toNat ≤ b.high) :
    Begins (run ++ [byte]) := by
  obtain ⟨owed, howed⟩ := Nat.exists_eq_add_of_le' h.owed
  obtain ⟨tail, c, htail⟩ := exists_completion b.low b.high b.seen b.bits owed hrange.1 hrange.2
  have hpieces : piecesAfter none (run ++ byte :: tail) = [.char c] := by
    rw [h.reads, ← htail, ← howed]
  obtain ⟨rest, hrun, hrest⟩ := exists_of_piecesAfter hpieces
  rw [piecesAfter_none_eq_nil_iff.mp hrest.symm, List.append_nil] at hrun
  exact ⟨c, tail, by rw [← hrun]; simp⟩

/-- No character begins with the bytes that were read and any other byte. -/
theorem Opens.not_begins (h : Opens run b)
    (hrange : ¬ (b.low ≤ byte.toNat ∧ byte.toNat ≤ b.high)) : ¬ Begins (run ++ [byte]) := by
  rintro ⟨c, tail, hc⟩
  obtain ⟨ps, hbroken⟩ : ∃ ps, piecesAfter (some b) (byte :: tail) = .broken b.seen :: ps := by
    rw [piecesAfter_some_cons, if_neg hrange]
    exact ⟨_, rfl⟩
  have hpieces := piecesAfter_encode c []
  rw [List.append_nil, ← hc, List.append_assoc, h.reads, List.singleton_append, hbroken] at hpieces
  cases hpieces

/-- If a character was begun and is not what comes first, then the part that is read in its place
    is as long as it can be. -/
theorem Opens.exists_ends (hopen : Opens run b) (h : piecesAfter (some b) bytes = p :: ps)
    (hp : ∀ c, p ≠ .char c) :
    ∃ more rest, bytes = more ++ rest ∧ Ends run more rest ∧ ps = piecesAfter none rest := by
  induction bytes generalizing run b with
  | nil =>
      rw [piecesAfter_some_nil, List.cons.injEq] at h
      exact ⟨[], [], rfl, ⟨fun hne => absurd rfl hne, by simp⟩, h.2.symm⟩
  | cons byte rest ih =>
      rw [piecesAfter_some_cons] at h
      split at h
      · rename_i hrange
        split at h
        · cases h
          exact absurd rfl (hp _)
        · rename_i hone
          -- The character stays open, with this byte read.
          have hnext : Opens (run ++ [byte]) _ :=
            { reads := fun tail => by
                rw [List.append_assoc, List.singleton_append, hopen.reads,
                  piecesAfter_some_cons, if_pos hrange, if_neg hone]
              owed := Nat.le_sub_one_of_lt (Nat.lt_of_le_of_ne hopen.owed (Ne.symm hone)) }
          obtain ⟨more, rest, rfl, hends, rfl⟩ := ih hnext h
          refine ⟨byte :: more, rest, rfl, ⟨fun _ => ?_, fun next tail heq => ?_⟩, rfl⟩
          · by_cases hne : more = []
            · rw [hne]
              exact hopen.begins hrange
            · simpa using hends.begun hne
          · simpa using hends.longest next tail heq
      · rename_i hrange
        cases h
        refine ⟨[], byte :: rest, rfl, ⟨fun hne => absurd rfl hne, fun next tail heq => ?_⟩, ?_⟩
        · cases heq
          simpa using hopen.not_begins hrange
        · rfl

theorem opens_of_start (h : start byte = .begins b) : Opens [byte] b where
  reads := piecesAfter_begins h
  owed := by
    unfold start at h
    grind

/-- Where something else than a character is read first, it is a part that is none. -/
theorem exists_ends_of_pieces (h : piecesAfter none bytes = p :: ps) (hp : ∀ c, p ≠ .char c) :
    ∃ first more rest, bytes = first :: more ++ rest ∧ Ends [first] more rest
      ∧ ps = piecesAfter none rest := by
  cases bytes with
  | nil => simp at h
  | cons first bytes =>
      cases hstart : start first with
      | whole c =>
          rw [piecesAfter_none_cons, hstart] at h
          cases h
          exact absurd rfl (hp c)
      | stray =>
          have hread (tail : List UInt8) :
              piecesAfter none (first :: tail) = .broken 1 :: piecesAfter none tail := by
            rw [piecesAfter_none_cons, hstart]
          rw [hread, List.cons.injEq] at h
          refine ⟨first, [], bytes, rfl, ⟨fun hne => absurd rfl hne, ?_⟩, h.2.symm⟩
          rintro next - - ⟨c, tail, hc⟩
          have hpieces := piecesAfter_encode c []
          rw [List.append_nil, ← hc, List.append_nil, List.singleton_append, List.cons_append,
            hread] at hpieces
          cases hpieces
      | begins b =>
          rw [piecesAfter_begins hstart] at h
          obtain ⟨more, rest, rfl, hends, rfl⟩ := (opens_of_start hstart).exists_ends h hp
          exact ⟨first, more, rest, rfl, hends, rfl⟩

/-- A part that is no character is determined by the bytes that it begins. -/
theorem Ends.eq_of_append_eq {run more more' rest rest' : List UInt8} (h : Ends run more rest)
    (h' : Ends run more' rest') (heq : more ++ rest = more' ++ rest') :
    more = more' ∧ rest = rest' := by
  have hshort {m m' r r' a : List UInt8} (hm : Ends run m r) (hm' : Ends run m' r')
      (hmore : m' = m ++ a) (hrest : r = a ++ r') : a = [] := by
    cases a with
    | nil => rfl
    | cons next a =>
        obtain ⟨c, tail, hc⟩ := hm'.begun (by simp [hmore])
        refine absurd ⟨c, a ++ tail, ?_⟩ (hm.longest next _ hrest)
        rw [← hc, hmore]
        simp
  rcases List.append_eq_append_iff.mp heq with ⟨a, hmore, hrest⟩ | ⟨a, hmore, hrest⟩
  · cases hshort h h' hmore hrest
    exact ⟨by simpa using hmore.symm, by simpa using hrest⟩
  · cases hshort h' h hmore hrest
    exact ⟨by simpa using hmore, by simpa using hrest.symm⟩

end Parts

/-! ## The lenient reader repairs -/

theorem encode_decodeLenient (bytes : List UInt8) :
    encode (decodeLenient bytes)
      = ((piecesAfter none bytes).map Piece.lenient).flatMap String.utf8EncodeChar := by
  rw [encode, decodeLenient, String.toList_ofList]
  rfl

/-- What is no character is read as the replacement character. -/
theorem lenient_of_ne {p : Piece} (hp : ∀ c, p ≠ .char c) : p.lenient = '\uFFFD' := by
  cases p with
  | char c => exact absurd rfl (hp c)
  | broken n => rfl
  | cut n => rfl

theorem repaired_encode_decodeLenient (bytes : List UInt8) :
    Repaired bytes (encode (decodeLenient bytes)) := by
  rw [encode_decodeLenient]
  -- A piece is at least one byte long, so what comes after it is shorter.
  induction hlength : bytes.length using Nat.strongRecOn generalizing bytes with
  | ind n ih =>
      subst hlength
      cases hpieces : piecesAfter none bytes with
      | nil =>
          rw [piecesAfter_none_eq_nil_iff.mp hpieces]
          exact .nil
      | cons p ps =>
          by_cases hp : ∃ c, p = .char c
          · obtain ⟨c, rfl⟩ := hp
            obtain ⟨rest, rfl, rfl⟩ := exists_of_piecesAfter hpieces
            have hpos : 0 < (String.utf8EncodeChar c).length := by
              rw [String.length_utf8EncodeChar]
              exact c.utf8Size_pos
            exact .char c (ih rest.length (by rw [List.length_append]; omega) rest rfl)
          · have hp (c : Char) : p ≠ .char c := fun heq => hp ⟨c, heq⟩
            have hbroken := not_isPrefix_of_pieces hpieces hp
            obtain ⟨first, more, rest, rfl, hends, rfl⟩ := exists_ends_of_pieces hpieces hp
            rw [List.map_cons, List.flatMap_cons, lenient_of_ne hp]
            exact .part first more hbroken hends
              (ih rest.length (by rw [List.length_append, List.length_cons]; omega) rest rfl)

/-- **Reading leniently and writing again repairs** a byte string, and does nothing else to it. -/
theorem repaired_iff {bytes repaired : List UInt8} :
    Repaired bytes repaired ↔ repaired = encode (decodeLenient bytes) := by
  refine ⟨fun h => ?_, fun h => h ▸ repaired_encode_decodeLenient bytes⟩
  rw [encode_decodeLenient]
  induction h with
  | nil => rfl
  | char c h ih => rw [piecesAfter_encode, List.map_cons, List.flatMap_cons, ← ih]; rfl
  | @part first more bytes repaired broken ends h ih =>
      cases hpieces : piecesAfter none (first :: more ++ bytes) with
      | nil => cases piecesAfter_none_eq_nil_iff.mp hpieces
      | cons p ps =>
          have hp (c : Char) : p ≠ .char c := by
            rintro rfl
            obtain ⟨rest, heq, -⟩ := exists_of_piecesAfter hpieces
            exact broken c ⟨rest, heq.symm⟩
          obtain ⟨first', more', rest, heq, hends, rfl⟩ := exists_ends_of_pieces hpieces hp
          rw [List.cons_append, List.cons_append, List.cons.injEq] at heq
          obtain ⟨rfl, heq⟩ := heq
          obtain ⟨rfl, rfl⟩ := ends.eq_of_append_eq hends heq
          rw [List.map_cons, List.flatMap_cons, lenient_of_ne hp, ih]

/-- Bytes are left as they are exactly when they are a text. -/
theorem encode_decodeLenient_eq_iff {bytes : List UInt8} :
    encode (decodeLenient bytes) = bytes ↔ ∃ s, bytes = encode s := by
  constructor
  · intro h
    exact ⟨_, h.symm⟩
  · rintro ⟨s, rfl⟩
    rw [decodeLenient_of_decode (decode_eq_ok_iff.mpr rfl)]

end MachineDriver.Text.Utf8

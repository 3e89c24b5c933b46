import MachineDriver.Proofs.Utf8
import MachineDriver.Text.Percent

set_option autoImplicit false

/-!
# Percent-decoding

Decoding replaces every percent sign with two hexadecimal digits after it and nothing else, and it
makes a text shorter wherever it does so. So a text is decoded to itself exactly when it has no such
part: `Percent.decode_eq_self_iff`. Decoding works on bytes and the statement is about characters;
an ASCII byte of a text is one of its characters, which `Utf8.exists_char_of_ascii_byte` says.

A text that was percent-encoded is decoded to itself whatever characters were left as they are, the
percent sign apart: `Percent.decode_encode`. So is the value of a form, where blanks are written as
plus signs: `Percent.decodeForm_encodeForm`. -/

namespace MachineDriver.Text

/-! ## ASCII bytes of texts -/

namespace Utf8

@[simp] theorem encodeChars_nil : encodeChars [] = [] := rfl

@[simp] theorem encodeChars_cons (c : Char) (cs : List Char) :
    encodeChars (c :: cs) = String.utf8EncodeChar c ++ encodeChars cs := rfl

@[simp] theorem encodeChars_append (cs ds : List Char) :
    encodeChars (cs ++ ds) = encodeChars cs ++ encodeChars ds :=
  List.flatMap_append

theorem encodeChars_eq_nil_iff {cs : List Char} : encodeChars cs = [] ↔ cs = [] := by
  cases cs with
  | nil => simp
  | cons c cs => simp [String.utf8EncodeChar_ne_nil]

/-- The bytes of a character outside ASCII are outside ASCII. -/
theorem le_of_mem_utf8EncodeChar {c : Char} (h : 0x80 ≤ c.toNat) {b : UInt8}
    (hb : b ∈ String.utf8EncodeChar c) : 0x80 ≤ b.toNat := by
  have hrange := toNat_range c
  have hbyte {n : Nat} (hb : b = UInt8.ofNat n) (hlow : 0x80 ≤ n) (hhigh : n < 256) :
      0x80 ≤ b.toNat := by
    rwa [hb, toNat_byte hhigh]
  by_cases hthree : c.toNat < 0x800
  · rw [encode_two _ _ h hthree (toNat_byte (by omega)) (toNat_byte (by omega))] at hb
    simp only [List.mem_cons, List.not_mem_nil, or_false] at hb
    rcases hb with hb | hb <;> exact hbyte hb (by omega) (by omega)
  · by_cases hfour : c.toNat < 0x10000
    · rw [encode_three _ _ _ (by omega) hfour (toNat_byte (by omega)) (toNat_byte (by omega))
        (toNat_byte (by omega))] at hb
      simp only [List.mem_cons, List.not_mem_nil, or_false] at hb
      rcases hb with hb | hb | hb <;> exact hbyte hb (by omega) (by omega)
    · rw [encode_four _ _ _ _ (by omega) (toNat_byte (by omega)) (toNat_byte (by omega))
        (toNat_byte (by omega)) (toNat_byte (by omega))] at hb
      simp only [List.mem_cons, List.not_mem_nil, or_false] at hb
      rcases hb with hb | hb | hb | hb <;> exact hbyte hb (by omega) (by omega)

/-- An ASCII byte of a text is one of its characters. -/
theorem exists_char_of_ascii_byte {cs : List Char} {before after : List UInt8} {b : UInt8}
    (hb : b.toNat < 0x80) (h : encodeChars cs = before ++ b :: after) :
    ∃ front c back, cs = front ++ c :: back ∧ c.toNat = b.toNat ∧ encodeChars front = before
      ∧ encodeChars back = after := by
  induction cs generalizing before with
  | nil => simp at h
  | cons c cs ih =>
      rw [encodeChars_cons] at h
      rcases List.append_eq_append_iff.mp h with ⟨tail, rfl, hcs⟩ | ⟨tail, hc, htail⟩
      · obtain ⟨front, d, back, rfl, hd, rfl, rfl⟩ := ih hcs
        exact ⟨c :: front, d, back, rfl, hd, rfl, rfl⟩
      · cases tail with
        | nil =>
            -- The byte is the first one after the character, which ends where `before` does.
            obtain ⟨front, d, back, rfl, hd, hfront, rfl⟩ := @ih [] htail.symm
            rw [encodeChars_eq_nil_iff] at hfront
            subst hfront
            exact ⟨[c], d, back, rfl, hd, by simpa using hc, rfl⟩
        | cons b' tail =>
            obtain ⟨rfl, rfl⟩ := List.cons.inj htail
            -- The character has an ASCII byte, so it is ASCII and has no other byte.
            have hascii : c.toNat < 0x80 := Nat.lt_of_not_le fun hwide => by
              have hle := le_of_mem_utf8EncodeChar hwide (b := b) (by simp [hc])
              omega
            rw [encode_one hascii] at hc
            cases before with
            | nil =>
                obtain ⟨rfl, rfl⟩ := List.cons.inj hc
                exact ⟨[], c, cs, rfl, (toNat_byte (by omega)).symm, rfl, rfl⟩
            | cons _ before => simp at hc

end Utf8

/-! ## Escapes -/

namespace Percent

/-- The value of a byte that is a hexadecimal digit. -/
def byteDigit? (b : UInt8) : Option Nat :=
  digitValue? 16 (Char.ofNat b.toNat)

/-- A percent sign with two hexadecimal digits after it stands in a text. -/
def HasEscape (s : String) : Prop :=
  ∃ before x y after, s.toList = before ++ '%' :: x :: y :: after
    ∧ (digitValue? 16 x).isSome ∧ (digitValue? 16 y).isSome

theorem lt_of_digitValue? {c : Char} (h : (digitValue? 16 c).isSome) : c.toNat < 0x80 := by
  simp only [digitValue?] at h
  split at h
  · omega
  · split at h
    · omega
    · split at h
      · omega
      · simp at h

theorem byteDigit?_of_toNat_eq {b : UInt8} {c : Char} (h : c.toNat = b.toNat) :
    byteDigit? b = digitValue? 16 c := by
  rw [byteDigit?, ← h, Char.ofNat_toNat]

variable {keep : Char → Bool}

theorem decodeBytes_cons_of_ne {p : UInt8} (h : p ≠ 0x25) (rest : List UInt8) :
    decodeBytes (p :: rest) = p :: decodeBytes rest := by
  cases rest with
  | nil => simp [decodeBytes]
  | cons a rest =>
      cases rest with
      | nil => simp [decodeBytes]
      | cons b rest => rw [decodeBytes, if_neg h]

/-- An escape is decoded to the byte of its digits. -/
theorem decodeBytes_escape {a b : UInt8} {x y : Nat} (ha : byteDigit? a = some x)
    (hb : byteDigit? b = some y) (rest : List UInt8) :
    decodeBytes (0x25 :: a :: b :: rest) = UInt8.ofNat (x * 16 + y) :: decodeBytes rest := by
  unfold byteDigit? at ha hb
  rw [decodeBytes, if_pos rfl, ha, hb]

theorem digitValue?_upperHexDigit {n : Nat} (h : n < 16) :
    digitValue? 16 (upperHexDigit n) = some n := by
  have hall : ∀ n < 16, digitValue? 16 (upperHexDigit n) = some n := by decide
  exact hall n h

/-- The byte of a hexadecimal digit. -/
theorem encode_upperHexDigit {n : Nat} (h : n < 16) :
    ∃ b, String.utf8EncodeChar (upperHexDigit n) = [b] ∧ byteDigit? b = some n := by
  have hvalue := digitValue?_upperHexDigit h
  have hascii : (upperHexDigit n).toNat < 0x80 := lt_of_digitValue? (by rw [hvalue]; rfl)
  refine ⟨_, Utf8.encode_one hascii, ?_⟩
  rw [byteDigit?_of_toNat_eq (Utf8.toNat_byte (by omega)).symm]
  exact hvalue

/-- The written form of a byte is decoded to this byte. -/
theorem decodeBytes_encodeByte_append (h : keep '%' = false) (byte : UInt8) (rest : List UInt8) :
    decodeBytes (Utf8.encodeChars (encodeByte keep byte) ++ rest) = byte :: decodeBytes rest := by
  have hbyte := byte.toNat_lt
  unfold encodeByte
  dsimp only
  split
  · rename_i hkept
    rw [Bool.and_eq_true, decide_eq_true_eq] at hkept
    have hne : byte ≠ 0x25 := by
      rintro rfl
      exact absurd hkept.2 (Bool.eq_false_iff.mp h)
    rw [Utf8.encodeChars_cons, Utf8.encode_ascii hkept.1]
    exact decodeBytes_cons_of_ne hne rest
  · obtain ⟨a, ha, hx⟩ := encode_upperHexDigit (n := byte.toNat / 16) (by omega)
    obtain ⟨b, hb, hy⟩ := encode_upperHexDigit (n := byte.toNat % 16) (by omega)
    have hsplit : byte.toNat / 16 * 16 + byte.toNat % 16 = byte.toNat := by omega
    rw [Utf8.encodeChars_cons, Utf8.encodeChars_cons, Utf8.encodeChars_cons, ha, hb]
    calc decodeBytes (0x25 :: a :: b :: rest)
        = UInt8.ofNat (byte.toNat / 16 * 16 + byte.toNat % 16) :: decodeBytes rest :=
          decodeBytes_escape hx hy rest
      _ = byte :: decodeBytes rest := by rw [hsplit, UInt8.ofNat_toNat]

theorem decodeBytes_flatMap_encodeByte (h : keep '%' = false) (bytes : List UInt8) :
    decodeBytes (Utf8.encodeChars (bytes.flatMap (encodeByte keep))) = bytes := by
  induction bytes with
  | nil => simp [decodeBytes]
  | cons byte bytes ih =>
      rw [List.flatMap_cons, Utf8.encodeChars_append, decodeBytes_encodeByte_append h, ih]

/-- **Decoding undoes encoding**, whatever may stand as itself besides the percent sign. -/
theorem decode_encode (h : keep '%' = false) (s : String) : decode (encode keep s) = .ok s := by
  rw [decode, Utf8.decode_eq_ok_iff, Utf8.encode, encode, String.toList_ofList]
  exact decodeBytes_flatMap_encodeByte h (Utf8.encode s)

/-- The written form of a byte is made of a character that may stand as itself, or of a percent sign
    and hexadecimal digits. -/
theorem notMem_encodeByte {c : Char} (hkeep : keep c = false) (hpercent : c ≠ '%')
    (hdigit : digitValue? 16 c = none) (byte : UInt8) : c ∉ encodeByte keep byte := by
  have hne {n : Nat} (hn : n < 16) : c ≠ upperHexDigit n := by
    rintro rfl
    rw [digitValue?_upperHexDigit hn] at hdigit
    cases hdigit
  have hbyte := byte.toNat_lt
  intro hmem
  unfold encodeByte at hmem
  dsimp only at hmem
  split at hmem
  · rename_i hkept
    rw [Bool.and_eq_true] at hkept
    rw [List.mem_singleton] at hmem
    rw [← hmem, hkeep] at hkept
    cases hkept.2
  · simp only [List.mem_cons, List.not_mem_nil, or_false] at hmem
    rcases hmem with hmem | hmem | hmem
    · exact hpercent hmem
    · exact hne (by omega) hmem
    · exact hne (by omega) hmem

/-- An encoded text has the characters that may stand as themselves, percent signs and hexadecimal
    digits. -/
theorem notMem_encode {c : Char} (hkeep : keep c = false) (hpercent : c ≠ '%')
    (hdigit : digitValue? 16 c = none) (s : String) : c ∉ (encode keep s).toList := by
  rw [encode, String.toList_ofList, List.mem_flatMap]
  rintro ⟨byte, -, hmem⟩
  exact notMem_encodeByte hkeep hpercent hdigit byte hmem

theorem encode_ne_nil {s : String} (h : s ≠ "") : (encode keep s).toList ≠ [] := by
  rw [encode, String.toList_ofList, ne_eq, List.flatMap_eq_nil_iff]
  intro hall
  have hbytes : Utf8.encode s ≠ [] := by
    rw [Utf8.encode, ne_eq, Utf8.encodeChars_eq_nil_iff, String.toList_eq_nil_iff]
    exact h
  obtain ⟨byte, hbyte⟩ := List.exists_mem_of_ne_nil _ hbytes
  have hform := hall byte hbyte
  unfold encodeByte at hform
  dsimp only at hform
  split at hform <;> cases hform

/-! ## Forms

The value of a query parameter is written like any other text, but a blank becomes a plus sign. -/

/-- A byte of a form-encoded value, where a plus sign stands for a blank. -/
def readFormByte (byte : UInt8) : UInt8 :=
  if byte = 0x2B then 0x20 else byte

/-- The text of a form-encoded value, if the decoded bytes are UTF-8. -/
def decodeForm (s : String) : Except Utf8.Fault String :=
  Utf8.decode (decodeBytes ((Utf8.encode s).map readFormByte))

/-- The characters that stand for themselves in a form-encoded value. -/
def isFormChar (c : Char) : Bool :=
  isAlphanumeric c || c = '*' || c = '-' || c = '.' || c = '_'

/-- The written form of one byte of a value. -/
def encodeFormByte (byte : UInt8) : List Char :=
  if byte = 0x20 then ['+'] else encodeByte isFormChar byte

theorem toList_encodeForm (s : String) :
    (encodeForm s).toList = (Utf8.encode s).flatMap encodeFormByte :=
  String.toList_ofList

/-- Where no plus sign stands, none is read. -/
theorem map_readFormByte_of_notMem {cs : List Char} (h : '+' ∉ cs) :
    (Utf8.encodeChars cs).map readFormByte = Utf8.encodeChars cs := by
  have hsame : ∀ byte ∈ Utf8.encodeChars cs, readFormByte byte = byte := by
    intro byte hbyte
    refine if_neg ?_
    rintro rfl
    obtain ⟨before, after, hsplit⟩ := List.append_of_mem hbyte
    obtain ⟨front, c, back, rfl, hc, -, -⟩ := Utf8.exists_char_of_ascii_byte (by decide) hsplit
    obtain rfl : c = '+' := Char.toNat_inj.mp hc
    exact h (by simp)
  rw [List.map_congr_left hsame, List.map_id']

theorem decodeBytes_encodeFormByte_append (byte : UInt8) (rest : List UInt8) :
    decodeBytes ((Utf8.encodeChars (encodeFormByte byte)).map readFormByte ++ rest)
      = byte :: decodeBytes rest := by
  unfold encodeFormByte
  split
  · rename_i hblank
    subst hblank
    exact decodeBytes_cons_of_ne (by decide) rest
  · rw [map_readFormByte_of_notMem (notMem_encodeByte (by decide) (by decide) (by decide) byte)]
    exact decodeBytes_encodeByte_append (by decide) byte rest

/-- **A form-encoded value is decoded to its text.** -/
theorem decodeForm_encodeForm (s : String) : decodeForm (encodeForm s) = .ok s := by
  have hbytes (bytes : List UInt8) : decodeBytes
      ((Utf8.encodeChars (bytes.flatMap encodeFormByte)).map readFormByte) = bytes := by
    induction bytes with
    | nil => simp [decodeBytes]
    | cons byte bytes ih =>
        rw [List.flatMap_cons, Utf8.encodeChars_append, List.map_append,
          decodeBytes_encodeFormByte_append, ih]
  rw [decodeForm, Utf8.decode_eq_ok_iff, Utf8.encode, toList_encodeForm]
  exact hbytes (Utf8.encode s)

/-- A form-encoded value has the characters that stand for themselves, plus and percent signs and
    hexadecimal digits. -/
theorem notMem_encodeForm {c : Char} (hkeep : isFormChar c = false) (hplus : c ≠ '+')
    (hpercent : c ≠ '%') (hdigit : digitValue? 16 c = none) (s : String) :
    c ∉ (encodeForm s).toList := by
  rw [toList_encodeForm, List.mem_flatMap]
  rintro ⟨byte, -, hmem⟩
  unfold encodeFormByte at hmem
  split at hmem
  · exact hplus (List.mem_singleton.mp hmem)
  · exact notMem_encodeByte hkeep hpercent hdigit byte hmem

end Percent

end MachineDriver.Text

set_option autoImplicit false

/-!
# UTF-8

A byte string is cut into pieces: well-formed characters, and between them the longest runs of bytes
that begin a character and are then broken off. A strict reader reports the first such run by its
place; a lenient reader puts the replacement character for each. Both read the same pieces, so they
agree wherever the strict one succeeds.
-/

namespace MachineDriver.Text.Utf8

/-- The UTF-8 bytes of a list of characters. -/
def encodeChars (cs : List Char) : List UInt8 :=
  cs.flatMap String.utf8EncodeChar

/-- The UTF-8 bytes of a text. -/
def encode (s : String) : List UInt8 :=
  encodeChars s.toList

/-! ## Pieces -/

/-- A character of which some bytes have been read: the range of the next byte, how many bytes are
still owed, how many have been read, and the bits read so far. -/
structure Begun where
  low : Nat
  high : Nat
  owed : Nat
  seen : Nat
  bits : Nat

/-- What a byte is at the start of a character: a whole character, a beginning, or neither. -/
inductive Start where
  | whole (c : Char)
  | begins (b : Begun)
  | stray

/-- Every first byte of the table of well-formed sequences. -/
def start (byte : UInt8) : Start :=
  let n := byte.toNat
  if n < 0x80 then .whole (Char.ofNat n)
  else if n < 0xC2 then .stray
  else if n < 0xE0 then .begins ⟨0x80, 0xBF, 1, 1, n - 0xC0⟩
  else if n = 0xE0 then .begins ⟨0xA0, 0xBF, 2, 1, 0⟩
  else if n = 0xED then .begins ⟨0x80, 0x9F, 2, 1, n - 0xE0⟩
  else if n < 0xF0 then .begins ⟨0x80, 0xBF, 2, 1, n - 0xE0⟩
  else if n = 0xF0 then .begins ⟨0x90, 0xBF, 3, 1, 0⟩
  else if n < 0xF4 then .begins ⟨0x80, 0xBF, 3, 1, n - 0xF0⟩
  else if n = 0xF4 then .begins ⟨0x80, 0x8F, 3, 1, 4⟩
  else .stray

/-- A piece of a byte string. -/
inductive Piece where
  /-- A well-formed character. -/
  | char (c : Char)
  /-- As many bytes as could begin a character that the next byte rules out. -/
  | broken (length : Nat)
  /-- The bytes of a character that the end of the string cuts off. -/
  | cut (length : Nat)
  deriving DecidableEq, Repr

/-- The number of bytes of a piece. -/
def Piece.length : Piece → Nat
  | .char c => c.utf8Size
  | .broken n => n
  | .cut n => n

/-- The pieces of a byte string that follows the beginning of a character, if one is open. -/
def piecesAfter : Option Begun → List UInt8 → List Piece
  | none, [] => []
  | some b, [] => [.cut b.seen]
  | none, byte :: rest =>
    match start byte with
    | .whole c => .char c :: piecesAfter none rest
    | .begins b => piecesAfter (some b) rest
    | .stray => .broken 1 :: piecesAfter none rest
  | some b, byte :: rest =>
    let n := byte.toNat
    if b.low ≤ n ∧ n ≤ b.high then
      let bits := b.bits * 64 + (n - 0x80)
      if b.owed = 1 then .char (Char.ofNat bits) :: piecesAfter none rest
      else piecesAfter (some ⟨0x80, 0xBF, b.owed - 1, b.seen + 1, bits⟩) rest
    else
      .broken b.seen ::
        match start byte with
        | .whole c => .char c :: piecesAfter none rest
        | .begins b' => piecesAfter (some b') rest
        | .stray => .broken 1 :: piecesAfter none rest

@[simp] theorem piecesAfter_none_nil : piecesAfter none [] = [] := rfl

@[simp] theorem piecesAfter_some_nil (b : Begun) : piecesAfter (some b) [] = [.cut b.seen] := rfl

theorem piecesAfter_none_cons (byte : UInt8) (rest : List UInt8) :
    piecesAfter none (byte :: rest) = match start byte with
      | .whole c => .char c :: piecesAfter none rest
      | .begins b => piecesAfter (some b) rest
      | .stray => .broken 1 :: piecesAfter none rest := rfl

/-- A byte completes a character or goes on with it, or else it is read as if none were open. -/
theorem piecesAfter_some_cons (b : Begun) (byte : UInt8) (rest : List UInt8) :
    piecesAfter (some b) (byte :: rest) =
      if b.low ≤ byte.toNat ∧ byte.toNat ≤ b.high then
        if b.owed = 1 then
          .char (Char.ofNat (b.bits * 64 + (byte.toNat - 0x80))) :: piecesAfter none rest
        else
          piecesAfter (some ⟨0x80, 0xBF, b.owed - 1, b.seen + 1,
            b.bits * 64 + (byte.toNat - 0x80)⟩) rest
      else .broken b.seen :: piecesAfter none (byte :: rest) := rfl

/-- The pieces of a byte string. -/
def pieces (bytes : List UInt8) : List Piece :=
  piecesAfter none bytes

/-! ## Strict and lenient reading -/

/-- Where a byte string stops being UTF-8. -/
inductive Fault where
  | invalid (length index : Nat)
  | incomplete (index : Nat)
  deriving DecidableEq, Repr

/-- How a fault is reported. -/
def Fault.message : Fault → String
  | .invalid length index => s!"invalid utf-8 sequence of {length} bytes from index {index}"
  | .incomplete index => s!"incomplete utf-8 byte sequence from index {index}"

/-- The characters of pieces that begin at an index, if all are well-formed. -/
def charsFrom (index : Nat) : List Piece → Except Fault (List Char)
  | [] => .ok []
  | .char c :: rest =>
    match charsFrom (index + c.utf8Size) rest with
    | .ok cs => .ok (c :: cs)
    | .error e => .error e
  | .broken n :: _ => .error (.invalid n index)
  | .cut _ :: _ => .error (.incomplete index)

/-- The characters of a byte string, which must be well-formed. -/
def decodeChars (bytes : List UInt8) : Except Fault (List Char) :=
  charsFrom 0 (pieces bytes)

/-- The text of a byte string, which must be well-formed. -/
def decode (bytes : List UInt8) : Except Fault String :=
  match decodeChars bytes with
  | .ok cs => .ok (String.ofList cs)
  | .error e => .error e

/-- The character a lenient reader sees in a piece: the replacement character in a faulty one. -/
def Piece.lenient : Piece → Char
  | .char c => c
  | .broken _ => '\uFFFD'
  | .cut _ => '\uFFFD'

/-- The text of a byte string, each faulty piece replaced by U+FFFD. -/
def decodeLenient (bytes : List UInt8) : String :=
  String.ofList ((pieces bytes).map Piece.lenient)

/-! ## Agreement of the two readers -/

theorem map_lenient_of_charsFrom {index : Nat} {ps : List Piece} {cs : List Char}
    (h : charsFrom index ps = .ok cs) : ps.map Piece.lenient = cs := by
  induction ps generalizing index cs with
  | nil => simpa [charsFrom] using h
  | cons p ps ih =>
    cases p with
    | char c =>
      simp only [charsFrom] at h
      split at h
      · rename_i tail ht
        cases h
        simp [Piece.lenient, ih ht]
      · cases h
    | broken n => simp [charsFrom] at h
    | cut n => simp [charsFrom] at h

/-- Where strict reading succeeds, lenient reading gives the same text. -/
theorem decodeLenient_of_decode {bytes : List UInt8} {s : String} (h : decode bytes = .ok s) :
    decodeLenient bytes = s := by
  unfold decode decodeChars at h
  split at h
  · rename_i cs hc
    cases h
    rw [decodeLenient, map_lenient_of_charsFrom hc]
  · cases h

end MachineDriver.Text.Utf8

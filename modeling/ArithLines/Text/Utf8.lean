/-! UTF-8. `decode` reads bytes one at a time. Where they do not go on as a character must, the
bytes of it read so far count as one error, and the byte at fault is read anew, so that each error
stands for the longest run of bytes that begins some character. -/

namespace ArithLines.Text.Utf8

def encode (text : List Char) : List UInt8 := text.flatMap String.utf8EncodeChar

/-- The number of bytes of the encoding. -/
def size : List Char → Nat
  | [] => 0
  | c :: text => c.utf8Size + size text

/-- A character whose first bytes are read: the value of their bits, the number of bytes missing
after the next one, and the range in which the next one has to lie. -/
structure Opened where
  value : Nat
  missing : Nat
  low : Nat
  high : Nat
deriving DecidableEq

/-- What one byte comes to: the characters and errors that it completes, where `none` is an error,
and the character that is opened after it. -/
structure Step where
  units : List (Option Char)
  opened : Option Opened

/-- The range of bytes that go on with a character. -/
def Opened.rest (value missing : Nat) : Opened := ⟨value, missing, 0x80, 0xbf⟩

/-- Reads a byte that begins a character. The range of the second byte keeps out encodings that are
too long, surrogates, and values past the last code point. -/
def start (byte : UInt8) : Step :=
  let b := byte.toNat
  if b ≤ 0x7f then ⟨[some (Char.ofNat b)], none⟩
  else if b < 0xc2 then ⟨[none], none⟩
  else if b ≤ 0xdf then ⟨[], some (.rest (b - 0xc0) 0)⟩
  else if b ≤ 0xef then
    let low := if b = 0xe0 then 0xa0 else 0x80
    let high := if b = 0xed then 0x9f else 0xbf
    ⟨[], some ⟨b - 0xe0, 1, low, high⟩⟩
  else if b ≤ 0xf4 then
    let low := if b = 0xf0 then 0x90 else 0x80
    let high := if b = 0xf4 then 0x8f else 0xbf
    ⟨[], some ⟨b - 0xf0, 2, low, high⟩⟩
  else ⟨[none], none⟩

def step (opened : Option Opened) (byte : UInt8) : Step :=
  match opened with
  | none => start byte
  | some o =>
    if o.low ≤ byte.toNat ∧ byte.toNat ≤ o.high then
      let value := o.value * 64 + (byte.toNat - 0x80)
      match o.missing with
      | 0 => ⟨[some (Char.ofNat value)], none⟩
      | missing + 1 => ⟨[], some (.rest value missing)⟩
    else
      let again := start byte
      ⟨none :: again.units, again.opened⟩

/-- The characters and errors of the bytes, when `opened` is what came before. A character that is
still open at the end is an error. -/
def decodeFrom (opened : Option Opened) : List UInt8 → List (Option Char)
  | [] => if opened.isSome then [none] else []
  | byte :: bytes =>
    let read := step opened byte
    read.units ++ decodeFrom read.opened bytes

def decode (bytes : List UInt8) : List (Option Char) := decodeFrom none bytes

def replacement : Char := '\ufffd'

/-- The text of the bytes, with a replacement character for every error. -/
def decodeLossy (bytes : List UInt8) : List Char := (decode bytes).map (·.getD replacement)

def decode? (bytes : List UInt8) : Option (List Char) :=
  let units := decode bytes
  if units.all Option.isSome then some (units.filterMap id) else none

@[simp] theorem encode_append (a b : List Char) : encode (a ++ b) = encode a ++ encode b := by
  simp [encode]

@[simp] theorem size_nil : size [] = 0 := rfl

@[simp] theorem size_cons (c : Char) (text : List Char) :
    size (c :: text) = c.utf8Size + size text := rfl

@[simp] theorem size_append (a b : List Char) : size (a ++ b) = size a + size b := by
  induction a with
  | nil => simp
  | cons c a ih => simp [ih, Nat.add_assoc]

theorem length_encode (text : List Char) : (encode text).length = size text := by
  induction text with
  | nil => rfl
  | cons c text ih =>
    rw [size_cons, ← ih]
    simp [encode, String.length_utf8EncodeChar]

end ArithLines.Text.Utf8

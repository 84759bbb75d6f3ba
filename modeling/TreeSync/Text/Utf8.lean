import TreeSync.Bytes

namespace TreeSync.Utf8

/-! Reading byte strings that are mostly UTF-8.

Names and messages arrive as bytes and may be malformed. `scan` cuts a byte
string into characters and into the longest stretches that begin a character
but never complete one; every other reading of the bytes is a map over that cut.
-/

/-- One step of a cut: a whole character, or bytes that belong to none. -/
inductive Piece where
  | char (char : Char)
  | broken (bytes : Bytes)
deriving DecidableEq, Repr

/-- A character whose lead byte has been read. Its next byte has to lie between
`low` and `high`, which is how overlong forms, surrogates and code points past
the last one are kept out. -/
structure Pending where
  bytes : Bytes
  missing : Nat
  low : UInt8
  high : UInt8
  value : Nat

/-- Classifies a byte met between characters. -/
def start (byte : UInt8) : Piece ⊕ Pending :=
  let lead := byte.toNat
  if lead < 0x80 then .inl (.char (Char.ofNat lead))
  else if lead < 0xC2 then .inl (.broken [byte])
  else if lead < 0xE0 then .inr ⟨[byte], 1, 0x80, 0xBF, lead - 0xC0⟩
  else if lead = 0xE0 then .inr ⟨[byte], 2, 0xA0, 0xBF, 0⟩
  else if lead = 0xED then .inr ⟨[byte], 2, 0x80, 0x9F, 0xD⟩
  else if lead < 0xF0 then .inr ⟨[byte], 2, 0x80, 0xBF, lead - 0xE0⟩
  else if lead = 0xF0 then .inr ⟨[byte], 3, 0x90, 0xBF, 0⟩
  else if lead < 0xF4 then .inr ⟨[byte], 3, 0x80, 0xBF, lead - 0xF0⟩
  else if lead = 0xF4 then .inr ⟨[byte], 3, 0x80, 0x8F, 4⟩
  else .inl (.broken [byte])

def Pending.extend (pending : Pending) (byte : UInt8) : Piece ⊕ Pending :=
  let value := pending.value * 64 + (byte.toNat - 0x80)
  if pending.missing ≤ 1 then .inl (.char (Char.ofNat value))
  else .inr ⟨pending.bytes ++ [byte], pending.missing - 1, 0x80, 0xBF, value⟩

/-- Cuts the bytes that follow a character read as far as `pending`. A byte that
cannot continue the character ends it as broken and is looked at afresh. -/
def scanFrom : Option Pending → Bytes → List Piece
  | none, [] => []
  | some pending, [] => [.broken pending.bytes]
  | none, byte :: rest =>
      match start byte with
      | .inl piece => piece :: scanFrom none rest
      | .inr pending => scanFrom (some pending) rest
  | some pending, byte :: rest =>
      if pending.low ≤ byte && byte ≤ pending.high then
        match pending.extend byte with
        | .inl piece => piece :: scanFrom none rest
        | .inr longer => scanFrom (some longer) rest
      else
        .broken pending.bytes ::
          match start byte with
          | .inl piece => piece :: scanFrom none rest
          | .inr fresh => scanFrom (some fresh) rest

def scan (bytes : Bytes) : List Piece :=
  scanFrom none bytes

def encode (chars : List Char) : Bytes :=
  chars.flatMap String.utf8EncodeChar

/-- The text, if the bytes are one. -/
def decode? (bytes : Bytes) : Option (List Char) :=
  (scan bytes).mapM fun
    | .char char => some char
    | .broken _ => none

/-- A readable text for any bytes: each broken stretch becomes U+FFFD. -/
def lossyChars (bytes : Bytes) : List Char :=
  (scan bytes).map fun
    | .char char => char
    | .broken _ => Char.ofNat 0xFFFD

def lossy (bytes : Bytes) : String :=
  String.ofList (lossyChars bytes)

def size : List Char → Nat
  | [] => 0
  | char :: rest => char.utf8Size + size rest

end TreeSync.Utf8

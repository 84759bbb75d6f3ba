import TreeSync.Bytes

namespace TreeSync

/-! Headers of multiplexed messages.

A header is one little-endian word: the top byte is the message code plus a base
that tells a tag from plain data, the rest the length of the payload. Only `data`
messages carry payload of the protocol; all others are out of band.
-/

inductive MessageCode where
  | data
  /-- A transfer error reported by the peer. -/
  | errorXfer
  | info
  /-- Text of an error that ends nothing. -/
  | error
  | warning
  /-- An error relayed from a sibling process. -/
  | errorSocket
  | log
  | client
  /-- The peer failed to read part of its own tree. -/
  | ioError
  /-- A sign of life without content. -/
  | noOp
deriving DecidableEq, Repr

namespace MessageCode

def number : MessageCode → Nat
  | .data => 0
  | .errorXfer => 1
  | .info => 2
  | .error => 3
  | .warning => 4
  | .errorSocket => 5
  | .log => 6
  | .client => 7
  | .ioError => 22
  | .noOp => 42

def all : List MessageCode :=
  [.data, .errorXfer, .info, .error, .warning, .errorSocket, .log, .client, .ioError, .noOp]

def ofNumber? (number : Nat) : Option MessageCode :=
  all.find? (·.number = number)

@[simp] theorem ofNumber?_number (code : MessageCode) : ofNumber? code.number = some code := by
  cases code <;> rfl

theorem number_of_ofNumber? {number : Nat} {code : MessageCode}
    (found : ofNumber? number = some code) : code.number = number := by
  simpa using List.find?_some found

def isText : MessageCode → Bool
  | .errorXfer | .info | .error | .warning | .errorSocket | .log | .client => true
  | .data | .ioError | .noOp => false

def isFailure : MessageCode → Bool
  | .errorXfer | .error | .errorSocket | .ioError => true
  | _ => false

end MessageCode

inductive HeaderFault where
  | truncated (actual : Nat)
  | invalidTag (tag : Nat)
  | unknownCode (number : Nat)
  | oversized (length : Nat)
deriving DecidableEq, Repr

/-- How many lengths fit into the field of a header. -/
def MessageHeader.lengthBound : Nat := 0x1000000

structure MessageHeader where
  code : MessageCode
  length : Nat
  length_lt : length < MessageHeader.lengthBound
deriving DecidableEq

namespace MessageHeader

def width : Nat := 4

/-- What is added to a message code to form a tag. -/
def tagBase : Nat := 7

/-- The longest payload a header can announce. -/
def maxLength : Nat := lengthBound - 1

end MessageHeader

def HeaderFault.message : HeaderFault → String
  | .truncated actual =>
      s!"multiplexed header truncated: expected {MessageHeader.width} bytes, got {actual}"
  | .invalidTag tag => s!"multiplexed header contained invalid tag byte {tag}"
  | .unknownCode number => s!"unknown multiplexed message code {number}"
  | .oversized length =>
      s!"multiplexed payload length {length} exceeds maximum {MessageHeader.maxLength}"

namespace MessageHeader

def make (code : MessageCode) (length : Nat) : Except HeaderFault MessageHeader :=
  if fits : length < lengthBound then .ok ⟨code, length, fits⟩ else .error (.oversized length)

def word (header : MessageHeader) : Nat :=
  (header.code.number + tagBase) * lengthBound + header.length

def ofWord (word : Nat) : Except HeaderFault MessageHeader :=
  let tag := word / lengthBound
  if tag < tagBase then .error (.invalidTag tag)
  else
    match MessageCode.ofNumber? (tag - tagBase) with
    | some code => .ok ⟨code, word % lengthBound, Nat.mod_lt _ (by decide)⟩
    | none => .error (.unknownCode (tag - tagBase))

def encode (header : MessageHeader) : Bytes :=
  LittleEndian.encode width header.word

def decode (bytes : Bytes) : Except HeaderFault MessageHeader :=
  if bytes.length < width then .error (.truncated bytes.length)
  else ofWord (LittleEndian.decode (bytes.take width))

theorem ofWord_word (header : MessageHeader) : ofWord header.word = .ok header := by
  obtain ⟨code, length, fits⟩ := header
  have tag : ((code.number + tagBase) * lengthBound + length) / lengthBound =
      code.number + tagBase := by
    unfold lengthBound at fits ⊢
    omega
  have low : ((code.number + tagBase) * lengthBound + length) % lengthBound = length := by
    unfold lengthBound at fits ⊢
    omega
  have above : ¬ code.number + tagBase < tagBase := by omega
  simp only [ofWord, word, tag, low, above, if_false, Nat.add_sub_cancel,
    MessageCode.ofNumber?_number]

end MessageHeader

end TreeSync

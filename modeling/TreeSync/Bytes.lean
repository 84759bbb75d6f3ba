namespace TreeSync

/-! Byte strings and the little-endian form of numbers.

`decode_encode` and `encode_decode` say that the two directions undo each other:
a number survives up to the width it was written in, and a byte string is the
only encoding, at its own width, of the number it stands for.
-/

/-- What travels on the connection, names a directory entry and fills a file. -/
abbrev Bytes := List UInt8

def asciiBytes (text : String) : Bytes :=
  text.toList.map fun char => UInt8.ofNat char.toNat

namespace LittleEndian

/-- The `width` low-order bytes of `value`, least significant first. -/
def encode : (width value : Nat) → Bytes
  | 0, _ => []
  | width + 1, value => UInt8.ofNat value :: encode width (value / 256)

def decode : Bytes → Nat
  | [] => 0
  | byte :: rest => byte.toNat + 256 * decode rest

def capacity : (width : Nat) → Nat
  | 0 => 1
  | width + 1 => 256 * capacity width

@[simp] theorem length_encode (width value : Nat) : (encode width value).length = width := by
  induction width generalizing value with
  | zero => rfl
  | succ width ih => simp [encode, ih]

theorem decode_lt (bytes : Bytes) : decode bytes < capacity bytes.length := by
  induction bytes with
  | nil => simp [decode, capacity]
  | cons byte rest ih =>
      have low := byte.toNat_lt
      simp only [decode, List.length_cons, capacity]
      omega

theorem decode_encode (width value : Nat) :
    decode (encode width value) = value % capacity width := by
  induction width generalizing value with
  | zero => simp [encode, decode, capacity, Nat.mod_one]
  | succ width ih =>
      have lane : (UInt8.ofNat value).toNat = value % 256 := by simp
      rw [encode, decode, ih, lane, capacity, Nat.mod_mul]

theorem encode_decode (bytes : Bytes) : encode bytes.length (decode bytes) = bytes := by
  induction bytes with
  | nil => rfl
  | cons byte rest ih =>
      have low := byte.toNat_lt
      have quotient : (byte.toNat + 256 * decode rest) / 256 = decode rest := by omega
      have lane : UInt8.ofNat (byte.toNat + 256 * decode rest) = byte := by
        apply UInt8.toNat_inj.mp
        rw [UInt8.toNat_ofNat']
        omega
      simp only [List.length_cons, decode, encode, quotient, lane, ih]

end LittleEndian

end TreeSync

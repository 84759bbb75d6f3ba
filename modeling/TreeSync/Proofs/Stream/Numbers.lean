import TreeSync.Stream.Wire

namespace TreeSync

/-! Numbers and the bytes that encode them. -/

namespace LittleEndian

theorem capacity_intWidth : capacity Wire.intWidth = 0x100000000 := by
  decide

theorem capacity_longWidth : capacity Wire.longWidth = 0x10000000000000000 := by
  decide

end LittleEndian

namespace Wire

@[simp] theorem length_intBytes (value : Int32) : (intBytes value).length = 4 :=
  LittleEndian.length_encode _ _

@[simp] theorem length_wordBytes (value : Int64) : (wordBytes value).length = 8 :=
  LittleEndian.length_encode _ _

theorem intOfBytes_intBytes (value : Int32) : intOfBytes (intBytes value) = value := by
  have small : value.toUInt32.toNat < 0x100000000 := value.toUInt32.toNat_lt
  rw [intOfBytes, intBytes, LittleEndian.decode_encode, LittleEndian.capacity_intWidth,
    Nat.mod_eq_of_lt small]
  simp

theorem wordOfBytes_wordBytes (value : Int64) : wordOfBytes (wordBytes value) = value := by
  have small : value.toUInt64.toNat < 0x10000000000000000 := value.toUInt64.toNat_lt
  rw [wordOfBytes, wordBytes, LittleEndian.decode_encode, LittleEndian.capacity_longWidth,
    Nat.mod_eq_of_lt small]
  simp

/-- Eight bytes are the only encoding of the word they stand for. -/
theorem wordBytes_wordOfBytes {bytes : Bytes} (eight : bytes.length = longWidth) :
    wordBytes (wordOfBytes bytes) = bytes := by
  have small := LittleEndian.decode_lt bytes
  rw [eight, LittleEndian.capacity_longWidth] at small
  have word : (wordOfBytes bytes).toUInt64.toNat = LittleEndian.decode bytes := by
    rw [wordOfBytes, UInt64.toUInt64_toInt64, UInt64.toNat_ofNat']
    exact Nat.mod_eq_of_lt small
  rw [wordBytes, word, ← eight]
  exact LittleEndian.encode_decode bytes

/-- Four bytes are the only encoding of the int they stand for. -/
theorem intBytes_intOfBytes {bytes : Bytes} (four : bytes.length = intWidth) :
    intBytes (intOfBytes bytes) = bytes := by
  have small := LittleEndian.decode_lt bytes
  rw [four, LittleEndian.capacity_intWidth] at small
  have word : (intOfBytes bytes).toUInt32.toNat = LittleEndian.decode bytes := by
    rw [intOfBytes, UInt32.toUInt32_toInt32, UInt32.toNat_ofNat']
    exact Nat.mod_eq_of_lt small
  rw [intBytes, word, ← four]
  exact LittleEndian.encode_decode bytes

theorem intBytes_front {first second : Int32} {rest rest' : Bytes}
    (same : intBytes first ++ rest = intBytes second ++ rest') : first = second ∧ rest = rest' := by
  obtain ⟨front, back⟩ := List.append_inj same (by simp)
  refine ⟨?_, back⟩
  rw [← intOfBytes_intBytes first, front, intOfBytes_intBytes]

/-- Small numbers are told apart, and none of them is negative. -/
theorem toInt_ofNat {value : Nat} (small : value < 0x80000000) :
    (Int32.ofNat value).toInt = value :=
  Int32.toInt_ofNat_of_lt small

theorem ofNat_inj {first second : Nat} (small : first < 0x80000000) (small' : second < 0x80000000)
    (same : Int32.ofNat first = Int32.ofNat second) : first = second := by
  have values := congrArg Int32.toInt same
  rw [toInt_ofNat small, toInt_ofNat small'] at values
  exact_mod_cast values

/-- The length of what is not empty is no zero on the wire. -/
theorem ofNat_length_ne_zero {bytes : Bytes} (nonempty : bytes ≠ [])
    (small : bytes.length < 0x80000000) : Int32.ofNat bytes.length ≠ 0 := by
  intro zero
  have nothing := ofNat_inj small (by decide) zero
  exact nonempty (List.length_eq_zero_iff.mp nothing)

theorem ofNat_ne_doneIndex {value : Nat} (small : value < 0x80000000) :
    Int32.ofNat value ≠ doneIndex := by
  intro same
  have values := congrArg Int32.toInt same
  rw [toInt_ofNat small] at values
  have negative : doneIndex.toInt = -1 := rfl
  omega

/-- A size below half of what a word holds is a long that is not negative. -/
theorem toInt_toInt64 {size : UInt64} (small : size.toNat < 0x8000000000000000) :
    size.toInt64.toInt = size.toNat := by
  rw [← Int64.toInt_toBitVec, BitVec.toInt_eq_toNat_of_lt]
  · rfl
  · have half : 2 * size.toNat < 2 ^ 64 := by omega
    simpa using half

theorem bytes_writeInt (value : Int32) : (writeInt value).bytes = intBytes value :=
  Emission.bytes_write _

theorem bytes_writeLong_small {value : Int64} (small : fitsInt value = true) :
    (writeLong value).bytes = intBytes (Int32.ofInt value.toInt) := by
  rw [writeLong, if_pos small, bytes_writeInt]

theorem bytes_writeLong_wide {value : Int64} (wide : ¬ fitsInt value = true) :
    (writeLong value).bytes = intBytes escape ++ wordBytes value := by
  rw [writeLong, if_neg wide, Emission.bytes_andThen rfl, bytes_writeInt, Emission.bytes_write]

theorem refusal_writeLong (value : Int64) : (writeLong value).refusal = none := by
  unfold writeLong
  split <;> rfl

/-- The int that a small long is written as has its value, and so is not the escape. -/
theorem ofInt_small {value : Int64} (small : fitsInt value = true) :
    (Int32.ofInt value.toInt).toInt = value.toInt ∧ Int32.ofInt value.toInt ≠ escape := by
  obtain ⟨low, high⟩ : 0 ≤ value.toInt ∧ value.toInt < 0x80000000 := by
    simpa [fitsInt] using small
  have kept : (Int32.ofInt value.toInt).toInt = value.toInt :=
    Int32.toInt_ofInt_of_le (by omega) (by omega)
  refine ⟨kept, fun same => ?_⟩
  rw [same] at kept
  have negative : escape.toInt = -1 := rfl
  omega

/-- The forms of a long: an int of its value that is not the escape, or the escape and a word. -/
inductive IsLong (value : Int64) : Bytes → Prop where
  | plain (small : Int32) (other : small ≠ escape) (same : small.toInt = value.toInt) :
      IsLong value (intBytes small)
  | escaped : IsLong value (intBytes escape ++ wordBytes value)

/-- A long is written in one of its forms. -/
theorem isLong_writeLong (value : Int64) : IsLong value (writeLong value).bytes := by
  by_cases small : fitsInt value
  · obtain ⟨kept, other⟩ := ofInt_small small
    rw [bytes_writeLong_small small]
    exact .plain _ other kept
  · rw [bytes_writeLong_wide small]
    exact .escaped

end Wire

end TreeSync

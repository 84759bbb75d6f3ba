import TreeSync.Stream.Source
import TreeSync.Stream.Sink

namespace TreeSync

/-! Numbers on the wire.

An int is a 32-bit little-endian word. A long is a plain int while it is neither
negative nor too large for one; anything else is the int `-1`, which no such long
needs, and then a 64-bit word.
-/

namespace Wire

def intWidth : Nat := 4
def longWidth : Nat := 8

/-- The int that announces a 64-bit word, and elsewhere the end of a phase. -/
def escape : Int32 := -1

def intBytes (value : Int32) : Bytes :=
  LittleEndian.encode intWidth value.toUInt32.toNat

def intOfBytes (bytes : Bytes) : Int32 :=
  (UInt32.ofNat (LittleEndian.decode bytes)).toInt32

def wordBytes (value : Int64) : Bytes :=
  LittleEndian.encode longWidth value.toUInt64.toNat

def wordOfBytes (bytes : Bytes) : Int64 :=
  (UInt64.ofNat (LittleEndian.decode bytes)).toInt64

def fitsInt (value : Int64) : Bool :=
  0 ≤ value.toInt && value.toInt < 0x80000000

def writeInt (value : Int32) : Emission :=
  .write (intBytes value)

def writeLong (value : Int64) : Emission :=
  if fitsInt value then writeInt (Int32.ofInt value.toInt)
  else (writeInt escape).andThen (.write (wordBytes value))

variable {σ : Type} [ByteSource σ]

def readInt : EStateM Fault σ Int32 := do
  return intOfBytes (← ByteSource.readExact intWidth)

def readLong : EStateM Fault σ Int64 := do
  let value ← readInt
  if value = escape then
    return wordOfBytes (← ByteSource.readExact longWidth)
  else
    return Int64.ofInt value.toInt

/-- Reads a long that stands for the size of `what`, and so is not negative. -/
def readSize (what : String) : EStateM Fault σ UInt64 := do
  let value ← readLong
  if value.toInt < 0 then throw (.negativeSize what value.toInt)
  else return value.toUInt64

/-- The int that ends a phase or the whole exchange, as its place decides. -/
def doneIndex : Int32 := -1

/-- Reads an index that has to be `doneIndex`; `context` names the exchange. -/
def readDone (context : String) : EStateM Fault σ Unit := do
  let index ← readInt
  if index = doneIndex then return ()
  else throw (.unexpectedIndex context index.toInt)

open ByteSource (Spends)

theorem readInt_spends : Spends intWidth (readInt : EStateM Fault σ Int32) :=
  (ByteSource.readExact_spends intWidth).bind fun _ => .pure _

theorem readLong_spends : Spends intWidth (readLong : EStateM Fault σ Int64) := by
  refine readInt_spends.bind fun value => ?_
  split
  · exact ((ByteSource.readExact_spends longWidth).any.bind fun _ => .pure _)
  · exact .pure _

theorem readSize_spends (what : String) :
    Spends intWidth (readSize what : EStateM Fault σ UInt64) := by
  refine readLong_spends.bind fun value => ?_
  split
  · exact .throw 0 _
  · exact .pure _

end Wire

end TreeSync

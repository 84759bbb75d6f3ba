import TreeSync.Stream.Wire

namespace TreeSync

/-! The sender's byte counts, sent to a client at the end of a run. -/

structure Totals where
  /-- Bytes the sender read from the connection. -/
  read : UInt64
  /-- Bytes the sender wrote to the connection. -/
  written : UInt64
  /-- Sum of the sizes in the file list. -/
  size : UInt64
deriving DecidableEq, Repr

namespace Totals

variable {σ : Type} [ByteSource σ]

def receive : EStateM Fault σ Totals := do
  let read ← Wire.readSize "total_read"
  let written ← Wire.readSize "total_written"
  let size ← Wire.readSize "total_size"
  return ⟨read, written, size⟩

/-- A count as a long, if it is not too large for one. -/
def writeCount (count : UInt64) : Emission :=
  if count.toNat < 0x8000000000000000 then Wire.writeLong count.toInt64
  else .refuse (.unencodableStatistic count.toNat)

def send (stats : Totals) : Emission :=
  .concat [writeCount stats.read, writeCount stats.written, writeCount stats.size]

/-- File bytes per byte on the connection; nothing sent counts as zero. -/
def speedup (stats : Totals) : Float :=
  let wire := stats.read + stats.written
  if wire = 0 then 0 else stats.size.toFloat / wire.toFloat

end Totals

end TreeSync

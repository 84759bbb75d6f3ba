import TreeSync.Diagnostics.Verbosity

namespace TreeSync

/-! What a run is asked to do, and the capabilities it needs for that. -/

/-- The strength of the checksums requested from the sender. -/
inductive ChecksumStrength where
  | short
  | full
deriving DecidableEq, Repr

/-- Bytes of a checksum on the wire. -/
def ChecksumStrength.width : ChecksumStrength → Nat
  | .short => 2
  | .full => 16

structure Options where
  /-- This side answers a client; it sends no preamble and is sent no totals. -/
  server : Bool := false
  /-- Directories of the list are made and fixed up. -/
  recursive : Bool := false
  /-- Entries that the list does not name are removed. -/
  delete : Bool := false
  dryRun : Bool := false
  preserveTimes : Bool := false
  preservePermissions : Bool := false
  multiplexed : Bool := false
  checksum : ChecksumStrength := .short
  verbosity : UInt8 := 0
deriving DecidableEq

/-- What a run may do to the disk. -/
structure Capabilities where
  create : Bool := false
  write : Bool := false
  setAttributes : Bool := false
  unlink : Bool := false
deriving DecidableEq

namespace Options

/-- Whether extraneous entries are removed. Without recursion the list does not
speak for what is inside directories. -/
def deletes (options : Options) : Bool :=
  options.delete && options.recursive

/-- What the run needs. New entries always have their attributes set. -/
def capabilities (options : Options) : Capabilities where
  create := !options.dryRun
  write := !options.dryRun
  setAttributes := !options.dryRun
  unlink := !options.dryRun && options.deletes

def reporting (options : Options) : Verbosity :=
  .ofCount options.verbosity

end Options

end TreeSync

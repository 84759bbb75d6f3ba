import TreeSync.Disk.Beneath
import TreeSync.Stream.Wire
import TreeSync.Transfer.Roles

namespace TreeSync

/-! Requesting whole files.

A request is five ints: the index, an empty list of blocks (which is why the peer
sends content and nothing else), the width of its checksums and no remainder.
-/

/-- Names the path that could not be reached beneath the root. -/
def Disk.reach (root : Location) (path : Path) : EStateM Fault Disk (Location × Name) :=
  Action.explaining (.beneath path) (Disk.parentBeneath root path)

/-- What stands where an entry is to go. -/
inductive Standing where
  | missing
  | directory
  | regular (size : Nat) (mtime : Int64)
  | other
deriving DecidableEq

namespace Standing

def ofNode : Node → Standing
  | .directory _ => .directory
  | .file attributes content => .regular content.length attributes.mtime
  | .link _ | .fifo _ => .other

/-- Whether a file can be left as it is: nothing is known of its content, but its
size and time agree. -/
def upToDate (standing : Standing) (entry : ListEntry) : Bool :=
  standing = .regular entry.size.toNat entry.mtime

/-- Looks at the destination of an entry, without following a link there. -/
def find (root : Location) (path : Path) : EStateM Fault Disk Standing := do
  match ← Action.attempt (Disk.reach root path) with
  | .error fault => if fault.kind = .notFound then return .missing else throw fault
  | .ok (parent, name) =>
      match ← Action.attempt (Disk.nodeAt parent name) with
      | .ok node => return .ofNode node
      | .error fault => if fault = .system .noEntry then return .missing else throw fault

end Standing

structure FileRequester where
  recursive : Bool
  dryRun : Bool
  /-- Indices of the files requested, oldest first. -/
  requested : List Nat := []
  /-- Indices of the files that were up to date, oldest first. -/
  upToDate : List Nat := []
deriving DecidableEq

namespace FileRequester

def ofOptions (options : Options) : FileRequester where
  recursive := options.recursive
  dryRun := options.dryRun

def request (index : Nat) (checksum : ChecksumStrength) : Emission :=
  .concat ([index, 0, 0, checksum.width, 0].map fun value => Wire.writeInt (Int32.ofNat value))

variable {κ : Type}

/-- What directories are made with, before the mask. -/
def directoryPermissions : UInt32 := 0o777

/-- Makes the directory of an entry, if it is missing. -/
def prepareDirectory (index : Nat) (path : Path) (task : Task) (root : Location) :
    EStateM Fault (Uploading FileRequester κ) Unit := do
  match ← Uploading.onHost (Host.onDisk (Standing.find root path)) with
  | .directory => return ()
  | .missing =>
      Uploading.onHost <| Host.onDisk do
        let (parent, name) ← Disk.reach root path
        Disk.makeDirectory parent name (directoryPermissions &&& ~~~task.umask)
      modify fun uploading =>
        { uploading with newDirectories := uploading.newDirectories.mark index }
      Uploading.onHost (Host.debug .requests 1 (path.display ++ ": creating directory"))
  | .regular _ _ | .other => throw (.destinationNotDirectory path)

def examineDirectory (index : Nat) (entry : ListEntry) (task : Task) :
    EStateM Fault (Uploading FileRequester κ) Unit := do
  let uploader := (← get).uploader
  if uploader.recursive = false then
    Uploading.onHost
      (Host.info .nonRegular 1 ("skipping directory \"" ++ entry.path.display ++ "\""))
  else if entry.isRoot || uploader.dryRun then return ()
  else prepareDirectory index entry.path task (← ofExcept task.destination)

variable [ByteSink κ]

def requestFile (index : Nat) (entry : ListEntry) (task : Task) :
    EStateM Fault (Uploading FileRequester κ) Unit := do
  if 0x80000000 ≤ index then throw .indexOverflow
  Uploading.send (request index task.checksum)
  Uploading.onHost
    (Host.debug .requests 2 ("requested " ++ entry.path.display ++ s!" (index {index})"))
  modify fun uploading =>
    let uploader := uploading.uploader
    { uploading with uploader := { uploader with requested := uploader.requested ++ [index] } }

/-- Deals with the entry of a file, unless what stands there is up to date. -/
def examineFile (index : Nat) (entry : ListEntry) (task : Task) :
    EStateM Fault (Uploading FileRequester κ) Unit := do
  if (← get).uploader.dryRun then
    Uploading.onHost (Host.info .name 1 entry.path.display)
  else
    let root ← ofExcept task.destination
    let standing ← Uploading.onHost (Host.onDisk (Standing.find root entry.path))
    if standing.upToDate entry then
      Uploading.onHost (Host.debug .requests 1 (entry.path.display ++ " is uptodate"))
      modify fun uploading =>
        let uploader := uploading.uploader
        { uploading with uploader := { uploader with upToDate := uploader.upToDate ++ [index] } }
    else if standing = .directory then throw (.destinationIsDirectory entry.path)
    else requestFile index entry task

def examine (index : Nat) (entry : ListEntry) (task : Task) :
    EStateM Fault (Uploading FileRequester κ) Unit :=
  if entry.isDirectory then examineDirectory index entry task
  else if entry.isRegular then examineFile index entry task
  else
    Uploading.onHost
      (Host.info .nonRegular 1 ("skipping non-regular file \"" ++ entry.path.display ++ "\""))

def moveOn : EStateM Fault (Uploading FileRequester κ) Unit :=
  modify fun uploading => { uploading with cursor := uploading.cursor.advance }

/-- Says that nothing more is requested. -/
def announceEnd : EStateM Fault (Uploading FileRequester κ) Unit := do
  Uploading.send (Wire.writeInt Wire.doneIndex)
  moveOn
  let uploader := (← get).uploader
  Uploading.onHost <| Host.debug .requests 1 <|
    s!"uploader done: {uploader.requested.length} requested, " ++
      s!"{uploader.upToDate.length} up to date"

/-- Takes the step at the cursor's position. This role never waits, so it leaves nothing armed. -/
def advance (task : Task) : EStateM Fault (Uploading FileRequester κ) Unit := do
  modify fun uploading => { uploading with secondary := none }
  match (← get).cursor.position? with
  | some (.entry index) =>
      match task.files[index]? with
      | some entry => examine index entry task
      | none => pure ()
      moveOn
  | some .endOfList => announceEnd
  | none => return ()

instance : Uploader FileRequester := ⟨advance⟩

end FileRequester

end TreeSync

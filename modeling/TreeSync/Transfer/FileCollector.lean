import TreeSync.Disk.Temporary
import TreeSync.Stream.Wire
import TreeSync.Transfer.FileRequester

namespace TreeSync

/-! Receiving whole files.

A reply is the index, four ints that repeat the request, the content in pieces with
the length of each before it, and a zero. Each step of the downloader takes one of
these: the head, a piece, or the end that commits the file.
-/

/-- A file whose content is still arriving. -/
structure ArrivingFile where
  index : Nat
  name : Name
  temporary : Temporary
  written : Nat := 0
deriving DecidableEq

structure FileCollector where
  preserveTimes : Bool
  preservePermissions : Bool
  /-- Indices of the files committed, oldest first. -/
  received : List Nat := []
  bytes : Nat := 0
deriving DecidableEq

namespace FileCollector

def ofOptions (options : Options) : FileCollector where
  preserveTimes := options.preserveTimes
  preservePermissions := options.preservePermissions

/-- The longest piece accepted, in bytes. -/
def maxPiece : Nat := 0x1000000

/-- The permissions a received file gets. -/
def permissionsFor (downloader : FileCollector) (entry : ListEntry) (umask : UInt32) :
    UInt32 :=
  if downloader.preservePermissions then entry.permissions
  else entry.permissions &&& ~~~umask

variable {σ : Type} [ByteSource σ]

abbrev Step (σ α : Type) : Type :=
  EStateM Fault (Downloading FileCollector ArrivingFile σ) α

/-- The entry a reply is about. Only content of regular files is sent. -/
def announced (index : Int) (files : List ListEntry) : Except Fault (Nat × ListEntry) :=
  if index < 0 then .error (.indexOutOfRange index)
  else
    match files[index.toNat]? with
    | none => .error (.indexOutOfRange index)
    | some entry =>
        if entry.isRegular then .ok (index.toNat, entry) else .error (.dataForIrregular entry.path)

/-- Reads the head of a reply and opens a temporary file for the content. -/
def begin (announcedIndex : Int) (task : Task) : Step σ ArrivingFile := do
  let (index, entry) ← ofExcept (announced announcedIndex task.files)
  let blocks ← Downloading.receive Wire.readInt
  let _blockLength ← Downloading.receive Wire.readInt
  let _checksumWidth ← Downloading.receive Wire.readInt
  let _remainder ← Downloading.receive Wire.readInt
  if blocks ≠ 0 then throw (.blocksWithoutBasis entry.path blocks.toInt)
  let root ← ofExcept task.destination
  let (parent, name) ← Downloading.onDisk (Disk.reach root entry.path)
  let temporary ← Downloading.onDisk (Temporary.create parent ⟨name⟩)
  Downloading.report
    (·.debug .reception 1 ("receiving " ++ entry.path.display ++ s!" (index {index})"))
  return { index, name, temporary }

/-- Gives a complete file its attributes and its place. -/
def commit (arriving : ArrivingFile) (entry : ListEntry) (umask : UInt32) : Step σ Unit := do
  if arriving.written ≠ entry.size.toNat then
    throw (.wrongSize entry.path arriving.written entry.size.toNat)
  let downloader := (← get).downloader
  Downloading.onDisk do
    let file := arriving.temporary.file
    Disk.setPermissions file (downloader.permissionsFor entry umask)
    if downloader.preserveTimes then Disk.setTime file entry.mtime
    arriving.temporary.persist ⟨arriving.name⟩
  modify fun downloading =>
    let received := downloader.received ++ [arriving.index]
    let bytes := downloader.bytes + entry.size.toNat
    { downloading with downloader := { downloader with received, bytes } }
  Downloading.report (·.info .name 1 entry.path.display)

def addPiece (arriving : ArrivingFile) (length : Nat) : Step σ ArrivingFile := do
  let content ← Downloading.receive (ByteSource.readUpTo length)
  Downloading.onDisk (Disk.appendFile arriving.temporary.file content)
  if content.length ≠ length then throw (.literalCut content.length length)
  Downloading.report (·.debug .reception 3 s!"index {arriving.index}: +{length} bytes")
  return { arriving with written := arriving.written + length }

/-- Takes the next piece of a file in progress, or commits it at the end. -/
def goOn (arriving : ArrivingFile) (task : Task) : Step σ (Option ArrivingFile) := do
  let token := (← Downloading.receive Wire.readInt).toInt
  if token = 0 then
    match task.files[arriving.index]? with
    | some entry => commit arriving entry task.umask
    | none => throw (.indexOutOfRange arriving.index)
    return none
  else if token < 0 then throw (.blockReference token)
  else if maxPiece < token.toNat then throw (.literalTooLong token)
  else return some (← addPiece arriving token.toNat)

def abandon (arriving : ArrivingFile) (disk : Disk) : Disk :=
  arriving.temporary.discard disk

/-- Reads what comes between two files: a reply, or the end of the phase. -/
def startNext (task : Task) : Step σ DownloadOutcome := do
  let index ← Downloading.receive Wire.readInt
  if index = Wire.doneIndex then
    let received := (← get).downloader.received.length
    Downloading.report (·.debug .reception 1 s!"downloader done: {received} files")
    return .complete
  else
    let arriving ← begin index.toInt task
    modify fun downloading => { downloading with pending := some arriving }
    return .ongoing

/-- Takes one step. A file in progress is given up as soon as a step on it fails. -/
def advance (task : Task) : Step σ DownloadOutcome := do
  match (← get).pending with
  | none => startNext task
  | some arriving =>
      modify fun downloading => { downloading with pending := none }
      let pending ← Action.onFailure (goOn arriving task) fun downloading =>
        { downloading with disk := abandon arriving downloading.disk }
      modify fun downloading => { downloading with pending }
      return .ongoing

instance : Downloader FileCollector ArrivingFile where
  advance := advance
  abandon := abandon

end FileCollector

end TreeSync

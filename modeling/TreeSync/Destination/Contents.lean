import TreeSync.Host
import TreeSync.Run.Failure

namespace TreeSync

/-! What is found beneath the destination root. -/

structure FoundEntry where
  /-- Where the entry is, seen from the root. -/
  path : Path
  /-- Whether it is a directory; a link to one is not. -/
  isDirectory : Bool
deriving DecidableEq

/-- The path from one location to another beneath it. -/
def Location.pathTo (directory inner : Location) : Path :=
  .ofNames (inner.take (inner.length - directory.length)).reverse

namespace Destination

def findRoot (root : Path) : EStateM Fault Disk (Option Location) := do
  if 0 ∈ root.bytes then throw .nulInPath
  let directory := (← get).workingDirectory
  Disk.look (·.directoryAt? directory root)

/-- Lists one node. The system has to be asked about it by its whole path, which may
be too long. -/
def listNode (root : Path) (directory : Location) (found : Location × Node) :
    EStateM Failure Host FoundEntry := do
  let path := directory.pathTo found.1
  let full := root.child path.bytes
  if Path.maxLength < full.bytes.length then
    throw (.filesystem "scan" full (.system .nameTooLong))
  Host.debug .fileList 4 ("local entry: " ++ path.display)
  return ⟨path, found.2.isDirectory⟩

/-- Lists everything beneath the root, a directory before what it holds and the names
of each directory in order. A root that is missing or no directory holds nothing. -/
def contents (root : Path) : EStateM Failure Host (List FoundEntry) := do
  match ← Action.attempt (Host.onDisk (findRoot root)) with
  | .error fault =>
      if fault.kind = .notFound then return [] else throw (.filesystem "scan" root fault)
  | .ok none => return []
  | .ok (some directory) =>
      Host.debug .fileList 1 ("scanning local files under " ++ root.display)
      let nodes := (← get).disk.tree.beneath directory
      let entries ← nodes.mapM (listNode root directory)
      Host.debug .fileList 2 s!"found {entries.length} local entries"
      return entries

end Destination

end TreeSync

import TreeSync.Destination.Contents
import TreeSync.Disk.Beneath
import TreeSync.FileList.Entry

namespace TreeSync

/-! Removing what the list does not name.

Entries are compared by what their paths mean, and removed in reverse order, so
that a directory is empty by the time its own turn comes.
-/

structure Removals where
  files : Nat := 0
  directories : Nat := 0
deriving DecidableEq, Repr

namespace Removals

def total (removals : Removals) : Nat :=
  removals.files + removals.directories

def count (removals : Removals) (entry : FoundEntry) : Removals :=
  if entry.isDirectory then { removals with directories := removals.directories + 1 }
  else { removals with files := removals.files + 1 }

end Removals

namespace Destination

/-- The entries that the list does not name, each directory after what it holds. -/
def extraneous (found : List FoundEntry) (listed : List ListEntry) : List FoundEntry :=
  let kept := listed.map (·.path.normalized)
  let entries := found.reverse.map fun entry => { entry with path := entry.path.normalized }
  entries.filter (·.path ∉ kept)

def reportRemoval {ε : Type} (removals : Removals) (entry : FoundEntry) :
    EStateM ε Host Removals := do
  Host.info .deletion 1 ("deleting " ++ entry.path.display)
  return removals.count entry

def planRemovals {ε : Type} (found : List FoundEntry) (listed : List ListEntry) :
    EStateM ε Host Removals :=
  (extraneous found listed).foldlM reportRemoval {}

def removeEntry (root : Location) (entry : FoundEntry) : EStateM Fault Disk Unit := do
  let (parent, name) ← Disk.parentBeneath root entry.path
  if entry.isDirectory then Disk.removeDirectory parent ⟨name⟩
  else Disk.removeFile parent ⟨name⟩

def prune (root : Location) (removals : Removals) (entry : FoundEntry) :
    EStateM Failure Host Removals := do
  Action.explaining (.filesystem "delete" entry.path) (Host.onDisk (removeEntry root entry))
  reportRemoval removals entry

/-- Removes the entries that the list does not name. The first that cannot be removed
ends it. -/
def pruneAll (root : Location) (found : List FoundEntry) (listed : List ListEntry) :
    EStateM Failure Host Removals := do
  let removals ← (extraneous found listed).foldlM (prune root) {}
  Host.debug .deletion 1
    s!"removed {removals.files} files and {removals.directories} directories"
  return removals

end Destination

end TreeSync

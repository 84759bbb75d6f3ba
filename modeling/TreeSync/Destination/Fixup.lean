import TreeSync.Disk.Beneath
import TreeSync.FileList.Entry
import TreeSync.Host
import TreeSync.Run.Failure
import TreeSync.Run.Options
import TreeSync.Transfer.NewDirectories

namespace TreeSync

/-! Fixing up the times and permissions of directories.

This comes last: filling a directory changes its time, and one that may not be
written to could not be filled.
-/

class DirectoryKeeper (μ : Type) where
  setTime : Path → Int64 → EStateM Fault μ Unit
  setPermissions : Path → UInt32 → EStateM Fault μ Unit

/-- The directories of a disk beneath an open root. -/
structure RootedDisk where
  root : Location
  disk : Disk

namespace RootedDisk

/-- Opens a directory beneath the root without following links and changes it. -/
def change (path : Path) (apply : Location → EStateM Fault Disk Unit) :
    EStateM Fault RootedDisk Unit := fun rooted =>
  let step : EStateM Fault Disk Unit := do apply (← Disk.openBeneath rooted.root path)
  Action.within RootedDisk.disk (fun disk rooted => { rooted with disk }) step rooted

instance : DirectoryKeeper RootedDisk where
  setTime path mtime := change path (Disk.setTime · mtime)
  setPermissions path permissions := change path (Disk.setPermissions · permissions)

end RootedDisk

structure FixupOptions where
  /-- Without it directories are left alone. -/
  recursive : Bool := false
  preserveTimes : Bool := false
  /-- Also fixes the permissions of directories that were there before. -/
  preservePermissions : Bool := false
deriving DecidableEq

def Options.fixups (options : Options) : FixupOptions where
  recursive := options.recursive
  preserveTimes := options.preserveTimes
  preservePermissions := options.preservePermissions

structure Fixups where
  times : Nat := 0
  permissions : Nat := 0
deriving DecidableEq, Repr

namespace Destination

structure Fixing (μ : Type) where
  keeper : μ
  journal : Journal

variable {μ : Type} [DirectoryKeeper μ]

def fixOne (step : String) (path : Path) (call : EStateM Fault μ Unit) (report : String) :
    EStateM Failure (Fixing μ) Unit := do
  Action.explaining (.filesystem step path)
    (Action.within Fixing.keeper (fun keeper fixing => { fixing with keeper }) call)
  modify fun fixing =>
    let message := path.display ++ report
    { fixing with journal := fixing.journal.debug .reception 2 message }

def fixTime (options : FixupOptions) (entry : ListEntry) (done : Fixups) :
    EStateM Failure (Fixing μ) Fixups := do
  if options.preserveTimes then
    fixOne "utimensat" entry.path (DirectoryKeeper.setTime entry.path entry.mtime)
      ": updated date"
    return { done with times := done.times + 1 }
  else return done

/-- Sets the permissions of a directory, if it is new or permissions are preserved. -/
def fixPermissions (options : FixupOptions) (isNew : Bool) (entry : ListEntry) (done : Fixups) :
    EStateM Failure (Fixing μ) Fixups := do
  if isNew || options.preservePermissions then
    fixOne "fchmodat" entry.path (DirectoryKeeper.setPermissions entry.path entry.permissions)
      (": updated mode: " ++ Mode.octal entry.permissions)
    return { done with permissions := done.permissions + 1 }
  else return done

def fixEntry (options : FixupOptions) (marks : NewDirectories) (done : Fixups)
    (item : ListEntry × Nat) : EStateM Failure (Fixing μ) Fixups := do
  let (entry, index) := item
  if entry.isDirectory then
    fixPermissions options (marks.isNew index) entry (← fixTime options entry done)
  else return done

/-- Fixes up the directories of a list in its order. The first failure ends it. -/
def fixUp (options : FixupOptions) (files : List ListEntry) (marks : NewDirectories) :
    EStateM Failure (Fixing μ) Fixups :=
  if options.recursive then files.zipIdx.foldlM (fixEntry options marks) {} else pure {}

end Destination

end TreeSync

import TreeSync.Disk.Calls

namespace TreeSync

/-! Paths that stay beneath a directory.

A path is descended one name at a time, and each directory on the way is opened
without following links. So whatever the tree holds, the descent ends beneath the
directory it began in.
-/

/-- The names that `steps` descend through; none, if a step leads up or to the top. -/
def descent? : List Component → Option (List Name)
  | [] => some []
  | .current :: rest => descent? rest
  | .normal name :: rest => (descent? rest).map (name :: ·)
  | .root :: _ | .parent :: _ => none

def Path.descent (path : Path) : Except Fault (List Name) :=
  match descent? path.components with
  | some names => .ok names
  | none => .error (.leavesRoot path)

namespace Disk

def descent (path : Path) : EStateM Fault Disk (List Name) :=
  match path.descent with
  | .ok names => pure names
  | .error fault => throw fault

def descend (directory : Location) : List Name → EStateM Fault Disk Location
  | [] => pure directory
  | name :: rest => do descend (← openDirectory directory name) rest

def openBeneath (root : Location) (path : Path) : EStateM Fault Disk Location := do
  descend root (← descent path)

/-- Opens the directory that holds the entry at `path` beneath `root`. The root
itself is the entry `.` of the root. -/
def parentBeneath (root : Location) (path : Path) : EStateM Fault Disk (Location × Name) := do
  let names ← descent path
  match names.getLast? with
  | none => return (root, selfName)
  | some name => return (← descend root names.dropLast, name)

end Disk

end TreeSync

import TreeSync.Action
import TreeSync.Disk.Calls

namespace TreeSync.Destination

/-! Making and opening the directory that everything is received into. -/

/-- What directories on the way to the root are made with. -/
def permissions : UInt32 := 0o777

def makeOne (path : Path) : EStateM Fault Disk Unit :=
  if 0 ∈ path.bytes then throw .nulInPath else Disk.makePathDirectory path permissions

/-- Lets a failure pass where the directory is there after all. -/
def orExisting (path : Path) (fault : Fault) : EStateM Fault Disk Unit := do
  let disk ← get
  if disk.tree.leadsToDirectory disk.workingDirectory path then return () else throw fault

/-- Makes the directory at `path` and those missing on the way to it. -/
def makePath (path : Path) : EStateM Fault Disk Unit := do
  if path.bytes = [] then return ()
  match ← Action.attempt (makeOne path) with
  | .ok () => return ()
  | .error fault =>
      if fault.kind = .notFound then
        match _found : path.parent? with
        | none => throw fault
        | some parent =>
            makePath parent
            match ← Action.attempt (makeOne path) with
            | .ok () => return ()
            | .error fault => orExisting path fault
      else orExisting path fault
termination_by path.bytes.length
decreasing_by exact Path.parent?_length _found

/-- Opens the root; a link to a directory will do. -/
def openRoot (path : Path) : EStateM Fault Disk Location :=
  Disk.openPath path

end TreeSync.Destination

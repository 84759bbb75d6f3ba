import TreeSync.Destination.Fixup
import TreeSync.Destination.Pruning
import TreeSync.Run.Sandbox

namespace TreeSync

/-! Parts of a run that keep what they are told and do nothing else. -/

inductive SandboxCall where
  | restrict (capabilities : Capabilities)
  | confine (root : Path)

/-- A sandbox that keeps its calls, and refuses some of them after that. -/
structure RecordingSandbox where
  refusesRestrict : Bool := false
  refusesConfine : Bool := false
  calls : List SandboxCall := []

namespace RecordingSandbox

/-- Keeps a call, then refuses it if it is to be refused. -/
def keep (call : SandboxCall) (refuses : RecordingSandbox → Bool) (text : String) :
    EStateM Fault (Confining RecordingSandbox) Unit := do
  modify fun confining =>
    let sandbox := confining.sandbox
    { confining with sandbox := { sandbox with calls := sandbox.calls ++ [call] } }
  if refuses (← get).sandbox then throw (.reported .other text)

instance : Sandbox RecordingSandbox where
  restrict capabilities := keep (.restrict capabilities) (·.refusesRestrict) "no restrict"
  confine root := keep (.confine root) (·.refusesConfine) "no confine"

end RecordingSandbox

inductive KeeperCall where
  | setTime (path : Path) (mtime : Int64)
  | setPermissions (path : Path) (permissions : UInt32)

/-- A keeper of directories that keeps its calls, except those it refuses. -/
structure RecordingKeeper where
  refuses : KeeperCall → Option Fault := fun _ => none
  calls : List KeeperCall := []

namespace RecordingKeeper

def keep (call : KeeperCall) : EStateM Fault RecordingKeeper Unit := do
  match (← get).refuses call with
  | some fault => throw fault
  | none => modify fun keeper => { keeper with calls := keeper.calls ++ [call] }

instance : DirectoryKeeper RecordingKeeper where
  setTime path mtime := keep (.setTime path mtime)
  setPermissions path permissions := keep (.setPermissions path permissions)

end RecordingKeeper

/-- A removal pass that only refuses, and tells what it was given. -/
def Destination.refuseRemovals (_root : Location) (found : List FoundEntry)
    (listed : List ListEntry) : EStateM Failure Host Removals :=
  throw (.filesystem "delete" (.ofString "refused")
    (.reported .other s!"{found.length} local, {listed.length} remote"))

end TreeSync

import TreeSync.Disk.Lookup

namespace TreeSync

/-! A disk, and the calls that change it.

A descriptor of a directory or an open file is its location: nothing that is held
open is ever moved. Each call that succeeds performs one change and keeps a record
of it, so the record of a run tells all that the run did to the tree. A call that
names an entry fails by what the tree holds; one on something that is held open may
be refused for reasons of the system's own.
-/

inductive Change where
  | madeDirectory (location : Location) (permissions : UInt32)
  | madeFile (location : Location) (permissions : UInt32)
  | wroteFile (location : Location) (bytes : Bytes)
  | renamed (source target : Location)
  | setPermissions (location : Location) (permissions : UInt32)
  | setTime (location : Location) (mtime : Int64)
  | removedFile (location : Location)
  | removedDirectory (location : Location)
deriving DecidableEq

def Tree.touch (tree : Tree) (directory : Location) (time : Int64) : Tree :=
  tree.update directory (Node.touch time)

/-- The tree after a change that is made at `time`. Where an entry comes or goes, its
directory is touched. -/
def Change.apply (change : Change) (time : Int64) (tree : Tree) : Tree :=
  match change with
  | .madeDirectory location permissions =>
      (tree.set location (.directory ⟨permissions, time⟩)).touch location.tail time
  | .madeFile location permissions =>
      (tree.set location (.file ⟨permissions, time⟩ [])).touch location.tail time
  | .wroteFile location bytes =>
      tree.update location fun node => (node.append bytes).setTime time
  | .renamed source target =>
      match tree.get? source with
      | none => tree
      | some node =>
          if source = target then tree
          else
            (((tree.erase source).set target node).touch source.tail time).touch target.tail time
  | .setPermissions location permissions => tree.update location (Node.setPermissions permissions)
  | .setTime location mtime => tree.update location (Node.setTime mtime)
  | .removedFile location | .removedDirectory location =>
      (tree.erase location).touch location.tail time

/-- A call on something that is held open. -/
inductive HandleCall where
  | write (file : Location) (bytes : Bytes)
  | setPermissions (location : Location) (permissions : UInt32)
  | setTime (location : Location) (mtime : Int64)
  /-- One more descriptor of the directory is asked for. -/
  | duplicate (directory : Location)
deriving DecidableEq

structure Refusal where
  errno : Errno
  /-- How many bytes of a refused write were written all the same. -/
  written : Nat := 0
deriving DecidableEq

/-- A draw of random bytes, one for each random character of a temporary name. -/
abbrev RandomBytes := Vector UInt8 6

structure Disk where
  tree : Tree
  /-- Where relative paths start. -/
  workingDirectory : Location := []
  umask : UInt32 := 0
  clock : Int64 := 0
  /-- The random bytes of each draw to come. -/
  entropy : Nat → RandomBytes := fun _ => .replicate 6 0
  draws : Nat := 0
  /-- Which calls the system refuses, by what was done before: there may be no room left, no
  permission, or no descriptor to be had. -/
  refusals : List Change → HandleCall → Option Refusal := fun _ _ => none
  /-- What was done, oldest first. -/
  changes : List Change := []

instance : Inhabited Disk := ⟨{ tree := .empty }⟩

namespace Disk

def perform (change : Change) (disk : Disk) : Disk :=
  { disk with tree := change.apply disk.clock disk.tree, changes := disk.changes ++ [change] }

/-- The set-group-id mark, which a directory hands on to those made in it. -/
def groupMark : UInt32 := 0o2000

def inheritedMark (disk : Disk) (directory : Location) : UInt32 :=
  match disk.tree.get? directory with
  | some (.directory attributes) => attributes.permissions &&& groupMark
  | _ => 0

def refuse (errno : Errno) : EStateM Fault Disk α :=
  throw (.system errno)

def look (lookup : Tree → Except Errno α) : EStateM Fault Disk α := fun disk =>
  match lookup disk.tree with
  | .ok found => .ok found disk
  | .error errno => .error (.system errno) disk

def checkName (name : Name) : EStateM Fault Disk Unit :=
  if 0 ∈ name then refuse .invalid else pure ()

def entryOf (directory : Location) (name : Name) : EStateM Fault Disk (Option Node) := do
  checkName name
  look (·.childAt directory name)

/-- The node at `name` in a directory, which itself goes by the name `.`. -/
def nodeAt (directory : Location) (name : Name) : EStateM Fault Disk Node := do
  if name = selfName then
    match (← get).tree.get? directory with
    | some node => return node
    | none => refuse .noEntry
  else
    match ← entryOf directory name with
    | some node => return node
    | none => refuse .noEntry

/-- Opens the directory `name` in `directory`; a link is none. -/
def openDirectory (directory : Location) (name : Name) : EStateM Fault Disk Location := do
  match ← entryOf directory name with
  | some (.directory _) => return name :: directory
  | some _ => refuse .notDirectory
  | none => refuse .noEntry

def openPath (path : Path) : EStateM Fault Disk Location := do
  let directory := (← get).workingDirectory
  look (·.resolveDirectory directory path)

def makeAt (target : Target) (permissions : UInt32) : EStateM Fault Disk Unit := do
  match target with
  | .whole _ => refuse .exists
  | .entry directory name =>
      match ← look (·.childAt directory name) with
      | some _ => refuse .exists
      | none =>
          modify fun disk =>
            let granted := permissions &&& ~~~disk.umask ||| disk.inheritedMark directory
            disk.perform (.madeDirectory (name :: directory) granted)

def makeDirectory (directory : Location) (name : Name) (permissions : UInt32) :
    EStateM Fault Disk Unit := do
  checkName name
  makeAt (if name = selfName then .whole directory else .entry directory name) permissions

def makePathDirectory (path : Path) (permissions : UInt32) : EStateM Fault Disk Unit := do
  let directory := (← get).workingDirectory
  makeAt (← look (·.resolve directory path)) permissions

/-- Makes an empty file at a path where nothing may stand yet, and opens it. -/
def createFile (directory : Location) (path : Path) (permissions : UInt32) :
    EStateM Fault Disk Location := do
  match ← look (·.resolve directory path) with
  | .whole _ => refuse .isDirectory
  | .entry place name =>
      match ← look (·.childAt place name) with
      | some _ => refuse .exists
      | none =>
          modify fun disk =>
            disk.perform (.madeFile (name :: place) (permissions &&& ~~~disk.umask))
          return name :: place

/-- What the system has against a call as things stand. -/
def refusalOf (disk : Disk) (call : HandleCall) : Option Refusal :=
  disk.refusals disk.changes call

def granted (call : HandleCall) : EStateM Fault Disk Unit := do
  match (← get).refusalOf call with
  | none => pure ()
  | some refusal => refuse refusal.errno

def duplicate (directory : Location) : EStateM Fault Disk Unit :=
  granted (.duplicate directory)

/-- Writes to the end of an open file. A write that is refused may have got some way. -/
def appendFile (file : Location) (bytes : Bytes) : EStateM Fault Disk Unit := do
  match (← get).refusalOf (.write file bytes) with
  | none => modify (Disk.perform (.wroteFile file bytes))
  | some refusal =>
      modify (Disk.perform (.wroteFile file (bytes.take refusal.written)))
      refuse refusal.errno

def setPermissions (location : Location) (permissions : UInt32) : EStateM Fault Disk Unit := do
  granted (.setPermissions location permissions)
  modify (Disk.perform (.setPermissions location (permissions &&& 0o7777)))

def setTime (location : Location) (mtime : Int64) : EStateM Fault Disk Unit := do
  granted (.setTime location mtime)
  modify (Disk.perform (.setTime location mtime))

def removeFile (directory : Location) (path : Path) : EStateM Fault Disk Unit := do
  match ← look (·.resolve directory path) with
  | .whole _ => refuse .isDirectory
  | .entry place name =>
      match ← look (·.childAt place name) with
      | none => refuse .noEntry
      | some (.directory _) => refuse .isDirectory
      | some _ => modify (Disk.perform (.removedFile (name :: place)))

def removeDirectory (directory : Location) (path : Path) : EStateM Fault Disk Unit := do
  match ← look (·.resolve directory path) with
  | .whole _ => refuse .invalid
  | .entry place name =>
      match ← look (·.childAt place name) with
      | none => refuse .noEntry
      | some (.directory _) =>
          if ((← get).tree.namesIn (name :: place)).isEmpty then
            modify (Disk.perform (.removedDirectory (name :: place)))
          else refuse .notEmpty
      | some _ => refuse .notDirectory

/-- Moves the file at `source` to `target` and puts it in the place of what stands
there, unless that is a directory. -/
def renameFile (directory : Location) (source target : Path) : EStateM Fault Disk Unit := do
  let origin ← look (·.resolve directory source)
  let destination ← look (·.resolve directory target)
  match origin, destination with
  | .entry oldPlace oldName, .entry newPlace newName =>
      match ← look (·.childAt oldPlace oldName) with
      | none => refuse .noEntry
      | some _ =>
          let occupant ← look (·.childAt newPlace newName)
          if target.endsInSlash then refuse .notDirectory
          else if newName :: newPlace <:+ oldPlace then refuse .notEmpty
          else
            let moved := Change.renamed (oldName :: oldPlace) (newName :: newPlace)
            if newName :: newPlace = oldName :: oldPlace then modify (Disk.perform moved)
            else
              match occupant with
              | some (.directory _) => refuse .isDirectory
              | _ => modify (Disk.perform moved)
  | _, _ => refuse .busy

def setUmask (umask : UInt32) : EStateM Fault Disk Unit :=
  modify fun disk => { disk with umask := umask &&& 0o777 }

end Disk

end TreeSync

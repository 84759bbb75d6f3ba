import TreeSync.Disk.Tree
import TreeSync.Fault

namespace TreeSync

/-! How a path leads to a place in a tree.

Steps are taken one at a time from a directory. A link met on the way stands for
the steps of its target; after `maxLinks` of them the path is given up. What the
last step names need not exist, since it may be about to be made.
-/

namespace Path

/-- The longest path the system takes, in bytes. -/
def maxLength : Nat := 4095

/-- What the system says to a path before it looks at any directory. -/
def check (path : Path) : Except Errno Unit :=
  if 0 ∈ path.bytes then .error .invalid
  else if path.bytes = [] then .error .noEntry
  else if maxLength < path.bytes.length then .error .nameTooLong
  else .ok ()

def steps (path : Path) : List Name :=
  path.segments.filter (· ≠ [])

/-- The steps, with one more into the last directory where a slash demands it. -/
def stepsInto (path : Path) : List Name :=
  if path.endsInSlash then path.steps ++ [selfName] else path.steps

def origin (path : Path) (directory : Location) : Location :=
  if path.isAbsolute then [] else directory

end Path

/-- The longest name a directory can hold, in bytes. -/
def Name.maxLength : Nat := 255

/-- How many links one path may lead through. -/
def maxLinks : Nat := 40

/-- What a path names by its last step. -/
inductive Target where
  /-- The entry `name` of a directory, whether or not it is there. -/
  | entry (directory : Location) (name : Name)
  /-- A directory itself, reached by `.`, `..` or as the top. -/
  | whole (directory : Location)
deriving DecidableEq

namespace Tree

def childAt (tree : Tree) (directory : Location) (name : Name) : Except Errno (Option Node) :=
  if Name.maxLength < name.length then .error .nameTooLong
  else .ok (tree.get? (name :: directory))

/-- Takes steps from `directory`. Where a link leads is left to `follow`. -/
def walk (tree : Tree) (follow : Location → List Name → Except Errno Location)
    (directory : Location) : List Name → Except Errno Location
  | [] => .ok directory
  | name :: rest =>
      if name = selfName then tree.walk follow directory rest
      else if name = parentName then tree.walk follow directory.tail rest
      else
        match tree.childAt directory name with
        | .error errno => .error errno
        | .ok none => .error .noEntry
        | .ok (some (.directory _)) => tree.walk follow (name :: directory) rest
        | .ok (some (.link target)) => follow (target.origin directory) (target.steps ++ rest)
        | .ok (some _) => .error .notDirectory

/-- The directory that steps lead to, by way of at most so many links. -/
def enter (tree : Tree) : (links : Nat) → Location → List Name → Except Errno Location
  | 0 => tree.walk fun _ _ => .error .loop
  | links + 1 => tree.walk (tree.enter links)

def targetOf (tree : Tree) (directory : Location) (steps : List Name) : Except Errno Target :=
  match steps.getLast? with
  | none => .ok (.whole directory)
  | some last =>
      match tree.enter maxLinks directory steps.dropLast with
      | .error errno => .error errno
      | .ok place =>
          if last = selfName then .ok (.whole place)
          else if last = parentName then .ok (.whole place.tail)
          else .ok (.entry place last)

def resolve (tree : Tree) (directory : Location) (path : Path) : Except Errno Target := do
  path.check
  tree.targetOf (path.origin directory) path.steps

def resolveDirectory (tree : Tree) (directory : Location) (path : Path) :
    Except Errno Location := do
  path.check
  tree.enter maxLinks (path.origin directory) path.steps

def leadsToDirectory (tree : Tree) (directory : Location) (path : Path) : Bool :=
  (tree.resolveDirectory directory path).isOk

/-- The directory at `path`, or nothing where something else stands. A link is not
followed, unless a slash behind its name demands a directory. -/
def directoryAt? (tree : Tree) (directory : Location) (path : Path) :
    Except Errno (Option Location) := do
  path.check
  match ← tree.targetOf (path.origin directory) path.stepsInto with
  | .whole place => return some place
  | .entry place name =>
      match ← tree.childAt place name with
      | none => throw .noEntry
      | some (.directory _) => return some (name :: place)
      | some _ => return none

end Tree

end TreeSync

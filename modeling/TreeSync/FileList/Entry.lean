import TreeSync.Path

namespace TreeSync

/-! Entries of a file list, and the names that may stand in one. -/

namespace Mode

/-- The bits of a mode word that tell the kind of node. -/
def kindMask : UInt32 := 0o170000
def directory : UInt32 := 0o040000
def regular : UInt32 := 0o100000
def symlink : UInt32 := 0o120000

/-- The bits of a mode word that are permissions. -/
def permissionMask : UInt32 := 0o7777

/-- The digits of a mode word, in base eight. -/
def octal (mode : UInt32) : String :=
  String.ofList (Nat.toDigits 8 mode.toNat)

end Mode

/-- What the sender says about one node of its tree. -/
structure ListEntry where
  path : Path
  mode : UInt32
  mtime : Int64
  size : UInt64
deriving DecidableEq, Inhabited

namespace ListEntry

def file (path : Path) (permissions : UInt32) (mtime : Int64) (size : UInt64) : ListEntry :=
  ⟨path, Mode.regular ||| (permissions &&& Mode.permissionMask), mtime, size⟩

def directory (path : Path) (permissions : UInt32) (mtime : Int64) : ListEntry :=
  ⟨path, Mode.directory ||| (permissions &&& Mode.permissionMask), mtime, 0⟩

variable (entry : ListEntry)

def permissions : UInt32 := entry.mode &&& Mode.permissionMask

def kind : UInt32 := entry.mode &&& Mode.kindMask

def isDirectory : Bool := entry.kind = Mode.directory

def isRegular : Bool := entry.kind = Mode.regular

def isSymlink : Bool := entry.kind = Mode.symlink

/-- Whether the entry is the root of the transfer, by its one spelling. -/
def isRoot : Bool := entry.path.bytes = selfName

end ListEntry

inductive NameFault where
  | negativeLength (length : Int)
  | tooLong (length : Nat)
  | absolute (path : Path)
  | parentComponent (path : Path)
  | malformed (path : Path)
deriving DecidableEq

/-- The longest name accepted, in bytes. -/
def maxNameLength : Nat := 4096

/-- Refuses a path that could name anything outside the root, or nothing at all.
The root itself may only be spelled `.`. -/
def acceptName (path : Path) : Except NameFault Unit :=
  if 0 ∈ path.bytes then .error (.malformed path)
  else if path.isAbsolute then .error (.absolute path)
  else if path.bytes = selfName then .ok ()
  else if .parent ∈ path.components then .error (.parentComponent path)
  else if path.components.any (fun step => step matches .normal _) then .ok ()
  else .error (.malformed path)

end TreeSync

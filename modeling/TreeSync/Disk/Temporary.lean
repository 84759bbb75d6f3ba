import TreeSync.Action
import TreeSync.Disk.Beneath

namespace TreeSync

/-! Temporary files for content that is still arriving.

The content of `name` goes to `.name.` and six random characters, in the same
directory, and is moved to its place once it is complete. Whoever gives it up
before that removes it, by way of a descriptor of the directory that is kept with it.
-/

structure Temporary where
  directory : Location
  path : Path
  file : Location
deriving DecidableEq

namespace Temporary

/-- What stands for the random characters in a name that is not filled in yet. -/
def placeholder : List Char := "XXXXXX".toList

/-- The characters that random ones are taken from. -/
def alphabet : Bytes :=
  asciiBytes "ABCDEFGHIJKLMNOPQRSTUVWXYZabcdefghijklmnopqrstuvwxyz0123456789"

theorem length_alphabet : alphabet.length = 62 := by decide

def character (random : UInt8) : UInt8 :=
  alphabet.get ⟨random.toNat % 62, by
    rw [length_alphabet]
    exact Nat.mod_lt _ (by decide)⟩

def suffix (random : RandomBytes) : Bytes :=
  random.toList.map character

/-- The name a temporary file is called after. A destination that ends in no name
lends none. -/
def stem (destination : Path) : List Char :=
  match destination.fileName? with
  | some name => Utf8.lossyChars name
  | none => "receiver".toList

/-- As many leading characters as fit into `room` bytes. -/
def fitting : (room : Nat) → List Char → List Char
  | _, [] => []
  | room, char :: rest =>
      if char.utf8Size ≤ room then char :: fitting (room - char.utf8Size) rest else []

/-- Cuts what comes before the suffix so that the name is not too long, and then
leaves no dot at the cut. -/
def fitted (base : List Char) : List Char :=
  let room := Name.maxLength - (placeholder.length + 1)
  if Utf8.size base ≤ room then base
  else ((fitting room base).reverse.dropWhile (· = '.')).reverse

/-- Hides a name behind one leading dot. -/
def hidden : List Char → List Char
  | '.' :: rest => '.' :: rest
  | name => '.' :: name

def nameTemplate (destination : Path) : List Char :=
  fitted (hidden (stem destination)) ++ '.' :: placeholder

def template (destination : Path) : Path :=
  let name := Utf8.encode (nameTemplate destination)
  match destination.parent? with
  | some parent => parent.child name
  | none => ⟨name⟩

/-- Fills in the random characters. The path becomes readable text on the way. -/
def filled (template : Path) (random : RandomBytes) : Path :=
  let text := Utf8.lossyChars template.bytes
  ⟨Utf8.encode (text.take (text.length - placeholder.length)) ++ suffix random⟩

/-- How many names are tried before giving up. -/
def maxAttempts : Nat := 100

/-- What a temporary file may be used for before it is complete. -/
def permissions : UInt32 := 0o600

def draw : EStateM Fault Disk RandomBytes :=
  modifyGet fun disk => (disk.entropy disk.draws, { disk with draws := disk.draws + 1 })

/-- Tries names until one is not taken. Where no descriptor of the directory can be had to keep
with the file, there is nobody to give it up, and it stays. -/
def createWithin (directory : Location) (template : Path) :
    (attempts : Nat) → EStateM Fault Disk Temporary
  | 0 => throw (.namesExhausted maxAttempts template)
  | attempts + 1 => do
      let path := filled template (← draw)
      match ← Action.attempt (Disk.createFile directory path permissions) with
      | .ok file =>
          Disk.duplicate directory
          return ⟨directory, path, file⟩
      | .error fault =>
          if fault = .system .exists then createWithin directory template attempts
          else throw fault

def create (directory : Location) (destination : Path) : EStateM Fault Disk Temporary :=
  createWithin directory (template destination) maxAttempts

def discard (temporary : Temporary) (disk : Disk) : Disk :=
  Action.stateAfter (Disk.removeFile temporary.directory temporary.path) disk

/-- Moves the temporary file to `destination`, or removes it if that fails. -/
def persist (temporary : Temporary) (destination : Path) : EStateM Fault Disk Unit :=
  Action.onFailure (Disk.renameFile temporary.directory temporary.path destination)
    temporary.discard

end Temporary

end TreeSync

import TreeSync.FileList.Entry
import TreeSync.Message.Inflow
import TreeSync.Stream.Wire

namespace TreeSync

/-! A file list on the wire.

Each entry is its name's length and name, its mode, its time and its size; a zero
in place of a length ends the list. Names are checked as they are read, so that a
list that was read names nothing outside the root.
-/

namespace FileList

open Wire ByteSource

variable {σ : Type} [ByteSource σ]

/-- The length of the next name; zero at the end of the list. -/
def nameLength (length : Int32) : EStateM Fault (Inflow σ) Nat :=
  if length.toInt < 0 then throw (.refusedName (.negativeLength length.toInt))
  else if maxNameLength < length.toInt.toNat then
    throw (.refusedName (.tooLong length.toInt.toNat))
  else return length.toInt.toNat

def readNamed (length : Nat) : EStateM Fault (Inflow σ) ListEntry := do
  let path : Path := ⟨← readExact length⟩
  match acceptName path with
  | .error cause => throw (.refusedName cause)
  | .ok () =>
      let mode ← readInt
      let mtime ← readLong
      let size ← readSize "file size"
      return ⟨path, mode.toUInt32, mtime, size⟩

def readEntry : EStateM Fault (Inflow σ) (Option ListEntry) := do
  let length ← readInt
  if length = 0 then return none
  else return some (← readNamed (← nameLength length))

theorem nameLength_spends (length : Int32) :
    Spends 0 (nameLength length : EStateM Fault (Inflow σ) Nat) := by
  unfold nameLength
  split
  · exact .throw 0 _
  · split
    · exact .throw 0 _
    · exact .pure _

theorem readNamed_spends (length : Nat) :
    Spends 0 (readNamed length : EStateM Fault (Inflow σ) ListEntry) := by
  refine (readExact_spends length).any.bind fun name => ?_
  dsimp only
  split
  · exact .throw 0 _
  · exact readInt_spends.any.bind fun _ =>
      readLong_spends.any.bind fun _ => (readSize_spends _).any.bind fun _ => .pure _

theorem readEntry_spends :
    Spends intWidth (readEntry : EStateM Fault (Inflow σ) (Option ListEntry)) := by
  refine readInt_spends.bind fun length => ?_
  split
  · exact .pure _
  · exact (nameLength_spends length).bind fun wanted =>
      (readNamed_spends wanted).bind fun _ => .pure _

def describe (index : Nat) (entry : ListEntry) : String :=
  s!"[{index}] " ++ entry.path.display ++ " mode=" ++ Mode.octal entry.mode ++
    s!" size={entry.size.toNat} mtime={entry.mtime.toInt}"

/-- Reads the entries that follow the first `count`. -/
def readEntries (count : Nat) (inflow : Inflow σ) :
    EStateM.Result Fault (Inflow σ) (List ListEntry) :=
  match _taken : readEntry inflow with
  | .error fault after => .error fault after
  | .ok none after => .ok [] after
  | .ok (some entry) after =>
      let journal := after.journal.debug .fileList 2 (describe count entry)
      match readEntries (count + 1) { after with journal } with
      | .ok rest final => .ok (entry :: rest) final
      | .error fault final => .error fault final
termination_by budget inflow.source
decreasing_by
  have spent : budget after.source + intWidth ≤ budget inflow.source :=
    readEntry_spends.budget_le _taken
  have width : intWidth = 4 := rfl
  omega

def read : EStateM Fault (Inflow σ) (List ListEntry) := do
  let entries ← readEntries 0
  modify fun inflow =>
    let message := s!"received file list with {entries.length} entries"
    { inflow with journal := inflow.journal.debug .fileList 1 message }
  return entries

def writeEntry (entry : ListEntry) : Emission :=
  let name := entry.path.bytes
  if name = [] ∨ 0x80000000 ≤ name.length then .refuse (.unencodableName name.length)
  else
    .concat [writeInt (Int32.ofNat name.length), .write name, writeInt entry.mode.toInt32,
      writeLong entry.mtime, writeLong entry.size.toInt64]

def write (entries : List ListEntry) : Emission :=
  (Emission.concat (entries.map writeEntry)).andThen (writeInt 0)

end FileList

end TreeSync

import TreeSync.Stream.Wire
import TreeSync.Transfer.Roles

namespace TreeSync

/-! Roles that follow a script, to watch how a run drives them. -/

inductive UploadAct where
  | moveOn
  | finish
  | write (value : Int32)
  | mark (index : Nat)
  | arm (descriptor : Descriptor)
  | disarm
  | fail (text : String)

/-- An uploader that performs the acts listed for each of its calls, and passes over
what is left of the list in all later ones. -/
structure ScriptedUploader where
  script : List (List UploadAct)
  calls : Nat := 0

namespace ScriptedUploader

variable {κ : Type} [ByteSink κ]

def perform : UploadAct → EStateM Fault (Uploading ScriptedUploader κ) Unit
  | .moveOn => modify fun uploading => { uploading with cursor := uploading.cursor.advance }
  | .finish => modify fun uploading => { uploading with cursor := uploading.cursor.finish }
  | .write value => Uploading.send (Wire.writeInt value)
  | .mark index =>
      modify fun uploading =>
        { uploading with newDirectories := uploading.newDirectories.mark index }
  | .arm descriptor => do
      let secondary ← ofExcept ((← get).secondary.arm descriptor)
      modify fun uploading => { uploading with secondary }
  | .disarm => modify fun uploading => { uploading with secondary := none }
  | .fail text => throw (.reported .other text)

def acts (uploader : ScriptedUploader) : List UploadAct :=
  uploader.script[uploader.calls]?.getD [.finish]

def advance : EStateM Fault (Uploading ScriptedUploader κ) Unit := do
  let acts := (← get).uploader.acts
  modify fun uploading =>
    let uploader := uploading.uploader
    { uploading with uploader := { uploader with calls := uploader.calls + 1 } }
  acts.forM perform

instance : Uploader ScriptedUploader where
  advance _ := advance

end ScriptedUploader

/-- A downloader that reads one int per call and does what it stands for. -/
structure ScriptedDownloader where
  /-- The ints read so far, oldest first. -/
  seen : List Int32 := []

namespace ScriptedDownloader

variable {σ : Type} [ByteSource σ]

def advance : EStateM Fault (Downloading ScriptedDownloader Unit σ) DownloadOutcome := do
  let value ← Downloading.receive Wire.readInt
  modify fun downloading =>
    { downloading with downloader := ⟨downloading.downloader.seen ++ [value]⟩ }
  match value.toInt with
  | -1 => return .complete
  | 1 =>
      modify fun downloading => { downloading with pending := some () }
      return .ongoing
  | 2 =>
      modify fun downloading => { downloading with pending := none }
      return .ongoing
  | 3 => throw (.reported .other "int downloader failed")
  | _ => return .ongoing

instance : Downloader ScriptedDownloader Unit where
  advance _ := advance
  abandon _ disk := disk

end ScriptedDownloader

end TreeSync

import TreeSync.Connection.Readiness
import TreeSync.FileList.Entry
import TreeSync.Host
import TreeSync.Message.Inflow
import TreeSync.Run.Options
import TreeSync.Transfer.Cursor
import TreeSync.Transfer.NewDirectories

namespace TreeSync

/-! The two roles that share the work of a run.

The run owns everything that lasts longer than a step: the cursor, the armed
descriptor, the marks and the file in progress. A role takes one step at a time on
what it is lent; a step that fails ends the run.
-/

structure Task where
  /-- The open destination root; a dry run opens none. -/
  root : Option Location
  files : List ListEntry
  checksum : ChecksumStrength := .short
  /-- The mask that was in force before the run cleared it. -/
  umask : UInt32

/-- The destination root, where a step cannot do without it. -/
def Task.destination (task : Task) : Except Fault Location :=
  match task.root with
  | some root => .ok root
  | none => .error .rootNotOpen

/-- A descriptor armed beside the connection, if there is one. -/
abbrev Secondary := Option Descriptor

/-- Arms a descriptor. One that is armed already stays. -/
def Secondary.arm (secondary : Secondary) (descriptor : Descriptor) : Except Fault Secondary :=
  match secondary with
  | none => .ok (some descriptor)
  | some _ => .error .secondaryArmed

structure Uploading (υ κ : Type) where
  uploader : υ
  cursor : Cursor
  secondary : Secondary := none
  newDirectories : NewDirectories
  connection : κ
  host : Host

namespace Uploading

variable {ε α υ κ : Type}

def onHost (step : EStateM ε Host α) : EStateM ε (Uploading υ κ) α :=
  Action.within Uploading.host (fun host uploading => { uploading with host }) step

def send [ByteSink κ] (emission : Emission) : EStateM Fault (Uploading υ κ) Unit :=
  Action.within Uploading.connection (fun connection uploading => { uploading with connection })
    emission.send

end Uploading

/-- Requests the content of files that are missing or out of date. Advanced while the
cursor is not exhausted, and when the armed descriptor becomes readable. -/
class Uploader (υ : Type) where
  advance {κ : Type} [ByteSink κ] : Task → EStateM Fault (Uploading υ κ) Unit

inductive DownloadOutcome where
  | ongoing
  /-- The peer said that it sends no more content. -/
  | complete
deriving DecidableEq, Repr

structure Downloading (δ γ σ : Type) where
  downloader : δ
  pending : Option γ := none
  inflow : Inflow σ
  disk : Disk

namespace Downloading

variable {ε α δ γ σ : Type}

def onDisk (step : EStateM ε Disk α) : EStateM ε (Downloading δ γ σ) α :=
  Action.within Downloading.disk (fun disk downloading => { downloading with disk }) step

def receive (step : EStateM ε (Inflow σ) α) : EStateM ε (Downloading δ γ σ) α :=
  Action.within Downloading.inflow (fun inflow downloading => { downloading with inflow }) step

def report (change : Journal → Journal) : EStateM ε (Downloading δ γ σ) Unit :=
  modify fun downloading =>
    let inflow := downloading.inflow
    { downloading with inflow := { inflow with journal := change inflow.journal } }

end Downloading

/-- Receives content and commits it. Advanced when content is waiting. -/
class Downloader (δ : Type) (γ : outParam Type) where
  advance {σ : Type} [ByteSource σ] : Task → EStateM Fault (Downloading δ γ σ) DownloadOutcome
  /-- Gives up a file in progress. -/
  abandon : γ → Disk → Disk

end TreeSync

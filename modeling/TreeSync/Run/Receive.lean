import TreeSync.Destination.Fixup
import TreeSync.Destination.Pruning
import TreeSync.Destination.Root
import TreeSync.FileList.Codec
import TreeSync.Run.Exchange
import TreeSync.Run.Sandbox
import TreeSync.Totals

namespace TreeSync

/-! Receiving one transfer.

The list comes first. The destination is made and cleared of what the list does not
name, the content is exchanged, and the directories are fixed up. Then both sides
agree on the end, and a client is told the totals.
-/

/-- One side of a connection, set up to receive. -/
structure Endpoint (υ δ ς : Type) where
  options : Options
  uploader : υ
  downloader : δ
  sandbox : ς
  /-- Removes what the list does not name. -/
  prune : Location → List FoundEntry → List ListEntry → EStateM Failure Host Removals :=
    Destination.pruneAll
  /-- Rounds granted to roles that take idle ones. -/
  patience : Nat := 0

structure Outcome where
  phase : Phase := .collecting
  files : Nat
  totals : Option Totals := none
  removals : Removals := {}
  newDirectories : Nat := 0
  fixups : Fixups := {}
  /-- A client was sent an empty list and left the destination alone. -/
  skippedEmpty : Bool := false
deriving DecidableEq

structure Running (υ δ ς κ : Type) where
  endpoint : Endpoint υ δ ς
  inflow : Inflow κ
  disk : Disk
  /-- What the rounds of the exchange did, oldest first. -/
  steps : List ExchangeStep := []

def Running.start {υ δ ς κ : Type} (endpoint : Endpoint υ δ ς) (connection : κ) (disk : Disk) :
    Running υ δ ς κ where
  endpoint
  inflow := {
    source := connection
    multiplexed := endpoint.options.multiplexed
    journal := { verbosity := endpoint.options.reporting } }
  disk

namespace Running

variable {ε α υ δ γ ς κ : Type}

abbrev Step (υ δ ς κ α : Type) : Type :=
  EStateM Failure (Running υ δ ς κ) α

def options : Step υ δ ς κ Options := do
  return (← get).endpoint.options

def info (flag : InfoFlag) (level : UInt8) (message : String) : Step υ δ ς κ Unit :=
  modify fun running =>
    let inflow := running.inflow
    { running with inflow := { inflow with journal := inflow.journal.info flag level message } }

def debug (flag : DebugFlag) (level : UInt8) (message : String) : Step υ δ ς κ Unit :=
  modify fun running =>
    let inflow := running.inflow
    { running with inflow := { inflow with journal := inflow.journal.debug flag level message } }

def warn (message : String) : Step υ δ ς κ Unit :=
  modify fun running =>
    let inflow := running.inflow
    { running with inflow := { inflow with journal := inflow.journal.warn message } }

def onHost (step : EStateM ε Host α) : EStateM ε (Running υ δ ς κ) α :=
  Action.within (fun running => ⟨running.disk, running.inflow.journal⟩)
    (fun host running =>
      { running with
        disk := host.disk
        inflow := { running.inflow with journal := host.journal } })
    step

/-- A step on the disk that concerns the root. -/
def onRoot (step : String) (root : Path) (action : EStateM Fault Disk α) :
    Step υ δ ς κ α :=
  Action.explaining (.filesystem step root) (onHost (Host.onDisk action))

def onSandbox (step : String) (root : Path) (action : EStateM Fault (Confining ς) Unit) :
    Step υ δ ς κ Unit :=
  Action.explaining (.filesystem step root) <|
    Action.within (fun running => ⟨running.endpoint.sandbox, running.inflow.journal⟩)
      (fun confining running =>
        { running with
          endpoint := { running.endpoint with sandbox := confining.sandbox }
          inflow := { running.inflow with journal := confining.journal } })
      action

def send [ByteSink κ] (step : String) (emission : Emission) : Step υ δ ς κ Unit :=
  Action.explaining (.ofTransport step) <|
    Action.within (·.inflow.source)
      (fun source running => { running with inflow := { running.inflow with source } })
      emission.send

/-- Receives something; `step` tells what for. -/
def receive (step : String) (action : EStateM Fault (Inflow κ) α) : Step υ δ ς κ α :=
  Action.explaining (.ofTransport step) <|
    Action.within Running.inflow (fun inflow running => { running with inflow }) action

/-- Reads the list, and the word on whether the peer could read all of its tree. -/
def receiveList [ByteSource κ] : Step υ δ ς κ (List ListEntry) := do
  let files ← receive "file list" FileList.read
  let integrity ← receive "integrity value" Wire.readInt
  if integrity ≠ 0 then
    throw (.protocol "integrity value" (.integrityValue integrity.toInt))
  return files

/-- Without an open root the entries that would be removed are only reported. -/
def removeFound (endpoint : Endpoint υ δ ς) (directory : Option Location)
    (found : List FoundEntry) (files : List ListEntry) : Step υ δ ς κ Removals :=
  match directory with
  | some directory => onHost (endpoint.prune directory found files)
  | none => onHost (Destination.planRemovals found files)

/-- Removes what the list does not name, or reports what would be removed. -/
def clear (root : Path) (directory : Option Location) (files : List ListEntry) :
    Step υ δ ς κ Removals := do
  let endpoint := (← get).endpoint
  if endpoint.options.deletes then
    removeFound endpoint directory (← onHost (Destination.contents root)) files
  else return {}

/-- The exchange that a run with these parts begins. -/
def beginExchange (total : Nat) (running : Running υ δ ς κ) : Exchange υ δ γ κ where
  uploader := running.endpoint.uploader
  downloader := running.endpoint.downloader
  cursor := .start total
  newDirectories := .none total
  inflow := running.inflow
  disk := running.disk

def endExchange (exchange : Exchange υ δ γ κ) (running : Running υ δ ς κ) :
    Running υ δ ς κ :=
  { running with
    endpoint := { running.endpoint with
      uploader := exchange.uploader
      downloader := exchange.downloader }
    inflow := exchange.inflow
    disk := exchange.disk
    steps := exchange.steps }

variable [Connection κ] [Uploader υ] [Downloader δ γ]

/-- Exchanges the content, and tells which directories were made. -/
def exchange (task : Task) : Step υ δ ς κ (Phase × NewDirectories) := do
  let patience := (← get).endpoint.patience
  let whole : Exchange.Step υ δ γ κ (Phase × NewDirectories) := do
    let phase ← Exchange.run task patience
    return (phase, (← get).newDirectories)
  Action.within (beginExchange task.files.length) endExchange whole

def fixUp (directory : Option Location) (files : List ListEntry) (marks : NewDirectories) :
    Step υ δ ς κ Fixups := do
  match directory with
  | none => return {}
  | some root =>
      let options ← options
      let whole : EStateM Failure (Destination.Fixing RootedDisk) Fixups :=
        Destination.fixUp options.fixups files marks
      Action.within (fun running => ⟨⟨root, running.disk⟩, running.inflow.journal⟩)
        (fun fixing running =>
          { running with
            disk := fixing.keeper.disk
            inflow := { running.inflow with journal := fixing.journal } })
        whole

/-- Agrees with the peer on the end. -/
def agreeOnEnd (phase : Phase) : Step υ δ ς κ Phase := do
  send "end of phase" (Wire.writeInt Wire.doneIndex)
  receive "phase acknowledgement" (Wire.readDone "phase acknowledgement")
  match phase.after .peerAcknowledged with
  | .error refused => throw (.protocol "phase acknowledgement" (.outOfOrder refused))
  | .ok next =>
      debug .protocol 1 s!"peer acknowledged phase 1, now in phase {next.number}"
      return next

/-- Receives the totals, which only a client is sent. -/
def receiveTotals : Step υ δ ς κ (Option Totals) := do
  if (← options).server then return none
  let totals ← receive "statistics" Totals.receive
  info .stats 1 <|
    s!"sent {totals.written.toNat} bytes  received {totals.read.toNat} bytes  " ++
      s!"total size {totals.size.toNat}"
  return some totals

/-- What is left to do once the content is exchanged. -/
def conclude (root : Path) (directory : Option Location) (files : List ListEntry)
    (removals : Removals) (phase : Phase) (marks : NewDirectories) : Step υ δ ς κ Outcome := do
  info .misc 2 (root.display ++ ": receiver ready for phase 2 data")
  let fixups ← fixUp directory files marks
  let phase ← agreeOnEnd phase
  let totals ← receiveTotals
  send "goodbye" (Wire.writeInt Wire.doneIndex)
  info .misc 2 (root.display ++ ": receiver finished updating")
  return {
    phase, files := files.length, totals, removals, newDirectories := marks.count, fixups }

variable [Sandbox ς]

def openRoot (root : Path) : Step υ δ ς κ (Option Location) := do
  if (← options).dryRun then return none
  else some <$> onRoot "open" root (Destination.openRoot root)

/-- Clears the open root of what the list does not name, and confines the run to it. -/
def makeReady (root : Path) (directory : Option Location) (files : List ListEntry) :
    Step υ δ ς κ Removals := do
  let removals ← clear root directory files
  onSandbox "confine" root (Sandbox.confine root)
  info .misc 2 (root.display ++ ": ready for phase 1 data")
  return removals

/-- Brings the open root up to date. `umask` is the mask that was in force before the run
cleared it. -/
def fill (root : Path) (directory : Option Location) (files : List ListEntry) (umask : UInt32) :
    Step υ δ ς κ Outcome := do
  let removals ← makeReady root directory files
  let checksum := (← options).checksum
  let (phase, marks) ← exchange { root := directory, files, checksum, umask }
  conclude root directory files removals phase marks

/-- What is done while the mask is cleared. -/
def transfer (root : Path) (files : List ListEntry) (umask : UInt32) :
    Step υ δ ς κ Outcome := do
  fill root (← openRoot root) files umask

/-- Clears the mask for the time of a step, which is told the mask that was in force. -/
def withoutUmask (step : UInt32 → Step υ δ ς κ α) : Step υ δ ς κ α := do
  let umask := (← get).disk.umask
  modify fun running => { running with disk := { running.disk with umask := 0 } }
  Action.ensuring (step umask) fun running => { running with disk := { running.disk with umask } }

/-- Receives the list and makes the root. A client that is sent an empty list has
nothing to make it for. -/
def prepare (root : Path) : Step υ δ ς κ (Option (List ListEntry)) := do
  let options ← options
  onSandbox "restrict capabilities" root (Sandbox.restrict options.capabilities)
  if options.server = false then send "filter preamble" (Wire.writeInt 0)
  let files ← receiveList
  if options.server = false && files.isEmpty then
    warn "empty file list: nothing to receive"
    return none
  if options.server = false then
    info .fileList 1 s!"Transfer starting: {files.length} files"
  info .misc 2 (root.display ++ ": receiver destination")
  if options.dryRun = false then onRoot "mkpath" root (Destination.makePath root)
  return some files

/-- Receives a transfer into `root`. -/
def run (root : Path) : Step υ δ ς κ Outcome := do
  match ← prepare root with
  | none => return { files := 0, skippedEmpty := true }
  | some files => withoutUmask (transfer root files)

end Running

end TreeSync

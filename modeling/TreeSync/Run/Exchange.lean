import TreeSync.Transfer.Roles

namespace TreeSync

/-! The exchange: requests and content, interleaved.

Both roles are advanced from one loop, so that neither can keep the other from its
work: the uploader while requests are left to make, the downloader whenever content
is waiting. The exchange ends when the downloader says so, provided that everything
was offered and no file is left half received.
-/

inductive ExchangeStep where
  /-- It waited, with the cursor and the armed descriptor as they were. -/
  | waited (exhausted armed : Bool) (timeout : Timeout)
  | woke (readiness : Readiness)
  | uploaded (succeeded : Bool)
  /-- One message was dealt with; so much content is waiting now. -/
  | flushed (remaining : Nat)
  | downloaded (outcome : Option DownloadOutcome)
deriving DecidableEq

structure Exchange (υ δ γ κ : Type) where
  uploader : υ
  downloader : δ
  cursor : Cursor
  secondary : Secondary := none
  newDirectories : NewDirectories
  pending : Option γ := none
  inflow : Inflow κ
  disk : Disk
  /-- What the rounds did, oldest first. -/
  steps : List ExchangeStep := []

namespace Exchange

variable {ε α υ δ γ κ : Type}

abbrev Step (υ δ γ κ α : Type) : Type :=
  EStateM Failure (Exchange υ δ γ κ) α

def note (step : ExchangeStep) : EStateM ε (Exchange υ δ γ κ) Unit :=
  modify fun exchange => { exchange with steps := exchange.steps ++ [step] }

def lendUpload (exchange : Exchange υ δ γ κ) : Uploading υ κ where
  uploader := exchange.uploader
  cursor := exchange.cursor
  secondary := exchange.secondary
  newDirectories := exchange.newDirectories
  connection := exchange.inflow.source
  host := ⟨exchange.disk, exchange.inflow.journal⟩

def takeUpload (uploading : Uploading υ κ) (exchange : Exchange υ δ γ κ) : Exchange υ δ γ κ :=
  { exchange with
    uploader := uploading.uploader
    cursor := uploading.cursor
    secondary := uploading.secondary
    newDirectories := uploading.newDirectories
    inflow := { exchange.inflow with
      source := uploading.connection
      journal := uploading.host.journal }
    disk := uploading.host.disk }

def lendDownload (exchange : Exchange υ δ γ κ) : Downloading δ γ κ where
  downloader := exchange.downloader
  pending := exchange.pending
  inflow := exchange.inflow
  disk := exchange.disk

def takeDownload (downloading : Downloading δ γ κ) (exchange : Exchange υ δ γ κ) :
    Exchange υ δ γ κ :=
  { exchange with
    downloader := downloading.downloader
    pending := downloading.pending
    inflow := downloading.inflow
    disk := downloading.disk }

variable [Connection κ]

def wait : Step υ δ γ κ Readiness := do
  let exchange ← get
  let exhausted := exchange.cursor.exhausted
  let armed := exchange.secondary.isSome
  let timeout := Timeout.choose (!exhausted) armed
  note (.waited exhausted armed timeout)
  let poll : EStateM Fault κ (Signals × Option Signals) :=
    Connection.poll timeout exchange.secondary
  let (inbound, secondary) ← Action.explaining (.ofTransport "poll")
    (Action.within (·.inflow.source)
      (fun source exchange => { exchange with inflow := { exchange.inflow with source } }) poll)
  match (← get).inflow.journal.wakeUp timeout inbound secondary with
  | .error failure => throw failure
  | .ok (readiness, journal) =>
      modify fun exchange => { exchange with inflow := { exchange.inflow with journal } }
      note (.woke readiness)
      return readiness

def advanceUploader [Uploader υ] (task : Task) : Step υ δ γ κ Unit := do
  match ← Action.attempt (Action.within lendUpload takeUpload (Uploader.advance task)) with
  | .ok () => note (.uploaded true)
  | .error fault =>
      note (.uploaded false)
      throw (.ofRole .uploader fault)

/-- Deals with one message, and tells whether content is waiting then. On a plain
stream it is, if anything is. -/
def contentWaits : Step υ δ γ κ Bool := do
  if (← get).inflow.multiplexed then
    Action.explaining (.ofTransport "out-of-band messages")
      (Action.within Exchange.inflow (fun inflow exchange => { exchange with inflow })
        Inflow.flush)
    let remaining := (← get).inflow.remaining
    note (.flushed remaining)
    return 0 < remaining
  else return true

def advanceDownloader [Downloader δ γ] (task : Task) : Step υ δ γ κ DownloadOutcome := do
  match ← Action.attempt (Action.within lendDownload takeDownload (Downloader.advance task)) with
  | .ok outcome =>
      note (.downloaded (some outcome))
      return outcome
  | .error fault =>
      note (.downloaded none)
      throw (.ofRole .downloader fault)

/-- Refuses an end of the exchange that comes too soon. -/
def checkComplete (task : Task) : Step υ δ γ κ Phase := do
  let exchange ← get
  if exchange.cursor.exhausted = false then
    throw (.protocol "phase 1" (.endedEarly exchange.cursor.offered task.files.length))
  if exchange.pending.isSome then throw (.protocol "phase 1" .endedWithinFile)
  match Phase.collecting.after .downloadComplete with
  | .ok phase => return phase
  | .error refused => throw (.protocol "phase 1" (.outOfOrder refused))

/-- Takes content, if some is waiting. -/
def takeWaiting [Downloader δ γ] (task : Task) (readiness : Readiness) :
    Step υ δ γ κ (Option Phase) := do
  if readiness.inbound = false then return none
  if (← contentWaits) = false then return none
  match ← advanceDownloader task with
  | .ongoing => return none
  | .complete => return some (← checkComplete task)

variable [Uploader υ] [Downloader δ γ]

/-- One round; it yields the phase that follows once the exchange is complete. -/
def round (task : Task) : Step υ δ γ κ (Option Phase) := do
  let readiness ← wait
  if !(← get).cursor.exhausted || readiness.secondary then advanceUploader task
  takeWaiting task readiness

def roundsUpTo (task : Task) (limit : Nat) : (left : Nat) → Step υ δ γ κ Phase
  | 0 => throw (.stalled limit)
  | left + 1 => do
      match ← round task with
      | some phase => return phase
      | none => roundsUpTo task limit left

/-- Rounds that can make progress: one for each entry and the end of the list, and one
for each byte that may still come. -/
def usefulRounds (task : Task) (connection : κ) : Nat :=
  task.files.length + 2 + ByteSource.budget connection

def abandonPending (exchange : Exchange υ δ γ κ) : Exchange υ δ γ κ :=
  match exchange.pending with
  | none => exchange
  | some file =>
      { exchange with
        pending := none
        disk := Downloader.abandon δ file exchange.disk }

/-- Goes on to the end. Roles that take idle rounds are granted `patience` of them. No
file stays in progress, however it ends. -/
def run (task : Task) (patience : Nat) : Step υ δ γ κ Phase := do
  let limit := usefulRounds task (← get).inflow.source + patience
  Action.ensuring (roundsUpTo task limit limit) abandonPending

end Exchange

end TreeSync

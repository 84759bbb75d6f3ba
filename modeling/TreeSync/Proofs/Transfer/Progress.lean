import TreeSync.Proofs.Message.Reading
import TreeSync.Proofs.Transfer.Asking
import TreeSync.Transfer.FileCollector

namespace TreeSync

/-! How far a step of either role gets.

The downloader only reads from the stream, and each of its steps begins with an int: one that
succeeds has used up the bytes of an int, whatever else it read. The uploader only writes, and
a step that succeeds has moved the cursor on.
-/

open TreeSync.Action

namespace ByteSource

variable {σ : Type} [ByteSource σ]

/-- Whether no more can still come than could before. -/
def Shrinks (before after : σ) : Prop :=
  budget after ≤ budget before

theorem Shrinks.accumulates : Accumulates (Shrinks (σ := σ)) :=
  ⟨fun _ => Nat.le_refl _, fun earlier later => Nat.le_trans later earlier⟩

theorem Shrinks.respects : Respects (Shrinks (σ := σ)) := by
  refine fun limit before => Meets.intro (fun _ _ ran => ⟨?_, trivial⟩) fun _ _ failed => ?_
  · exact Nat.le_trans (Nat.le_add_right _ _) (read_budget ran)
  · exact Nat.le_trans (Nat.le_add_right _ _) (fault_budget failed)

end ByteSource

namespace FileCollector

open Inflow

variable {κ : Type} [ByteSource κ]

/-- What the downloader does about the int that it finds between two files. -/
def answer (task : Task) (index : Int32) : Step κ DownloadOutcome := do
  if index = Wire.doneIndex then
    let received := (← get).downloader.received.length
    Downloading.report (·.debug .reception 1 s!"downloader done: {received} files")
    return .complete
  else
    let arriving ← begin index.toInt task
    modify fun downloading => { downloading with pending := some arriving }
    return .ongoing

theorem startNext_eq (task : Task) :
    (startNext task : Step κ DownloadOutcome) = Downloading.receive Wire.readInt >>= answer task :=
  rfl

/-- What the downloader does about the token that it finds within a file. -/
def takeToken (arriving : ArrivingFile) (task : Task) (value : Int32) :
    Step κ (Option ArrivingFile) := do
  let token := value.toInt
  if token = 0 then
    match task.files[arriving.index]? with
    | some entry => commit arriving entry task.umask
    | none => throw (.indexOutOfRange arriving.index)
    return none
  else if token < 0 then throw (.blockReference token)
  else if maxPiece < token.toNat then throw (.literalTooLong token)
  else return some (← addPiece arriving token.toNat)

theorem goOn_eq (arriving : ArrivingFile) (task : Task) :
    (goOn arriving task : Step κ (Option ArrivingFile)) =
      Downloading.receive Wire.readInt >>= takeToken arriving task :=
  rfl

/-- Whether a step draws from the stream at most; `relation` tells what it makes of it. -/
def Draws (relation : κ → κ → Prop) (before after : Downloading FileCollector ArrivingFile κ) :
    Prop :=
  Drawn relation before.inflow after.inflow

section

variable {relation : κ → κ → Prop}

omit [ByteSource κ] in
theorem Draws.accumulates (accumulates : Accumulates relation) : Accumulates (Draws relation) :=
  (Drawn.accumulates accumulates).on Downloading.inflow

omit [ByteSource κ] in
theorem receive_draws {α : Type} {step : EStateM Fault (Inflow κ) α}
    (draws : Keeps (Drawn relation) step) :
    Keeps (Draws relation) (Downloading.receive step : Step κ α) :=
  .within draws fun _ _ drawn => drawn

variable (accumulates : Accumulates relation) (reads : ByteSource.Respects relation)

include accumulates

omit [ByteSource κ] in
theorem onDisk_draws {α : Type} (step : EStateM Fault Disk α) :
    Keeps (Draws relation) (Downloading.onDisk step : Step κ α) :=
  .aside fun _ downloading => (Drawn.accumulates accumulates).refl downloading.inflow

omit [ByteSource κ] in
theorem report_draws (change : Journal → Journal) :
    Keeps (Draws relation) (Downloading.report change : Step κ Unit) :=
  .change fun downloading => .report accumulates downloading.inflow _

omit [ByteSource κ] in
theorem commit_draws (arriving : ArrivingFile) (entry : ListEntry) (umask : UInt32) :
    Keeps (Draws relation) (commit arriving entry umask : Step κ Unit) := by
  have trans := Draws.accumulates accumulates
  refine .cond (.throw trans) (.get fun _ => .bind trans (onDisk_draws accumulates _) fun _ _ => ?_)
  exact .bind trans (.change fun now => trans.refl now) fun _ _ => report_draws accumulates _

include reads

theorem receiveInt_draws :
    Keeps (Draws relation) (Downloading.receive Wire.readInt : Step κ Int32) :=
  receive_draws (Wire.readInt_keeps (Drawn.accumulates accumulates) (read_draws accumulates reads))

theorem begin_draws (index : Int) (task : Task) :
    Keeps (Draws relation) (begin index task : Step κ ArrivingFile) := by
  have trans := Draws.accumulates accumulates
  have ints := receiveInt_draws accumulates reads
  refine .bind trans (.ofExcept trans fun _ _ => trivial) fun found _ => ?_
  refine .bind trans ints fun _ _ => .bind trans ints fun _ _ => .bind trans ints fun _ _ => ?_
  refine .bind trans ints fun _ _ => .cond (.throw trans) ?_
  refine .bind trans (.ofExcept trans fun _ _ => trivial) fun root _ => ?_
  refine .bind trans (onDisk_draws accumulates _) fun seat _ => ?_
  refine .bind trans (onDisk_draws accumulates _) fun temporary _ => ?_
  exact .bind trans (report_draws accumulates _) fun _ _ => .pure trans trivial

theorem addPiece_draws (arriving : ArrivingFile) (length : Nat) :
    Keeps (Draws relation) (addPiece arriving length : Step κ ArrivingFile) := by
  have trans := Draws.accumulates accumulates
  have pieces := ByteSource.readUpTo_keeps (Drawn.accumulates accumulates)
    (read_draws accumulates reads) length
  refine .bind trans (receive_draws pieces) fun content _ => ?_
  refine .bind trans (onDisk_draws accumulates _) fun _ _ => .cond (.throw trans) ?_
  exact .bind trans (report_draws accumulates _) fun _ _ => .pure trans trivial

theorem answer_draws (task : Task) (index : Int32) :
    Keeps (Draws relation) (answer task index : Step κ DownloadOutcome) := by
  have trans := Draws.accumulates accumulates
  refine .cond (.get fun _ => .bind trans (report_draws accumulates _) fun _ _ => ?_) ?_
  · exact .pure trans trivial
  · refine .bind trans (begin_draws accumulates reads _ task) fun arriving _ => ?_
    exact .bind trans (.change fun now => trans.refl now) fun _ _ => .pure trans trivial

theorem takeToken_draws (arriving : ArrivingFile) (task : Task) (value : Int32) :
    Keeps (Draws relation) (takeToken arriving task value : Step κ (Option ArrivingFile)) := by
  have trans := Draws.accumulates accumulates
  refine .cond ?_ (.cond (.throw trans) (.cond (.throw trans) ?_))
  · split
    · exact .bind trans (commit_draws accumulates _ _ _) fun _ _ => .pure trans trivial
    · exact .throw trans
  · exact .bind trans (addPiece_draws accumulates reads _ _) fun _ _ => .pure trans trivial

/-- Receiving a file only reads from the stream. -/
theorem advance_draws (task : Task) :
    Keeps (Draws relation) (advance task : Step κ DownloadOutcome) := by
  have trans := Draws.accumulates accumulates
  have ints := receiveInt_draws accumulates reads
  refine .get fun downloading => ?_
  split
  · rw [startNext_eq]
    exact .bind trans ints fun index _ => answer_draws accumulates reads task index
  · next arriving held =>
    refine .bind trans (.change fun now => trans.refl now) fun _ _ => ?_
    have goes : Keeps (Draws relation) (goOn arriving task) := by
      rw [goOn_eq]
      exact .bind trans ints fun value _ => takeToken_draws accumulates reads arriving task value
    refine .bind trans (fun before => Meets.onFailure (goes before)) fun pending _ => ?_
    exact .bind trans (.change fun now => trans.refl now) fun _ _ => .pure trans trivial

end

/-- Whether the bytes of an int were used up, if nothing failed. -/
def UsesInt (before after : Downloading FileCollector ArrivingFile κ) : Prop :=
  ByteSource.budget after.inflow.source + Wire.intWidth ≤ ByteSource.budget before.inflow.source

theorem receiveInt_uses {α : Type} {next : Int32 → Step κ α}
    (draws : ∀ value, Keeps (Draws ByteSource.Shrinks) (next value))
    (before : Downloading FileCollector ArrivingFile κ) :
    Meets (Downloading.receive Wire.readInt >>= next) before (fun _ after => UsesInt before after)
      (fun _ _ => True) := by
  refine Meets.withinThen (Meets.ran Wire.readInt) (fun _ _ _ => trivial) fun value after ran => ?_
  have spent : ByteSource.budget after.source + Wire.intWidth ≤
      ByteSource.budget before.inflow.source :=
    (Wire.readInt_spends (σ := Inflow κ)).budget_le ran
  refine (draws value _).mono (fun _ final drawn => ?_) fun _ _ _ => trivial
  exact Nat.le_trans (Nat.add_le_add_right drawn.1.source _) spent

/-- A step that succeeds has read an int at least. -/
theorem advance_uses (task : Task) (before : Downloading FileCollector ArrivingFile κ) :
    Meets (advance task) before (fun _ after => UsesInt before after) (fun _ _ => True) := by
  have trans := ByteSource.Shrinks.accumulates (σ := κ)
  have reads := ByteSource.Shrinks.respects (σ := κ)
  refine Meets.get ?_
  split
  · exact receiveInt_uses (answer_draws trans reads task) before
  · next arriving held =>
    have goes : Meets (goOn arriving task) { before with pending := none }
        (fun _ after => UsesInt before after) (fun _ _ => True) :=
      receiveInt_uses (takeToken_draws trans reads arriving task) _
    refine Meets.changeThen (Meets.bind (Meets.onFailure goes) fun pending after used => ?_)
    exact Meets.changeThen (Meets.pure used)

end FileCollector

namespace FileRequester

variable {κ : Type} [ByteSink κ] {relation : κ → κ → Prop}

/-- What a step does that leaves the cursor where it is; `relation` tells what becomes of the
connection. -/
structure Lingers (relation : κ → κ → Prop) (before after : Uploading FileRequester κ) : Prop where
  connection : relation before.connection after.connection
  cursor : after.cursor = before.cursor

omit [ByteSink κ] in
theorem Lingers.accumulates (accumulates : Accumulates relation) :
    Accumulates (Lingers relation) where
  refl uploading := ⟨accumulates.refl uploading.connection, rfl⟩
  trans earlier later :=
    { connection := accumulates.trans earlier.connection later.connection
      cursor := later.cursor.trans earlier.cursor }

omit [ByteSink κ] in
theorem Quiet.lingers (accumulates : Accumulates relation)
    {before after : Uploading FileRequester κ} (quiet : Quiet before after) :
    Lingers relation before after where
  connection := by
    rw [quiet.connection]
    exact accumulates.refl _
  cursor := quiet.cursor

variable (accumulates : Accumulates relation)
  (puts : ∀ bytes, Keeps relation (ByteSink.put bytes : EStateM Fault κ Unit))

include accumulates puts

theorem send_lingers (emission : Emission) :
    Keeps (Lingers relation)
      (Uploading.send emission : EStateM Fault (Uploading FileRequester κ) Unit) :=
  .within (Emission.send_keeps accumulates puts emission) fun _ _ sent => ⟨sent, rfl⟩

theorem examine_lingers (index : Nat) (entry : ListEntry) (task : Task) :
    Keeps (Lingers relation) (examine (κ := κ) index entry task) := by
  have trans := Lingers.accumulates accumulates
  have quietly {α : Type} {step : EStateM Fault (Uploading FileRequester κ) α}
      (quiet : Keeps Quiet step) : Keeps (Lingers relation) step :=
    quiet.mono (fun _ _ quiet => quiet.lingers accumulates) fun _ _ => trivial
  have requests : Keeps (Lingers relation) (requestFile (κ := κ) index entry task) := by
    refine .cond (.throw trans) (.bind trans (send_lingers accumulates puts _) fun _ _ => ?_)
    exact .bind trans (quietly (onHost_quiet _)) fun _ _ =>
      .change fun now => ⟨accumulates.refl now.connection, rfl⟩
  refine .cond (quietly (examineDirectory_quiet index entry task)) ?_
  refine .cond ?_ (quietly (onHost_quiet _))
  refine .get fun uploading => .cond (quietly (onHost_quiet _)) ?_
  refine .bind trans (.ofExcept trans fun _ _ => trivial) fun root _ => ?_
  refine .bind trans (quietly (onHost_quiet _)) fun standing _ => .cond ?_ ?_
  · exact .bind trans (quietly (onHost_quiet _)) fun _ _ =>
      .change fun now => ⟨accumulates.refl now.connection, rfl⟩
  · exact .cond (.throw trans) requests

/-- A step that succeeds moves the cursor on, where it can be moved. -/
theorem advance_passes (task : Task) (before : Uploading FileRequester κ) :
    Meets (advance task) before
      (fun _ after => relation before.connection after.connection ∧
        after.cursor = before.cursor.advance)
      (fun _ _ => True) := by
  refine Meets.changeThen (Meets.get ?_)
  split
  · next index here =>
    dsimp only
    split
    · next entry listed =>
      refine (examine_lingers accumulates puts index entry task _).followedBy
        (fun _ _ _ => trivial) fun _ after lingers => ?_
      exact Meets.change ⟨lingers.1.connection, congrArg Cursor.advance lingers.1.cursor⟩
    · exact Meets.change ⟨accumulates.refl _, rfl⟩
  · next here =>
    refine (send_lingers accumulates puts _ _).followedBy (fun _ _ _ => trivial) ?_
    intro _ after lingers
    refine Meets.changeThen (Meets.get ?_)
    refine (onHost_quiet _ _).mono (fun _ _ quiet => ?_) fun _ _ _ => trivial
    have passed := quiet.1.lingers accumulates
    exact ⟨accumulates.trans lingers.1.connection passed.connection,
      passed.cursor.trans (congrArg Cursor.advance lingers.1.cursor)⟩
  · next here =>
    refine Meets.pure ⟨accumulates.refl _, ?_⟩
    rw [Cursor.advance_exhausted (Cursor.position?_eq_none.mp here)]

end FileRequester

end TreeSync

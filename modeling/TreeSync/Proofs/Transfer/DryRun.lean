import TreeSync.Proofs.Destination.Planned
import TreeSync.Proofs.Message.Reading
import TreeSync.Transfer.FileCollector
import TreeSync.Transfer.FileRequester

namespace TreeSync

/-! What the roles leave alone in a dry run.

The uploader is told that it is one. The downloader is not: it refuses the first reply, since
no root is open that it could receive into.
-/

open TreeSync.Action

/-- A relation that a connection keeps to as long as it is only read from, waited for and told
that nothing more is asked for. -/
structure Connection.Unasking {κ : Type} [Connection κ] (relation : κ → κ → Prop) : Prop where
  accumulates : Accumulates relation
  reads : ByteSource.Respects relation
  polls : ∀ timeout beside, Keeps relation
    (Connection.poll timeout beside : EStateM Fault κ (Signals × Option Signals))
  marks : Keeps relation (ByteSink.put (Wire.intBytes Wire.doneIndex) : EStateM Fault κ Unit)

theorem Connection.Unasking.sends {κ : Type} [Connection κ] {relation : κ → κ → Prop}
    (unasking : Unasking relation) :
    Keeps relation ((Wire.writeInt Wire.doneIndex).send : EStateM Fault κ Unit) :=
  have trans := unasking.accumulates
  have pieces : Keeps relation ((Wire.writeInt Wire.doneIndex).pieces.forM ByteSink.put) :=
    .bind trans unasking.marks fun _ _ => .pure trans trivial
  .bind trans pieces fun _ _ => .pure trans trivial

namespace Inflow

variable {κ : Type} {relation : κ → κ → Prop}

/-- What reading does to an inflow, and that it reports no removal. -/
structure Untouched (relation : κ → κ → Prop) (before after : Inflow κ) : Prop where
  source : relation before.source after.source
  journal : before.journal.Quiet after.journal

theorem Untouched.accumulates (accumulates : Accumulates relation) :
    Accumulates (Untouched relation) where
  refl inflow := ⟨accumulates.refl inflow.source, Journal.Quiet.refl inflow.journal⟩
  trans earlier later :=
    ⟨accumulates.trans earlier.source later.source, earlier.journal.quiet later.journal⟩

variable (accumulates : Accumulates relation)

include accumulates

theorem Untouched.report (inflow : Inflow κ) {journal : Journal}
    (quiet : inflow.journal.Quiet journal) : Untouched relation inflow { inflow with journal } :=
  ⟨accumulates.refl inflow.source, quiet⟩

theorem Untouched.tolerates [ByteSource κ] (reads : ByteSource.Respects relation) :
    Tolerates (Untouched relation) where
  accumulates := Untouched.accumulates accumulates
  reads limit := (reads limit).mono
    (fun _ _ read inflow => ⟨read, Journal.Quiet.refl inflow.journal⟩)
    fun _ _ => trivial
  counts inflow _ := ⟨accumulates.refl inflow.source, Journal.Quiet.refl inflow.journal⟩
  delivers code payload := by
    refine .of_leaves fun inflow => ?_
    unfold deliver
    split
    · exact .report accumulates inflow Journal.route_quiet
    · split <;> exact ⟨accumulates.refl inflow.source, Journal.Quiet.refl inflow.journal⟩
  reports inflow _ _ _ := .report accumulates inflow Journal.debug_quiet

end Inflow

namespace FileRequester

variable {κ ε : Type} {relation : κ → κ → Prop} {now : Uploading FileRequester κ} {task : Task}

/-- What a step leaves alone that neither asks for anything nor makes anything. -/
structure Untouched (relation : κ → κ → Prop) (before after : Uploading FileRequester κ) : Prop where
  uploader : after.uploader = before.uploader
  newDirectories : after.newDirectories = before.newDirectories
  disk : after.host.disk = before.host.disk
  journal : before.host.journal.Quiet after.host.journal
  connection : relation before.connection after.connection

theorem Untouched.accumulates (accumulates : Accumulates relation) :
    Accumulates (Untouched relation) where
  refl now :=
    ⟨rfl, rfl, rfl, Journal.Quiet.refl now.host.journal,
      accumulates.refl now.connection⟩
  trans earlier later :=
    { uploader := later.uploader.trans earlier.uploader
      newDirectories := later.newDirectories.trans earlier.newDirectories
      disk := later.disk.trans earlier.disk
      journal := earlier.journal.quiet later.journal
      connection := accumulates.trans earlier.connection later.connection }

section Parts

variable (accumulates : Accumulates relation)

include accumulates

theorem info_untouched {flag : InfoFlag} {level : UInt8} {message : String}
    (other : flag ≠ .deletion) :
    Keeps (Untouched relation)
      (Uploading.onHost (Host.info flag level message) : EStateM ε (Uploading FileRequester κ) Unit) :=
  fun now => ⟨⟨rfl, rfl, rfl, Journal.info_quiet other, accumulates.refl now.connection⟩, trivial⟩

theorem debug_untouched {flag : DebugFlag} {level : UInt8} {message : String} :
    Keeps (Untouched relation)
      (Uploading.onHost (Host.debug flag level message) :
        EStateM ε (Uploading FileRequester κ) Unit) :=
  fun now => ⟨⟨rfl, rfl, rfl, Journal.debug_quiet, accumulates.refl now.connection⟩, trivial⟩

theorem moveOn_untouched : Keeps (Untouched relation) (moveOn (κ := κ)) :=
  .change fun now =>
    ⟨rfl, rfl, rfl, Journal.Quiet.refl now.host.journal, accumulates.refl now.connection⟩

/-- In a dry run the entries are only reported. -/
theorem examine_untouched [ByteSink κ] (dry : now.uploader.dryRun = true) (index : Nat)
    (entry : ListEntry) :
    Meets (examine index entry task) now (fun _ after => Untouched relation now after)
      (fun _ after => Untouched relation now after) := by
  have tells {flag : InfoFlag} {level : UInt8} {message : String} (other : flag ≠ .deletion) :
      Meets (Uploading.onHost (Host.info flag level message) : EStateM Fault _ Unit) now
        (fun _ after => Untouched relation now after)
        (fun _ after => Untouched relation now after) :=
    (info_untouched accumulates other).meets now
  refine Meets.cond (fun _ => Meets.get (Meets.cond (fun _ => tells (by decide)) fun _ => ?_))
    fun _ => Meets.cond (fun _ => Meets.get (Meets.cond (fun _ => tells (by decide)) ?_))
      fun _ => tells (by decide)
  · refine Meets.cond (fun _ => Meets.pure ((Untouched.accumulates accumulates).refl now)) ?_
    intro wet
    simp [dry] at wet
  · exact fun wet => absurd dry wet

end Parts

variable [Connection κ] (unasking : Connection.Unasking relation)

include unasking

theorem announceEnd_untouched : Keeps (Untouched relation) (announceEnd (κ := κ)) := by
  have accumulates := unasking.accumulates
  have trans := Untouched.accumulates accumulates
  refine .bind trans (.within unasking.sends fun before connection sent => ?_) fun _ _ => ?_
  · exact ⟨rfl, rfl, rfl, Journal.Quiet.refl before.host.journal, sent⟩
  · exact .bind trans (moveOn_untouched accumulates) fun _ _ =>
      .get fun _ => debug_untouched accumulates

theorem advance_untouched (dry : now.uploader.dryRun = true) :
    Meets (advance task) now (fun _ after => Untouched relation now after)
      (fun _ after => Untouched relation now after) := by
  have accumulates := unasking.accumulates
  have trans := Untouched.accumulates accumulates
  let lent : Uploading FileRequester κ := { now with secondary := none }
  have lends : Untouched relation now lent :=
    ⟨rfl, rfl, rfl, Journal.Quiet.refl now.host.journal, accumulates.refl now.connection⟩
  have moves {middle : Uploading FileRequester κ} (earlier : Untouched relation now middle) :
      Meets moveOn middle (fun _ after => Untouched relation now after)
        (fun _ after => Untouched relation now after) :=
    (moveOn_untouched accumulates).onward trans earlier
  refine Meets.changeThen (Meets.get ?_)
  split
  · split
    · have dryLent : lent.uploader.dryRun = true := dry
      refine (examine_untouched accumulates dryLent _ _).followedBy ?_ fun _ _ examined => ?_
      · exact fun _ _ examined => trans.trans lends examined
      · exact moves (trans.trans lends examined)
    · exact moves lends
  · exact (announceEnd_untouched unasking).onward trans lends
  · exact Meets.pure lends

end FileRequester

namespace FileCollector

variable {κ : Type} {relation : κ → κ → Prop} {task : Task}

/-- What a step leaves alone that only reads. -/
structure Untouched (relation : κ → κ → Prop)
    (before after : Downloading FileCollector ArrivingFile κ) : Prop where
  downloader : after.downloader = before.downloader
  pending : after.pending = before.pending
  disk : after.disk = before.disk
  inflow : before.inflow.Untouched relation after.inflow

theorem Untouched.accumulates (accumulates : Accumulates relation) :
    Accumulates (Untouched relation) where
  refl now := ⟨rfl, rfl, rfl, (Inflow.Untouched.accumulates accumulates).refl now.inflow⟩
  trans earlier later :=
    { downloader := later.downloader.trans earlier.downloader
      pending := later.pending.trans earlier.pending
      disk := later.disk.trans earlier.disk
      inflow := (Inflow.Untouched.accumulates accumulates).trans earlier.inflow later.inflow }

variable [ByteSource κ] (accumulates : Accumulates relation)
  (reads : ByteSource.Respects relation)

include accumulates reads

theorem readInt_untouched :
    Keeps (Untouched relation) (Downloading.receive Wire.readInt : Step κ Int32) :=
  have tolerates := Inflow.Untouched.tolerates accumulates reads
  .within (Wire.readInt_keeps tolerates.accumulates (Inflow.read_keeps tolerates))
    fun _ _ heard => ⟨rfl, rfl, rfl, heard⟩

/-- Without a root no reply is begun. -/
theorem begin_untouched (unopened : task.root = none) (index : Int) :
    Keeps (Untouched relation) (begin index task : Step κ ArrivingFile) fun _ => False := by
  have trans := Untouched.accumulates accumulates
  have ints := readInt_untouched accumulates reads
  have refused (root : Location) : task.destination ≠ .ok root := by
    unfold Task.destination
    rw [unopened]
    nofun
  refine .bind trans (.ofExcept trans fun _ _ => trivial) fun found _ => ?_
  refine .bind trans ints fun _ _ => .bind trans ints fun _ _ => .bind trans ints fun _ _ => ?_
  refine .bind trans ints fun _ _ => .cond (.throw trans) ?_
  exact .bind trans (.ofExcept trans refused) fun _ => False.elim

theorem startNext_untouched (unopened : task.root = none) :
    Keeps (Untouched relation) (startNext task : Step κ DownloadOutcome) := by
  have trans := Untouched.accumulates accumulates
  refine .bind trans (readInt_untouched accumulates reads) fun index _ => .cond (.get fun _ => ?_) ?_
  · refine .bind trans (.change fun now => ?_) fun _ _ => .pure trans trivial
    exact ⟨rfl, rfl, rfl, .report accumulates now.inflow Journal.debug_quiet⟩
  · exact .bind trans (begin_untouched accumulates reads unopened _) fun _ => False.elim

theorem advance_untouched {now : Downloading FileCollector ArrivingFile κ}
    (unopened : task.root = none) (idle : now.pending = none) :
    Meets (advance task) now (fun _ after => Untouched relation now after)
      (fun _ after => Untouched relation now after) := by
  refine Meets.get ?_
  rw [idle]
  exact (startNext_untouched accumulates reads unopened).meets now

end FileCollector

end TreeSync

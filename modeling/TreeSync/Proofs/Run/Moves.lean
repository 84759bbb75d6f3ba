import TreeSync.Proofs.Run.Visits
import TreeSync.Proofs.Transfer.Collecting

namespace TreeSync

/-! How an exchange of whole files moves.

Only the roles touch the disk and the file in progress. `Moves` says how, whichever
step is taken, and `Sound` is what the downloader needs to find in its next step.
-/

open TreeSync.Action FileCollector

/-- A file in progress for an entry of the list, with its temporary file beside the place
of that entry. -/
structure ArrivingFile.Belongs (arriving : ArrivingFile) (task : Task) (tree : Tree)
    (root : Location) (entry : ListEntry) : Prop where
  stands : arriving.Stands tree
  opened : task.root = some root
  listed : task.files[arriving.index]? = some entry
  kind : entry.isRegular = true
  seats : tree.Seats root entry.path arriving.temporary.directory arriving.name

namespace Exchange

variable {κ : Type} [Connection κ]

abbrev WholeFiles (κ : Type) : Type :=
  Exchange FileRequester FileCollector ArrivingFile κ

/-- What one step may do to the file in progress, the downloader and the disk. -/
inductive Moves (task : Task) (before after : WholeFiles κ) : Prop
  | prepared (pending : after.pending = before.pending)
      (downloader : after.downloader = before.downloader)
      (prepares : task.Prepares before.disk after.disk)
  | collected {outcome : DownloadOutcome}
      (collects : Collects task before.lendDownload after.lendDownload outcome)
  | lost (loses : Loses task before.lendDownload after.lendDownload)

def Sound (task : Task) (now : WholeFiles κ) : Prop :=
  ∀ arriving, now.pending = some arriving →
    ∃ root entry, arriving.Belongs task now.disk.tree root entry

variable {task : Task} {first now after : WholeFiles κ}

def SameWork (before after : WholeFiles κ) : Prop :=
  after.pending = before.pending ∧ after.downloader = before.downloader ∧ after.disk = before.disk

omit [Connection κ] in
theorem SameWork.accumulates : Accumulates (SameWork (κ := κ)) where
  refl _ := ⟨rfl, rfl, rfl⟩
  trans earlier later :=
    ⟨later.1.trans earlier.1, later.2.1.trans earlier.2.1, later.2.2.trans earlier.2.2⟩

omit [Connection κ] in
theorem SameWork.prepares {before after : WholeFiles κ} (same : SameWork before after) :
    after.pending = before.pending ∧ after.downloader = before.downloader ∧
      task.Prepares before.disk after.disk := by
  obtain ⟨pending, downloader, disk⟩ := same
  exact ⟨pending, downloader, disk ▸ .nothing⟩

omit [Connection κ] in
theorem note_keeps {ε : Type} (step : ExchangeStep) :
    Keeps SameWork (note step : EStateM ε (WholeFiles κ) Unit) :=
  .change fun _ => ⟨rfl, rfl, rfl⟩

omit [Connection κ] in
theorem within_keeps {ε α τ : Type} {part : WholeFiles κ → τ}
    {replace : τ → WholeFiles κ → WholeFiles κ} (step : EStateM ε τ α)
    (apart : ∀ inside exchange, SameWork exchange (replace inside exchange)) :
    Keeps SameWork (within part replace step) := by
  intro before
  refine Meets.within (Meets.intro ?_ ?_)
  · exact fun _ after _ => ⟨apart after before, trivial⟩
  · exact fun _ after _ => apart after before

theorem wait_keeps : Keeps SameWork (wait : Step FileRequester FileCollector ArrivingFile κ _) := by
  refine .get fun exchange => .bind SameWork.accumulates (note_keeps _) fun _ _ => ?_
  refine .bind SameWork.accumulates
    (.explaining (within_keeps _ fun _ _ => ⟨rfl, rfl, rfl⟩)) fun signals _ => .get fun woken => ?_
  split
  · exact .throw SameWork.accumulates
  · refine .bind SameWork.accumulates (.change fun _ => ⟨rfl, rfl, rfl⟩) fun _ _ => ?_
    exact .bind SameWork.accumulates (note_keeps _) fun _ _ => .pure SameWork.accumulates trivial

theorem contentWaits_keeps :
    Keeps SameWork (contentWaits : Step FileRequester FileCollector ArrivingFile κ _) := by
  refine .get fun exchange => ?_
  split
  · refine .bind SameWork.accumulates
      (.explaining (within_keeps _ fun _ _ => ⟨rfl, rfl, rfl⟩)) fun _ _ => .get fun flushed => ?_
    exact .bind SameWork.accumulates (note_keeps _) fun _ _ => .pure SameWork.accumulates trivial
  · exact .pure SameWork.accumulates trivial

theorem advanceUploader_meets (now : WholeFiles κ) :
    Meets (advanceUploader task) now
      (fun _ after => after.pending = now.pending ∧ after.downloader = now.downloader ∧
        task.Prepares now.disk after.disk)
      (fun _ after => after.pending = now.pending ∧ after.downloader = now.downloader ∧
        task.Prepares now.disk after.disk) := by
  have uploads := FileRequester.advance_prepares task now.lendUpload
  refine advanceUploader_lent (uploads.mono ?_ ?_) (fun _ _ => id) fun _ _ _ => id
  · exact fun _ _ prepared => ⟨rfl, rfl, prepared⟩
  · exact fun _ _ prepared => ⟨rfl, rfl, prepared⟩

theorem advanceDownloader_meets (sound : Sound task now) :
    Meets (advanceDownloader task) now
      (fun outcome after => Collects task now.lendDownload after.lendDownload outcome)
      (fun _ after => Loses task now.lendDownload after.lendDownload) := by
  have stands (arriving : ArrivingFile) (held : now.lendDownload.pending = some arriving) :
      arriving.Stands now.lendDownload.disk.tree := by
    obtain ⟨root, entry, belongs⟩ := sound arriving held
    exact belongs.stands
  exact advanceDownloader_lent (FileCollector.advance_meets task stands) (fun _ _ _ => id)
    fun _ _ _ => id

theorem Attends.prepares (attends : Attends task now after) :
    after.pending = now.pending ∧ after.downloader = now.downloader ∧
      task.Prepares now.disk after.disk := by
  cases attends with
  | waited done => exact ((wait_keeps now).of_ok done).1.prepares
  | uploaded done => exact (advanceUploader_meets now).of_ok done
  | flushed done => exact ((contentWaits_keeps now).of_ok done).1.prepares

theorem Attends.moves (attends : Attends task now after) : Moves task now after := by
  obtain ⟨pending, downloader, prepares⟩ := attends.prepares
  exact .prepared pending downloader prepares

theorem Closes.effect (sound : Sound task now) (closes : Closes task now after) :
    (after.pending = now.pending ∧ after.downloader = now.downloader ∧
      task.Prepares now.disk after.disk) ∨
    Loses task now.lendDownload after.lendDownload ∨
    Collects task now.lendDownload after.lendDownload .complete := by
  cases closes with
  | waiting failed => exact .inl ((wait_keeps now).of_error failed).prepares
  | uploading failed => exact .inl ((advanceUploader_meets now).of_error failed)
  | flushing failed => exact .inl ((contentWaits_keeps now).of_error failed).prepares
  | downloading failed => exact .inr (.inl ((advanceDownloader_meets sound).of_error failed))
  | completed done => exact .inr (.inr ((advanceDownloader_meets sound).of_ok done))

theorem Closes.moves (sound : Sound task now) (closes : Closes task now after) :
    Moves task now after := by
  rcases closes.effect sound with attended | loses | collects
  · obtain ⟨pending, downloader, prepares⟩ := attended
    exact .prepared pending downloader prepares
  · exact .lost loses
  · exact .collected collects

/-- What every move preserves holds at every moment. -/
theorem Advances.invariant (holds : WholeFiles κ → Prop) (advanced : Advances task first now)
    (start : holds first) (sound : ∀ now, holds now → Sound task now)
    (kept : ∀ before after, holds before → Moves task before after → holds after) : holds now := by
  induction advanced with
  | start => exact start
  | attended _ attends ih => exact kept _ _ ih attends.moves
  | downloaded _ done ih =>
      exact kept _ _ ih (.collected ((advanceDownloader_meets (sound _ ih)).of_ok done))

theorem Visits.invariant (holds : WholeFiles κ → Prop) (visited : Visits task first now)
    (start : holds first) (sound : ∀ now, holds now → Sound task now)
    (kept : ∀ before after, holds before → Moves task before after → holds after) : holds now := by
  rcases visited with advanced | closed
  · exact advanced.invariant holds start sound kept
  · obtain ⟨before, advanced, closes⟩ := closed
    have held := advanced.invariant holds start sound kept
    exact kept before now held (closes.moves (sound before held))

end Exchange

end TreeSync

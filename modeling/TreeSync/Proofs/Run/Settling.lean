import TreeSync.Proofs.Destination.Owing
import TreeSync.Proofs.Run.Clearing
import TreeSync.Proofs.Run.Upkeep
import TreeSync.Proofs.Transfer.Marking

namespace TreeSync

/-! How a run settles what it owes to directories.

Every directory that the uploader made is owed its permissions. So a run fixes at least as
many as it made, and no more unless permissions are preserved.
-/

open TreeSync.Action

namespace Exchange

variable {ε α δ γ κ : Type} {files : List ListEntry} {task : Task}

/-- A step after which the marks still fit the list. -/
abbrev KeepsFit (files : List ListEntry) (step : EStateM ε (Exchange FileRequester δ γ κ) α) :
    Prop :=
  Keeps (fun before after => before.newDirectories.Fits files → after.newDirectories.Fits files) step

theorem fitting : Accumulates fun before after : Exchange FileRequester δ γ κ =>
    before.newDirectories.Fits files → after.newDirectories.Fits files :=
  ⟨fun _ => id, fun earlier later fits => later (earlier fits)⟩

theorem note_fits (step : ExchangeStep) :
    KeepsFit files (note step : EStateM ε (Exchange FileRequester δ γ κ) Unit) :=
  .change fun _ => id

variable [Connection κ]

theorem wait_fits : KeepsFit files (wait : Step FileRequester δ γ κ Readiness) := by
  refine .get fun exchange => .bind fitting (note_fits _) fun _ _ => ?_
  refine .bind fitting (.explaining (.aside fun _ _ => id)) fun signals _ => .get fun woken => ?_
  split
  · exact .throw fitting
  · refine .bind fitting (.change fun _ => id) fun _ _ => ?_
    exact .bind fitting (note_fits _) fun _ _ => .pure fitting trivial

theorem contentWaits_fits : KeepsFit files (contentWaits : Step FileRequester δ γ κ Bool) := by
  refine .get fun exchange => .cond ?_ (.pure fitting trivial)
  refine .bind fitting (.explaining (.aside fun _ _ => id)) fun _ _ => .get fun flushed => ?_
  exact .bind fitting (note_fits _) fun _ _ => .pure fitting trivial

theorem advanceUploader_fits (task : Task) :
    KeepsFit task.files (advanceUploader task : Step FileRequester δ γ κ Unit) := by
  refine .bind fitting (.attempt (.within (FileRequester.advance_fits task) fun _ _ => id)) ?_
  rintro (fault | _) _
  · exact .bind fitting (note_fits _) fun _ _ => .throw fitting
  · exact note_fits _

variable [Downloader δ γ] {first : Exchange FileRequester δ γ κ}

theorem advanceDownloader_fits (task : Task) :
    KeepsFit files (advanceDownloader task : Step FileRequester δ γ κ DownloadOutcome) := by
  refine .bind fitting (.attempt (.aside fun _ _ => id)) ?_
  rintro (fault | outcome) _
  · exact .bind fitting (note_fits _) fun _ _ => .throw fitting
  · exact .bind fitting (note_fits _) fun _ _ => .pure fitting trivial

theorem run_fits (patience : Nat) (begins : first.newDirectories.Fits task.files) :
    Meets (run task patience) first (fun _ after => after.newDirectories.Fits task.files)
      fun _ _ => True := by
  refine (run_meets patience).mono ?_ fun _ _ _ => trivial
  rintro _ _ ⟨before, last, advanced, completes, rfl⟩
  have visited := advanced.closed (.completed completes.done)
  have fits : last.newDirectories.Fits task.files :=
    visited.maintained (·.newDirectories.Fits task.files) begins (fun now => wait_fits.after now)
      (fun now => (advanceUploader_fits task).after now) (fun now => contentWaits_fits.after now)
      fun now => (advanceDownloader_fits task).after now
  unfold abandonPending
  split <;> exact fits

end Exchange

namespace Running

open Destination KeeperCall

/-- Whatever is new is owed permissions, and nothing else is unless they are preserved. -/
theorem count_le_credit {options : FixupOptions} {files : List ListEntry} {marks : NewDirectories}
    (fits : marks.Fits files) (recursive : options.recursive = true) :
    marks.count ≤ (credit (owed options files marks) {}).permissions ∧
      (options.preservePermissions = false →
        (credit (owed options files marks) {}).permissions = marks.count) := by
  have counted : (credit (owed options files marks) {}).permissions =
      files.zipIdx.countP fun item =>
        item.1.isDirectory && (marks.isNew item.2 || options.preservePermissions) :=
    (Nat.zero_add _).trans (countP_owed recursive files marks)
  rw [counted, fits.count]
  constructor
  · refine List.countP_mono_left fun item _ new => ?_
    obtain ⟨directory, marked⟩ := (Bool.and_eq_true _ _).mp new
    simp [directory, marked]
  · intro kept
    simp [kept]

variable {δ γ ς κ : Type} [Connection κ] {root : Path} {task : Task}
  {now start : Running FileRequester δ ς κ}

theorem exchange_fits [Downloader δ γ] :
    Meets (exchange task) now
      (fun ended after => ended.2.Fits task.files ∧ after.endpoint.options = now.endpoint.options)
      fun _ _ => True := by
  refine Meets.get (Meets.within ?_)
  refine (Exchange.run_fits _ (.none task.files)).bind fun phase after fits => ?_
  exact Meets.get (Meets.pure ⟨fits, rfl⟩)

theorem conclude_fixesUp {place : Location} (files : List ListEntry) (removals : Removals)
    (phase : Phase) (marks : NewDirectories) :
    Meets (conclude root (some place) files removals phase marks) now
      (fun outcome _ => outcome.newDirectories = marks.count ∧
        outcome.fixups = credit (owed now.endpoint.options.fixups files marks) {})
      fun _ _ => True := by
  have fixes (now : Running FileRequester δ ς κ) : Meets (fixUp (some place) files marks) now
      (fun fixups _ => fixups = credit (owed now.endpoint.options.fixups files marks) {})
      fun _ _ => True := by
    refine options_then (Meets.within ((fixUp_makes _ files marks _).mono ?_ fun _ _ _ => trivial))
    exact fun _ _ => And.right
  refine Meets.changeThen ((fixes _).bind fun fixups fixed settled => ?_)
  refine (Meets.ran (agreeOnEnd phase)).followedBy (fun _ _ _ => trivial) fun _ _ _ => ?_
  refine (Meets.ran receiveTotals).followedBy (fun _ _ _ => trivial) fun _ _ _ => ?_
  refine (Meets.ran (send "goodbye" _)).followedBy (fun _ _ _ => trivial) fun _ _ _ => ?_
  exact Meets.changeThen (Meets.pure ⟨rfl, settled⟩)

/-- What a run with its root open reports of the directories it made and fixed up. -/
theorem finishing_fixesUp [Downloader δ γ] {place : Location} (opened : task.root = some place)
    (removals : Removals) :
    Meets (finishing root task removals) now
      (fun outcome _ => ∃ marks : NewDirectories, marks.Fits task.files ∧
        outcome.newDirectories = marks.count ∧
        outcome.fixups = credit (owed now.endpoint.options.fixups task.files marks) {})
      fun _ _ => True := by
  refine exchange_fits.bind fun ended after met => ?_
  obtain ⟨phase, marks⟩ := ended
  obtain ⟨fits, same⟩ := met
  rw [← same, opened]
  exact (conclude_fixesUp task.files removals phase marks).mono
    (fun _ _ settled => ⟨marks, fits, settled⟩) fun _ _ => id

/-- Fixing up performs just what the directories of a list are owed, in order and up to the
first refusal. And a run that ends well has given permissions to all directories that it made,
and to no others unless it is to preserve permissions. -/
theorem run_fixesUp {μ : Type} [DirectoryKeeper μ] (options : FixupOptions)
    (files : List ListEntry) (marks : NewDirectories) (keeper : μ) (journal : Journal) :
    Meets (Destination.fixUp options files marks) (⟨keeper, journal⟩ : Fixing μ)
      (fun done after => Granted keeper (owed options files marks) after.keeper ∧
        done.times = (owed options files marks).countP (·.isTime) ∧
        done.permissions = (owed options files marks).countP (!·.isTime))
      (fun failure after => Refused keeper (owed options files marks) failure after.keeper) ∧
    Meets (Destination.fixUp options files marks) (⟨⟨keeper, []⟩, journal⟩ : Fixing (Watched μ))
      (fun _ after => after.keeper.log = (owed options files marks).map (·, none))
      (fun failure after => ∃ issued call rest fault,
        owed options files marks = issued ++ call :: rest ∧
        after.keeper.log = issued.map (·, none) ++ [(call, some fault)] ∧
        failure = call.refusal fault) ∧
    ∀ {δ γ ς κ : Type} [Connection κ] [Downloader δ γ] [Sandbox ς] {root : Path}
      {start final : Running FileRequester δ ς κ} {outcome : Outcome},
      start.endpoint.options.recursive = true → start.endpoint.options.dryRun = false →
      run root start = .ok outcome final →
      outcome.newDirectories ≤ outcome.fixups.permissions ∧
        (start.endpoint.options.preservePermissions = false →
          outcome.fixups.permissions = outcome.newDirectories) := by
  refine ⟨(fixUp_makes options files marks _).mono ?_ fun _ _ => id,
    fixUp_watched options files marks keeper journal, ?_⟩
  · rintro _ after ⟨granted, rfl⟩
    exact ⟨granted, Nat.zero_add _, Nat.zero_add _⟩
  intro δ γ ς κ _ _ _ root start final outcome recursive acts ran
  rcases run_ok_cases ran with ⟨-, rfl⟩ | ⟨task, opened, opens, ended⟩
  · exact ⟨Nat.le_refl _, fun _ => rfl⟩
  obtain ⟨after, filled, rfl⟩ := ensuring_ok ended
  obtain ⟨removals, ready, clears, -⟩ := of_bind_ok filled
  obtain ⟨prepared, listed, reached, -⟩ := opening_ok opens
  have prepares : (prepared.withUmask 0).endpoint.options = start.endpoint.options :=
    ((prepare_proceeds root).of_ok listed).options
  have opensRoot : Keeps (Proceeds fun _ _ => False)
      (openRoot root : Step FileRequester δ ς κ (Option Location)) := openRoot_proceeds root
  have readies := (makeReady_spares .any root task.root task.files).of_ok clears
  have same : ready.endpoint.options = start.endpoint.options :=
    readies.options.trans ((opensRoot.of_ok reached).options.trans prepares)
  have dry : (prepared.withUmask 0).endpoint.options.dryRun = false :=
    (congrArg Options.dryRun prepares).trans acts
  obtain ⟨place, open', -⟩ := (openRoot_opens dry).of_ok reached
  let checked : Task := { task with checksum := ready.endpoint.options.checksum }
  have rooted : checked.root = some place := open'
  obtain ⟨marks, fits, made, fixed⟩ := (finishing_fixesUp rooted removals).of_ok
    ((fill_of_makeReady clears).symm.trans filled)
  rw [made, fixed, same]
  exact count_le_credit fits recursive

/-- A directory that is not there and one that is. -/
def twoDirectories : List ListEntry :=
  [⟨⟨[97]⟩, 0o40700, 7, 0⟩, ⟨⟨[98]⟩, 0o40700, 7, 0⟩]

def growingPeer : StagedConnection :=
  .start [⟨0, (FileList.write twoDirectories).bytes ++ Wire.intBytes 0⟩,
    ⟨4, Wire.intBytes Wire.doneIndex ++ Wire.intBytes Wire.doneIndex⟩] .half none

def growing : Running FileRequester FileCollector StrictSandbox StagedConnection :=
  .start (.wholeFiles { server := true, recursive := true, preserveTimes := true } {} 0) growingPeer
    { tree := (Tree.empty.set [] (.directory ⟨0o755, 0⟩)).set [[98]] (.directory ⟨0o755, 0⟩) }

theorem run_fixesUp_growing :
    ∃ outcome final, run ⟨selfName⟩ growing = .ok outcome final ∧ outcome.newDirectories = 1 ∧
      outcome.fixups.permissions = outcome.newDirectories := by
  have ends : endsIn (run ⟨selfName⟩ growing) (fun outcome _ =>
      decide (outcome.newDirectories = 1)) = true := by
    decide +kernel
  obtain ⟨outcome, final, ran, seen⟩ := of_endsIn ends
  obtain ⟨-, -, settles⟩ := run_fixesUp {} twoDirectories ⟨[]⟩ ({} : RecordingKeeper) {}
  exact ⟨outcome, final, ran, of_decide_eq_true seen, (settles rfl rfl ran).2 rfl⟩

end Running

end TreeSync

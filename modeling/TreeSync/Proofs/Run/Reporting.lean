import TreeSync.Proofs.Destination.Reporting
import TreeSync.Proofs.Run.Course
import TreeSync.Proofs.Transfer.Accounts
import TreeSync.Proofs.Transfer.Reporting
import TreeSync.Rehearsal.StagedConnection

namespace TreeSync

/-! How much a run reports changes nothing else that it does.

Two runs that differ only in their count of verbosity switches end alike, and leave the same
connection, disk and parts behind; the one with fewer switches keeps some of the reports that
the other keeps, in the same order.
-/

open TreeSync.Action Journaled

namespace Exchange

variable {ε α υ δ γ κ : Type}

instance : Journaled (Exchange υ δ γ κ) where
  journal exchange := exchange.inflow.journal
  reporting exchange journal := { exchange with inflow := { exchange.inflow with journal } }

theorem note_mirrors (step : ExchangeStep) :
    Mirrors Muted (note step : EStateM ε (Exchange υ δ γ κ) Unit) (note step) :=
  change_mirrors (fun _ _ => rfl) fun _ => rfl

theorem checkComplete_mirrors (task : Task) :
    Mirrors Muted (checkComplete task : Step υ δ γ κ Phase) (checkComplete task) := by
  refine .get ?_
  rintro now _ ⟨full, -, rfl⟩
  refine .cond (.refuse _) (.cond (.refuse _) ?_)
  cases Phase.collecting.after .downloadComplete with
  | ok phase => exact .pure phase
  | error refused => exact .throw _

variable [Connection κ]

theorem wait_mirrors : Mirrors Muted (wait : Step υ δ γ κ Readiness) wait := by
  refine .get ?_
  rintro now _ ⟨full, -, rfl⟩
  refine .bind (note_mirrors _) fun _ => .bind (.explaining ?_) fun signals => .get ?_
  · refine (Mirrors.same _).within ?_ ?_
    · rintro now _ ⟨full, -, rfl⟩
      rfl
    · rintro now _ source _ ⟨full, terser, rfl⟩ rfl
      exact ⟨full, terser, rfl⟩
  · rintro now _ ⟨full, terser, rfl⟩
    obtain ⟨inbound, secondary⟩ := signals
    simp only [reporting, Journal.wakeUp]
    cases Readiness.ofSignals inbound secondary with
    | error violation => exact .throw _
    | ok readiness =>
        refine .bind (.change ?_) fun _ => .bind (note_mirrors _) fun _ => .pure readiness
        rintro now _ ⟨_, _, rfl⟩
        exact ⟨_, terser.debug _ _ _, rfl⟩

theorem contentWaits_mirrors : Mirrors Muted (contentWaits : Step υ δ γ κ Bool) contentWaits := by
  refine .get ?_
  rintro now _ ⟨full, -, rfl⟩
  refine .cond (.bind (.explaining ?_) fun _ => .get ?_) (.pure true)
  · refine Inflow.overlooks_reports.flush.within ?_ ?_
    · rintro now _ ⟨full, terser, rfl⟩
      exact ⟨full, terser, rfl⟩
    · rintro now _ inflow _ ⟨_, _, rfl⟩ ⟨full, terser, rfl⟩
      exact ⟨full, terser, rfl⟩
  · rintro now _ ⟨full, -, rfl⟩
    exact .bind (note_mirrors _) fun _ => .pure _

variable [Uploader υ] [Downloader δ γ]

/-- Roles whose steps do the same however much they report. -/
structure Impartial (υ δ γ κ : Type) [Connection κ] [Uploader υ] [Downloader δ γ] : Prop where
  uploads : ∀ task, Mirrors Muted (Uploader.advance task : EStateM Fault (Uploading υ κ) Unit)
    (Uploader.advance task)
  downloads : ∀ task,
    Mirrors Muted (Downloader.advance task : EStateM Fault (Downloading δ γ κ) DownloadOutcome)
      (Downloader.advance task)

variable (impartial : Impartial υ δ γ κ)

include impartial

theorem advanceUploader_mirrors (task : Task) :
    Mirrors Muted (advanceUploader task : Step υ δ γ κ Unit) (advanceUploader task) := by
  refine .bind (.attempt ((impartial.uploads task).within ?_ ?_)) fun ended => ?_
  · rintro now _ ⟨full, terser, rfl⟩
    exact ⟨full, terser, rfl⟩
  · rintro now _ uploading _ ⟨_, _, rfl⟩ ⟨full, terser, rfl⟩
    exact ⟨full, terser, rfl⟩
  · cases ended with
    | ok => exact note_mirrors _
    | error fault => exact .bind (note_mirrors _) fun _ => .throw _

theorem advanceDownloader_mirrors (task : Task) :
    Mirrors Muted (advanceDownloader task : Step υ δ γ κ DownloadOutcome)
      (advanceDownloader task) := by
  refine .bind (.attempt ((impartial.downloads task).within ?_ ?_)) fun ended => ?_
  · rintro now _ ⟨full, terser, rfl⟩
    exact ⟨full, terser, rfl⟩
  · rintro now _ downloading _ ⟨_, _, rfl⟩ ⟨full, terser, rfl⟩
    exact ⟨full, terser, rfl⟩
  · cases ended with
    | ok outcome => exact .bind (note_mirrors _) fun _ => .pure outcome
    | error fault => exact .bind (note_mirrors _) fun _ => .throw _

theorem round_mirrors (task : Task) :
    Mirrors Muted (round task : Step υ δ γ κ (Option Phase)) (round task) := by
  have takes (readiness : Readiness) :
      Mirrors Muted (takeWaiting task readiness : Step υ δ γ κ (Option Phase))
        (takeWaiting task readiness) := by
    refine .cond (.pure none) (.bind contentWaits_mirrors fun waits => .cond (.pure none) ?_)
    refine .bind (advanceDownloader_mirrors impartial task) fun outcome => ?_
    cases outcome with
    | ongoing => exact .pure none
    | complete => exact .bind (checkComplete_mirrors task) fun phase => .pure (some phase)
  refine .bind wait_mirrors fun readiness => .get ?_
  rintro now _ ⟨full, -, rfl⟩
  refine .cond ?_ (takes readiness)
  exact .bind (advanceUploader_mirrors impartial task) fun _ => takes readiness

theorem roundsUpTo_mirrors (task : Task) (limit left : Nat) :
    Mirrors Muted (roundsUpTo task limit left : Step υ δ γ κ Phase) (roundsUpTo task limit left) := by
  induction left with
  | zero => exact .throw _
  | succ left ih =>
      refine .bind (round_mirrors impartial task) fun ended => ?_
      cases ended with
      | some phase => exact .pure phase
      | none => exact ih

theorem run_mirrors (task : Task) (patience : Nat) :
    Mirrors Muted (run task patience : Step υ δ γ κ Phase) (run task patience) := by
  refine .get ?_
  rintro now _ ⟨full, -, rfl⟩
  refine (roundsUpTo_mirrors impartial task _ _).ensuring ?_
  rintro now _ ⟨full, terser, rfl⟩
  obtain ⟨uploader, downloader, cursor, secondary, newDirectories, pending, inflow, disk, steps⟩ := now
  cases pending with
  | none => exact ⟨full, terser, rfl⟩
  | some file => exact ⟨full, terser, rfl⟩

end Exchange

instance {ς : Type} : Journaled (Confining ς) :=
  ⟨Confining.journal, fun confining journal => { confining with journal }⟩

/-- A sandbox whose steps do the same however much they report. -/
structure Sandbox.Impartial (ς : Type) [Sandbox ς] : Prop where
  restricts : ∀ capabilities, Mirrors Muted (restrict capabilities : EStateM Fault (Confining ς) Unit)
    (restrict capabilities)
  confines : ∀ root, Mirrors Muted (confine root : EStateM Fault (Confining ς) Unit) (confine root)

theorem StrictSandbox.impartial : Sandbox.Impartial StrictSandbox where
  restricts capabilities := by
    change Mirrors Muted (StrictSandbox.restrict capabilities) (StrictSandbox.restrict capabilities)
    refine .get ?_
    rintro now _ ⟨full, -, rfl⟩
    refine .cond (.refuse _) (.change ?_)
    rintro now _ ⟨full, terser, rfl⟩
    exact ⟨_, terser.debug _ _ _, rfl⟩
  confines root := by
    change Mirrors Muted (StrictSandbox.confine root) (StrictSandbox.confine root)
    refine .get ?_
    rintro now _ ⟨full, -, rfl⟩
    refine .cond (.refuse _) (.change ?_)
    rintro now _ ⟨full, terser, rfl⟩
    exact ⟨_, terser.debug _ _ _, rfl⟩

theorem Exchange.wholeFiles_impartial {κ : Type} [Connection κ] :
    Impartial FileRequester FileCollector ArrivingFile κ where
  uploads := FileRequester.advance_mirrors
  downloads := FileCollector.advance_mirrors

namespace Running

variable {ε α υ δ γ ς κ : Type}

/-- The run as it would stand with another count of verbosity switches, and with the journal
kept under it. -/
def speaking (running : Running υ δ ς κ) (verbosity : UInt8) (journal : Journal) :
    Running υ δ ς κ :=
  let endpoint := running.endpoint
  { running with
    endpoint := { endpoint with options := { endpoint.options with verbosity } }
    inflow := { running.inflow with journal } }

/-- Runs that are the same but for how much they report, the first of which reports less. -/
def Hushed (now there : Running υ δ ς κ) : Prop :=
  now.endpoint.prune = Destination.pruneAll ∧
    ∃ verbosity full, now.inflow.journal.Terser full ∧ there = now.speaking verbosity full

/-- Runs that have done the same work: what was read and written, what became of the disk,
and what the parts of the run know in the end. -/
structure SameWork (now there : Running υ δ ς κ) : Prop where
  connection : now.inflow.source = there.inflow.source
  disk : now.disk = there.disk
  steps : now.steps = there.steps
  uploader : now.endpoint.uploader = there.endpoint.uploader
  downloader : now.endpoint.downloader = there.endpoint.downloader
  sandbox : now.endpoint.sandbox = there.endpoint.sandbox

theorem Hushed.sameWork {now there : Running υ δ ς κ} (hushed : Hushed now there) :
    SameWork now there := by
  obtain ⟨-, verbosity, full, -, rfl⟩ := hushed
  exact ⟨rfl, rfl, rfl, rfl, rfl, rfl⟩

theorem Hushed.events {now there : Running υ δ ς κ} (hushed : Hushed now there) :
    now.inflow.journal.events.Sublist there.inflow.journal.events := by
  obtain ⟨-, verbosity, full, terser, rfl⟩ := hushed
  exact terser.events

theorem SameWork.symm {now there : Running υ δ ς κ} (same : SameWork now there) :
    SameWork there now :=
  ⟨same.connection.symm, same.disk.symm, same.steps.symm, same.uploader.symm,
    same.downloader.symm, same.sandbox.symm⟩

theorem options_mirrors {rest others : Options → Step υ δ ς κ α}
    (next : ∀ options verbosity, Mirrors Hushed (rest options) (others { options with verbosity })) :
    Mirrors Hushed (options >>= rest) (options >>= others) := by
  rintro now _ ⟨prunes, verbosity, full, terser, rfl⟩
  exact next now.endpoint.options verbosity now _ ⟨prunes, verbosity, full, terser, rfl⟩

theorem info_mirrors (flag : InfoFlag) (level : UInt8) (message : String) :
    Mirrors Hushed (info flag level message : Step υ δ ς κ Unit) (info flag level message) := by
  refine .change ?_
  rintro now _ ⟨prunes, verbosity, full, terser, rfl⟩
  exact ⟨prunes, verbosity, _, terser.info flag level message, rfl⟩

theorem debug_mirrors (flag : DebugFlag) (level : UInt8) (message : String) :
    Mirrors Hushed (debug flag level message : Step υ δ ς κ Unit) (debug flag level message) := by
  refine .change ?_
  rintro now _ ⟨prunes, verbosity, full, terser, rfl⟩
  exact ⟨prunes, verbosity, _, terser.debug flag level message, rfl⟩

theorem warn_mirrors (message : String) :
    Mirrors Hushed (warn message : Step υ δ ς κ Unit) (warn message) := by
  refine .change ?_
  rintro now _ ⟨prunes, verbosity, full, terser, rfl⟩
  exact ⟨prunes, verbosity, _, terser.warn message, rfl⟩

theorem onHost_mirrors {step : EStateM ε Host α} (inner : Mirrors Muted step step) :
    Mirrors Hushed (onHost step : EStateM ε (Running υ δ ς κ) α) (onHost step) := by
  refine inner.within ?_ ?_
  · rintro now _ ⟨_, _, full, terser, rfl⟩
    exact ⟨full, terser, rfl⟩
  · rintro now _ host _ ⟨prunes, verbosity, _, _, rfl⟩ ⟨full, terser, rfl⟩
    exact ⟨prunes, verbosity, full, terser, rfl⟩

theorem onRoot_mirrors (step : String) (root : Path) (action : EStateM Fault Disk α) :
    Mirrors Hushed (onRoot step root action : Step υ δ ς κ α) (onRoot step root action) :=
  .explaining (onHost_mirrors (Host.onDisk_mirrors action))

theorem onSandbox_mirrors (step : String) (root : Path)
    {action : EStateM Fault (Confining ς) Unit} (inner : Mirrors Muted action action) :
    Mirrors Hushed (onSandbox step root action : Step υ δ ς κ Unit) (onSandbox step root action) := by
  refine .explaining (inner.within ?_ ?_)
  · rintro now _ ⟨_, _, full, terser, rfl⟩
    exact ⟨full, terser, rfl⟩
  · rintro now _ confining _ ⟨prunes, verbosity, _, _, rfl⟩ ⟨full, terser, rfl⟩
    exact ⟨prunes, verbosity, full, terser, rfl⟩

theorem send_mirrors [ByteSink κ] (step : String) (emission : Emission) :
    Mirrors Hushed (send step emission : Step υ δ ς κ Unit) (send step emission) := by
  refine .explaining ((Mirrors.same emission.send).within ?_ ?_)
  · rintro now _ ⟨_, _, full, _, rfl⟩
    rfl
  · rintro now _ source _ ⟨prunes, verbosity, full, terser, rfl⟩ rfl
    exact ⟨prunes, verbosity, full, terser, rfl⟩

theorem receive_mirrors (step : String) {action : EStateM Fault (Inflow κ) α}
    (inner : Mirrors Muted action action) :
    Mirrors Hushed (receive step action : Step υ δ ς κ α) (receive step action) := by
  refine .explaining (inner.within ?_ ?_)
  · rintro now _ ⟨_, _, full, terser, rfl⟩
    exact ⟨full, terser, rfl⟩
  · rintro now _ inflow _ ⟨prunes, verbosity, _, _, rfl⟩ ⟨full, terser, rfl⟩
    exact ⟨prunes, verbosity, full, terser, rfl⟩

theorem receiveList_mirrors [ByteSource κ] :
    Mirrors Hushed (receiveList : Step υ δ ς κ (List ListEntry)) receiveList := by
  refine .bind (receive_mirrors _ ?_) fun files => .bind (receive_mirrors _ ?_) fun integrity => ?_
  · exact FileList.read_mirrors Inflow.overlooks_reports Inflow.debug_muted
  · exact Wire.readInt_mirrors Inflow.answers_muted
  · exact .cond (.refuse _) (.pure files)

theorem clear_mirrors (root : Path) (directory : Option Location) (files : List ListEntry) :
    Mirrors Hushed (clear root directory files : Step υ δ ς κ Removals)
      (clear root directory files) := by
  refine .get ?_
  rintro now _ ⟨prunes, verbosity, full, -, rfl⟩
  refine .cond (.bind (onHost_mirrors (Destination.contents_mirrors root)) fun found => ?_) (.pure _)
  cases directory with
  | none => exact onHost_mirrors (Destination.planRemovals_mirrors found files)
  | some directory =>
      refine onHost_mirrors ?_
      rw [prunes]
      exact Destination.pruneAll_mirrors directory found files

theorem fixUp_mirrors (directory : Option Location) (files : List ListEntry)
    (marks : NewDirectories) :
    Mirrors Hushed (fixUp directory files marks : Step υ δ ς κ Fixups)
      (fixUp directory files marks) := by
  cases directory with
  | none => exact .pure _
  | some root =>
      refine options_mirrors fun options verbosity => ?_
      refine (Destination.fixUp_mirrors options.fixups files marks).within ?_ ?_
      · rintro now _ ⟨_, _, full, terser, rfl⟩
        exact ⟨full, terser, rfl⟩
      · rintro now _ fixing _ ⟨prunes, verbosity, _, _, rfl⟩ ⟨full, terser, rfl⟩
        exact ⟨prunes, verbosity, full, terser, rfl⟩

theorem openRoot_mirrors (root : Path) :
    Mirrors Hushed (openRoot root : Step υ δ ς κ (Option Location)) (openRoot root) :=
  options_mirrors fun _ _ => .cond (.pure none) <|
    .bind (onRoot_mirrors _ root _) fun directory => .pure (some directory)

variable [Connection κ]

theorem agreeOnEnd_mirrors (phase : Phase) :
    Mirrors Hushed (agreeOnEnd phase : Step υ δ ς κ Phase) (agreeOnEnd phase) := by
  refine .bind (send_mirrors _ _) fun _ => ?_
  refine .bind (receive_mirrors _ (Wire.readDone_mirrors Inflow.answers_muted _)) fun _ => ?_
  cases phase.after .peerAcknowledged with
  | error refused => exact .throw _
  | ok next => exact .bind (debug_mirrors _ _ _) fun _ => .pure next

theorem receiveTotals_mirrors :
    Mirrors Hushed (receiveTotals : Step υ δ ς κ (Option Totals)) receiveTotals := by
  refine options_mirrors fun options verbosity => .cond (.pure none) ?_
  refine .bind (receive_mirrors _ (Totals.receive_mirrors Inflow.answers_muted)) fun totals => ?_
  exact .bind (info_mirrors _ _ _) fun _ => .pure (some totals)

theorem conclude_mirrors (root : Path) (directory : Option Location) (files : List ListEntry)
    (removals : Removals) (phase : Phase) (marks : NewDirectories) :
    Mirrors Hushed (conclude root directory files removals phase marks : Step υ δ ς κ Outcome)
      (conclude root directory files removals phase marks) := by
  refine .bind (info_mirrors _ _ _) fun _ => .bind (fixUp_mirrors directory files marks) fun _ => ?_
  refine .bind (agreeOnEnd_mirrors phase) fun _ => .bind receiveTotals_mirrors fun _ => ?_
  exact .bind (send_mirrors _ _) fun _ => .bind (info_mirrors _ _ _) fun _ => .pure _

section

variable [Uploader υ] [Downloader δ γ]

theorem exchange_mirrors (roles : Exchange.Impartial υ δ γ κ) (task : Task) :
    Mirrors Hushed (exchange task : Step υ δ ς κ (Phase × NewDirectories)) (exchange task) := by
  have whole (patience : Nat) : Mirrors Muted
      (Exchange.run task patience >>= fun phase => get >>= fun exchange =>
        pure (phase, exchange.newDirectories) : Exchange.Step υ δ γ κ (Phase × NewDirectories))
      (Exchange.run task patience >>= fun phase => get >>= fun exchange =>
        pure (phase, exchange.newDirectories)) := by
    refine .bind (Exchange.run_mirrors roles task patience) fun phase => .get ?_
    rintro now _ ⟨full, -, rfl⟩
    exact .pure _
  refine .get ?_
  rintro now _ ⟨_, _, _, _, rfl⟩
  refine (whole now.endpoint.patience).within ?_ ?_
  · rintro now _ ⟨_, _, full, terser, rfl⟩
    exact ⟨full, terser, rfl⟩
  · rintro now _ exchange _ ⟨prunes, verbosity, _, _, rfl⟩ ⟨full, terser, rfl⟩
    exact ⟨prunes, verbosity, full, terser, rfl⟩

variable [Sandbox ς] (roles : Exchange.Impartial υ δ γ κ) (sandbox : Sandbox.Impartial ς)

omit [Connection κ] [Uploader υ] [Downloader δ γ] in
include sandbox in
theorem makeReady_mirrors (root : Path) (directory : Option Location) (files : List ListEntry) :
    Mirrors Hushed (makeReady root directory files : Step υ δ ς κ Removals)
      (makeReady root directory files) := by
  refine .bind (clear_mirrors root directory files) fun removals => ?_
  refine .bind (onSandbox_mirrors _ root (sandbox.confines root)) fun _ => ?_
  exact .bind (info_mirrors _ _ _) fun _ => .pure removals

omit [Uploader υ] [Downloader δ γ] in
include sandbox in
theorem prepare_mirrors (root : Path) :
    Mirrors Hushed (prepare root : Step υ δ ς κ (Option (List ListEntry))) (prepare root) := by
  refine options_mirrors fun options verbosity => ?_
  refine .bind (onSandbox_mirrors _ root (sandbox.restricts _)) fun _ => ?_
  refine .optional (send_mirrors _ _) (.bind receiveList_mirrors fun files => ?_)
  refine .cond (.bind (warn_mirrors _) fun _ => .pure none) ?_
  refine .optional (info_mirrors _ _ _) (.bind (info_mirrors _ _ _) fun _ => ?_)
  exact .optional (onRoot_mirrors _ root _) (.pure (some files))

include roles sandbox

theorem transfer_mirrors (root : Path) (files : List ListEntry) (umask : UInt32) :
    Mirrors Hushed (transfer root files umask : Step υ δ ς κ Outcome)
      (transfer root files umask) := by
  refine .bind (openRoot_mirrors root) fun directory => ?_
  refine .bind (makeReady_mirrors sandbox root directory files) fun removals => ?_
  refine options_mirrors fun options verbosity => ?_
  refine .bind (exchange_mirrors roles _) fun ended => ?_
  exact conclude_mirrors root directory files removals ended.1 ended.2

theorem run_mirrors (root : Path) :
    Mirrors Hushed (run root : Step υ δ ς κ Outcome) (run root) := by
  refine .bind (prepare_mirrors sandbox root) fun listed => ?_
  cases listed with
  | none => exact .pure _
  | some files =>
      refine .get ?_
      rintro now _ ⟨_, _, _, _, rfl⟩
      refine .bind (.change ?_) fun _ => (transfer_mirrors roles sandbox root files _).ensuring ?_
      · rintro now _ ⟨prunes, verbosity, full, terser, rfl⟩
        exact ⟨prunes, verbosity, full, terser, rfl⟩
      · rintro now _ ⟨prunes, verbosity, full, terser, rfl⟩
        exact ⟨prunes, verbosity, full, terser, rfl⟩

end

/-- Files received under a count of verbosity switches. -/
def switched {κ : Type} (options : Options) (switches : UInt8) (sandbox : StrictSandbox)
    (patience : Nat) (connection : κ) (disk : Disk) :
    Running FileRequester FileCollector StrictSandbox κ :=
  .start (.wholeFiles { options with verbosity := switches } sandbox patience) connection disk

/-- However many switches are given, a run comes to the same result and does the same work;
with more of them it keeps all the reports it would keep with fewer, in their order. -/
theorem run_verbosity {κ : Type} [Connection κ] (options : Options) (switches switches' : UInt8)
    (sandbox : StrictSandbox) (patience : Nat) (connection : κ) (disk : Disk) (root : Path) :
    Matched
      (fun now there => SameWork now there ∧
        (switches ≤ switches' →
          now.inflow.journal.events.Sublist there.inflow.journal.events))
      (run root (switched options switches sandbox patience connection disk))
      (run root (switched options switches' sandbox patience connection disk)) := by
  have runs {fewer more : UInt8} (fewerLe : fewer ≤ more) :
      Matched Hushed (run root (switched options fewer sandbox patience connection disk))
        (run root (switched options more sandbox patience connection disk)) := by
    refine run_mirrors Exchange.wholeFiles_impartial StrictSandbox.impartial root _ _ ?_
    exact ⟨rfl, more, { verbosity := .ofCount more },
      ⟨Verbosity.ofCount_within fewerLe, .slnil⟩, rfl⟩
  by_cases fewer : switches ≤ switches'
  · exact (runs fewer).mono fun _ _ hushed => ⟨hushed.sameWork, fun _ => hushed.events⟩
  · have more : switches' ≤ switches := (UInt8.le_total switches switches').resolve_left fewer
    exact (runs more).symm.mono fun _ _ hushed =>
      ⟨hushed.sameWork.symm, fun fewer' => absurd fewer' fewer⟩

/-- A directory with a file, and a link that is passed over. -/
def handedFiles : List ListEntry :=
  [⟨⟨[97]⟩, 0o40755, 7, 0⟩, ⟨⟨[97, 47, 98]⟩, 0o100644, 7, 1⟩, ⟨⟨[99]⟩, 0o120777, 7, 0⟩]

/-- A peer that sends the file whole, and nothing else. -/
def handing : StagedConnection :=
  .start [⟨0, (FileList.write handedFiles).bytes ++ Wire.intBytes 0 ++
    Reply.bytes ⟨1, 0, 2, 0, [[120]]⟩ ++ Wire.intBytes Wire.doneIndex ++
    Wire.intBytes Wire.doneIndex⟩] .half none

/-- A run that makes a directory and fetches a file reports only the link without switches, and
far more with all of them. -/
theorem run_verbosity_handing :
    let quiet := switched { server := true, recursive := true } 0 {} 0 handing default
    let loud := switched { server := true, recursive := true } 5 {} 0 handing default
    endsIn (run ⟨[100]⟩ quiet) (fun outcome final => outcome.newDirectories = 1 ∧
      final.endpoint.downloader.received = [1] ∧
      final.inflow.journal.events.length = 1) = true ∧
      endsIn (run ⟨[100]⟩ loud) (fun outcome final => outcome.newDirectories = 1 ∧
        final.endpoint.downloader.received = [1] ∧
        20 ≤ final.inflow.journal.events.length) = true ∧
      (0 : UInt8) ≤ 5 ∧
      Matched
        (fun now there => SameWork now there ∧
          ((0 : UInt8) ≤ 5 → now.inflow.journal.events.Sublist there.inflow.journal.events))
        (run ⟨[100]⟩ quiet) (run ⟨[100]⟩ loud) :=
  ⟨by decide +kernel, by decide +kernel, by decide,
    run_verbosity { server := true, recursive := true } 0 5 {} 0 handing default ⟨[100]⟩⟩

end Running

end TreeSync

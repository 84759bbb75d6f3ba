import TreeSync.Proofs.Destination.Unheard
import TreeSync.Proofs.Run.Distrust
import TreeSync.Proofs.Transfer.DryRun

namespace TreeSync

/-! A dry run changes nothing.

It makes no root and opens none, so it holds nothing that could be changed. It goes through
the exchange all the same, and asks for nothing there. Of the removals it reports what the
removals themselves would report.
-/

open TreeSync.Action

namespace Exchange

variable {κ : Type} {relation : κ → κ → Prop} {task : Task} {first now : WholeFiles κ}

/-- What the steps of a dry run leave alone. -/
structure Untouched (relation : κ → κ → Prop) (before after : WholeFiles κ) : Prop where
  uploader : after.uploader = before.uploader
  downloader : after.downloader = before.downloader
  pending : after.pending = before.pending
  newDirectories : after.newDirectories = before.newDirectories
  disk : after.disk = before.disk
  inflow : before.inflow.Untouched relation after.inflow

theorem Untouched.accumulates (accumulates : Accumulates relation) :
    Accumulates (Untouched relation) where
  refl now := ⟨rfl, rfl, rfl, rfl, rfl, (Inflow.Untouched.accumulates accumulates).refl now.inflow⟩
  trans earlier later :=
    { uploader := later.uploader.trans earlier.uploader
      downloader := later.downloader.trans earlier.downloader
      pending := later.pending.trans earlier.pending
      newDirectories := later.newDirectories.trans earlier.newDirectories
      disk := later.disk.trans earlier.disk
      inflow := (Inflow.Untouched.accumulates accumulates).trans earlier.inflow later.inflow }

theorem note_untouched {ε : Type} (accumulates : Accumulates relation) (step : ExchangeStep) :
    Keeps (Untouched relation) (note step : EStateM ε (WholeFiles κ) Unit) :=
  .change fun now =>
    ⟨rfl, rfl, rfl, rfl, rfl, (Inflow.Untouched.accumulates accumulates).refl now.inflow⟩

variable [Connection κ] (unasking : Connection.Unasking relation)

include unasking

theorem wait_untouched :
    Keeps (Untouched relation) (wait : Step FileRequester FileCollector ArrivingFile κ _) := by
  have accumulates := unasking.accumulates
  have trans := Untouched.accumulates accumulates
  have notes (step : ExchangeStep) :
      Keeps (Untouched relation) (note step : EStateM Failure (WholeFiles κ) Unit) :=
    note_untouched accumulates step
  refine .get fun exchange => .bind trans (notes _) fun _ _ => ?_
  refine .bind trans (.explaining (.within (unasking.polls _ _) ?_)) fun signals _ now => ?_
  · exact fun before _ polled =>
      ⟨rfl, rfl, rfl, rfl, rfl, polled, Journal.Quiet.refl before.inflow.journal⟩
  -- the journal is told of the readiness that the wait came to
  refine Meets.get ?_
  split
  · exact Meets.throw (trans.refl now)
  · next readiness journal woken =>
    have quiet : now.inflow.journal.Quiet journal := by
      unfold Journal.wakeUp at woken
      split at woken <;> cases woken
      exact Journal.debug_quiet
    refine Meets.changeThen ?_
    have told : Untouched relation now { now with inflow := { now.inflow with journal } } :=
      ⟨rfl, rfl, rfl, rfl, rfl, .report accumulates now.inflow quiet⟩
    refine ((notes _).onward trans told).bind fun _ after later => Meets.pure ⟨later, trivial⟩

theorem contentWaits_untouched :
    Keeps (Untouched relation)
      (contentWaits : Step FileRequester FileCollector ArrivingFile κ _) := by
  have accumulates := unasking.accumulates
  have trans := Untouched.accumulates accumulates
  have flushes := Inflow.flush_keeps (Inflow.Untouched.tolerates accumulates unasking.reads)
  refine .get fun exchange => .cond ?_ (.pure trans trivial)
  refine .bind trans (.explaining (.within flushes ?_)) fun _ _ => ?_
  · exact fun _ _ heard => ⟨rfl, rfl, rfl, rfl, rfl, heard⟩
  · exact .get fun flushed => .bind trans (note_untouched accumulates _) fun _ _ =>
      .pure trans trivial

theorem advanceUploader_untouched (dry : now.uploader.dryRun = true) :
    Meets (advanceUploader task) now (fun _ after => Untouched relation now after)
      (fun _ after => Untouched relation now after) := by
  have accumulates := unasking.accumulates
  have trans := Untouched.accumulates accumulates
  have takes {after : Uploading FileRequester κ}
      (spared : FileRequester.Untouched relation now.lendUpload after) :
      Untouched relation now (takeUpload after now) :=
    ⟨spared.uploader, rfl, rfl, spared.newDirectories, spared.disk, spared.connection,
      spared.journal⟩
  have uploads : Meets (within lendUpload takeUpload (Uploader.advance task)) now
      (fun _ after => Untouched relation now after) (fun _ after => Untouched relation now after) := by
    have lent : now.lendUpload.uploader.dryRun = true := dry
    exact Meets.within ((FileRequester.advance_untouched unasking lent).mono
      (fun _ _ => takes) fun _ _ => takes)
  refine Meets.attempt uploads ?_ ?_
  · exact fun _ _ later => (note_untouched accumulates _).onward trans later
  · exact fun _ _ later => ((note_untouched accumulates _).onward trans later).bind
      fun _ _ later => Meets.throw later

theorem advanceDownloader_untouched (unopened : task.root = none) (idle : now.pending = none) :
    Meets (advanceDownloader task) now (fun _ after => Untouched relation now after)
      (fun _ after => Untouched relation now after) := by
  have accumulates := unasking.accumulates
  have trans := Untouched.accumulates accumulates
  have takes {after : Downloading FileCollector ArrivingFile κ}
      (spared : FileCollector.Untouched relation now.lendDownload after) :
      Untouched relation now (takeDownload after now) :=
    ⟨rfl, spared.downloader, spared.pending, rfl, spared.disk, spared.inflow⟩
  have downloads : Meets (within lendDownload takeDownload (Downloader.advance task)) now
      (fun _ after => Untouched relation now after) (fun _ after => Untouched relation now after) := by
    have lent : now.lendDownload.pending = none := idle
    exact Meets.within ((FileCollector.advance_untouched accumulates unasking.reads unopened lent).mono
      (fun _ _ => takes) fun _ _ => takes)
  refine Meets.attempt downloads ?_ ?_
  · exact fun _ _ later => ((note_untouched accumulates _).onward trans later).bind
      fun _ _ later => Meets.pure later
  · exact fun _ _ later => ((note_untouched accumulates _).onward trans later).bind
      fun _ _ later => Meets.throw later

theorem Visits.untouched (visited : Visits task first now) (unopened : task.root = none)
    (idle : first.pending = none) (dry : first.uploader.dryRun = true) :
    Untouched relation first now := by
  have trans := Untouched.accumulates unasking.accumulates
  refine visited.maintained _ (trans.refl first) ?_ ?_ ?_ ?_
  · exact fun now held => trans.trans held ((wait_untouched unasking).after now)
  · intro now held
    have still : now.uploader.dryRun = true := held.uploader ▸ dry
    exact trans.trans held (advanceUploader_untouched unasking still).stateAfter
  · exact fun now held => trans.trans held ((contentWaits_untouched unasking).after now)
  · intro now held
    exact trans.trans held
      (advanceDownloader_untouched unasking unopened (held.pending.trans idle)).stateAfter

theorem run_untouched (patience : Nat) (unopened : task.root = none)
    (idle : first.pending = none) (dry : first.uploader.dryRun = true) :
    Untouched relation first (stateAfter (run task patience) first) := by
  obtain ⟨last, visited, ended⟩ := run_visits task first patience
  have spared := visited.untouched unasking unopened idle dry
  rw [ended, abandonPending_idle (spared.pending.trans idle)]
  exact spared

end Exchange

/-- A sandbox that does not report removals of its own. -/
structure Sandbox.Discreet (ς : Type) [Sandbox ς] : Prop where
  restricts : ∀ capabilities, Keeps
    (fun before after : Confining ς => before.journal.Quiet after.journal)
    (Sandbox.restrict capabilities)
  confines : ∀ root, Keeps
    (fun before after : Confining ς => before.journal.Quiet after.journal) (Sandbox.confine root)

theorem StrictSandbox.discreet : Sandbox.Discreet StrictSandbox where
  restricts capabilities := by
    intro before
    refine Meets.get (Meets.cond (fun _ => ?_) fun _ => ?_)
    · exact Journal.Quiet.refl before.journal
    · exact Meets.change ⟨Journal.debug_quiet, trivial⟩
  confines root := by
    intro before
    refine Meets.get (Meets.cond (fun _ => ?_) fun _ => ?_)
    · exact Journal.Quiet.refl before.journal
    · exact Meets.change ⟨Journal.debug_quiet, trivial⟩

namespace Running

open Destination

variable {ς κ : Type} {relation : κ → κ → Prop} {root : Path} {files : List ListEntry}

section Stages

variable [Sandbox ς] {entries : List FoundEntry}
  {first now after opened : Running FileRequester FileCollector ς κ}

/-- What a dry run leaves alone while it reports the removal of these entries. The mask is cleared
for a time all the same. -/
structure Untouched (relation : κ → κ → Prop) (entries : List FoundEntry)
    (before after : Running FileRequester FileCollector ς κ) : Prop where
  options : after.endpoint.options = before.endpoint.options
  uploader : after.endpoint.uploader = before.endpoint.uploader
  disk : after.disk = { before.disk with umask := after.disk.umask }
  source : relation before.inflow.source after.inflow.source
  journal : Sandbox.Discreet ς → before.inflow.journal.Announces entries after.inflow.journal

theorem masked_of_eq {before after : Disk} (same : before = after) :
    after = { before with umask := after.umask } := by
  rw [same]

theorem Untouched.quiet (accumulates : Accumulates relation)
    (earlier : Untouched relation entries first now) (later : Untouched relation [] now after) :
    Untouched relation entries first after where
  options := later.options.trans earlier.options
  uploader := later.uploader.trans earlier.uploader
  disk := by
    have same := later.disk
    rw [earlier.disk] at same
    exact same
  source := accumulates.trans earlier.source later.source
  journal discreet := (earlier.journal discreet).quiet (later.journal discreet)

theorem Untouched.accumulates (accumulates : Accumulates relation) :
    Accumulates (Untouched (ς := ς) relation []) where
  refl running :=
    ⟨rfl, rfl, rfl, accumulates.refl running.inflow.source,
      fun _ => Journal.Quiet.refl running.inflow.journal⟩
  trans := Untouched.quiet accumulates

theorem Untouched.report (accumulates : Accumulates relation) {journal : Journal}
    (announces : now.inflow.journal.Announces entries journal) :
    Untouched relation entries now { now with inflow := { now.inflow with journal } } :=
  ⟨rfl, rfl, rfl, accumulates.refl now.inflow.source, fun _ => announces⟩

section Parts

variable (accumulates : Accumulates relation)

include accumulates

theorem info_untouched {flag : InfoFlag} {level : UInt8} {message : String}
    (other : flag ≠ .deletion) :
    Keeps (Untouched relation [])
      (info flag level message : Step FileRequester FileCollector ς κ Unit) :=
  .change fun _ => .report accumulates (Journal.info_quiet other)

theorem debug_untouched {flag : DebugFlag} {level : UInt8} {message : String} :
    Keeps (Untouched relation [])
      (debug flag level message : Step FileRequester FileCollector ς κ Unit) :=
  .change fun _ => .report accumulates Journal.debug_quiet

theorem warn_untouched {message : String} :
    Keeps (Untouched relation []) (warn message : Step FileRequester FileCollector ς κ Unit) :=
  .change fun _ => .report accumulates Journal.warn_quiet

theorem onSandbox_untouched (step : String) (root : Path)
    {action : EStateM Fault (Confining ς) Unit}
    (quiet : Sandbox.Discreet ς → Keeps
      (fun before after : Confining ς => before.journal.Quiet after.journal) action) :
    Keeps (Untouched relation [])
      (onSandbox step root action : Step FileRequester FileCollector ς κ Unit) :=
  .explaining <| .within (.given quiet) fun before _ kept =>
    ⟨rfl, rfl, rfl, accumulates.refl before.inflow.source, kept⟩

omit accumulates in
theorem receive_untouched {α : Type} (step : String) {action : EStateM Fault (Inflow κ) α}
    (heard : Keeps (Inflow.Untouched relation) action) :
    Keeps (Untouched relation [])
      (receive step action : Step FileRequester FileCollector ς κ α) :=
  .explaining <| .within heard fun _ _ kept => ⟨rfl, rfl, rfl, kept.source, fun _ => kept.journal⟩

omit accumulates in
theorem send_untouched [ByteSink κ] (step : String) {emission : Emission}
    (sends : Keeps relation (emission.send : EStateM Fault κ Unit)) :
    Keeps (Untouched relation [])
      (send step emission : Step FileRequester FileCollector ς κ Unit) :=
  .explaining <| .within sends fun before _ sent =>
    ⟨rfl, rfl, rfl, sent, fun _ => Journal.Quiet.refl before.inflow.journal⟩

end Parts

/-- A dry run from its open root on reports the removal of these entries. They are the extraneous
ones, whoever lists that tree. -/
structure Plans (relation : κ → κ → Prop) (root : Path) (files : List ListEntry)
    (opened : Running FileRequester FileCollector ς κ) (entries : List FoundEntry)
    (after : Running FileRequester FileCollector ς κ) : Prop where
  untouched : Untouched relation entries opened after
  foretold : opened.endpoint.options.deletes = true → ∀ {host found scanned},
    host.disk.tree = opened.disk.tree →
      host.disk.workingDirectory = opened.disk.workingDirectory →
        contents root host = .ok found scanned → entries = extraneous found files

theorem Plans.onward (accumulates : Accumulates relation)
    (plans : Plans relation root files opened entries now) (later : Untouched relation [] now after) :
    Plans relation root files opened entries after :=
  ⟨plans.untouched.quiet accumulates later, plans.foretold⟩

/-- Without an open root clearing is planned, not done. -/
theorem clear_plans (accumulates : Accumulates relation) :
    Meets (clear root none files) opened
      (fun removals after => ∃ entries, Plans relation root files opened entries after ∧
        removals = tally entries)
      (fun _ after => ∃ entries, Plans relation root files opened entries after) := by
  have trans := Untouched.accumulates (ς := ς) accumulates
  have lists : Keeps (Untouched (ς := ς) relation [])
      (onHost (contents root) : Step FileRequester FileCollector ς κ _) := by
    refine .within ((contents_keeps root).and (contents_quiet root)) fun before _ kept => ?_
    exact ⟨rfl, rfl, masked_of_eq kept.1, accumulates.refl before.inflow.source, fun _ => kept.2⟩
  have again {host scanned : Host} {found : List FoundEntry}
      (tree : host.disk.tree = opened.disk.tree)
      (origin : host.disk.workingDirectory = opened.disk.workingDirectory)
      (scan : contents root host = .ok found scanned) :
      ∃ inside, contents root ⟨opened.disk, opened.inflow.journal⟩ = .ok found inside := by
    have follows : Follows (contents root) host (contents root)
        (⟨opened.disk, opened.inflow.journal⟩ : Host) fun _ _ _ => True :=
      contents_follows tree.symm origin.symm root
    obtain ⟨inside, ran, -⟩ := follows found scanned scan
    exact ⟨inside, ran⟩
  refine Meets.get (Meets.cond (fun deletes => ?_) fun keeps => ?_)
  · refine (Meets.ran (onHost (contents root))).followedBy (fun _ after failed => ?_) ?_
    · refine ⟨[], lists.of_error failed, fun _ host found scanned tree origin scan => ?_⟩
      -- a listing that fails here fails on every host with that tree
      obtain ⟨inside, again⟩ := again tree origin scan
      unfold onHost within at failed
      rw [again] at failed
      cases failed
    · intro found listed ran
      have spared := lists.of_ok ran
      obtain ⟨inside, scanned, -⟩ := of_within_ok ran
      refine Meets.within ((planRemovals_announces found files _).mono ?_ fun _ _ => False.elim)
      intro removals after met
      obtain ⟨counted, disk, announces⟩ := met
      refine ⟨_, ⟨⟨spared.options, spared.uploader, ?_, spared.source, fun discreet => ?_⟩, ?_⟩, counted⟩
      · exact disk ▸ spared.disk
      · exact (spared.journal discreet).append announces
      · intro _ host found' scanned' tree origin scan
        obtain ⟨inside', again⟩ := again tree origin scan
        cases scanned.symm.trans again
        rfl
  · exact Meets.pure ⟨[], ⟨trans.refl opened, fun deletes => absurd deletes keeps⟩, rfl⟩

theorem makeReady_plans (accumulates : Accumulates relation) :
    Meets (makeReady root none files) opened
      (fun removals after => ∃ entries, Plans relation root files opened entries after ∧
        removals = tally entries)
      (fun _ after => ∃ entries, Plans relation root files opened entries after) := by
  have trans := Untouched.accumulates (ς := ς) accumulates
  rw [makeReady_eq]
  refine (clear_plans accumulates).bind fun removals cleared met => ?_
  obtain ⟨entries, plans, counted⟩ := met
  have encloses : Keeps (Untouched (ς := ς) relation []) (enclose root removals) (· = removals) :=
    .bind trans (onSandbox_untouched accumulates _ _ fun discreet => discreet.confines root)
      fun _ _ => .bind trans (info_untouched accumulates (by decide)) fun _ _ => .pure trans rfl
  refine (encloses cleared).mono (fun result after later => ?_) fun _ after later => ?_
  · exact ⟨entries, plans.onward accumulates later.1, later.2.trans counted⟩
  · exact ⟨entries, plans.onward accumulates later⟩

variable [Connection κ] (unasking : Connection.Unasking relation)

include unasking

theorem exchange_untouched {task : Task} (unopened : task.root = none)
    (dry : opened.endpoint.uploader.dryRun = true) :
    Meets (exchange task) opened
      (fun result after => Untouched relation [] opened after ∧ result.2.count = 0)
      (fun _ after => Untouched relation [] opened after) := by
  have spared : Exchange.Untouched relation (beginExchange task.files.length opened)
      (stateAfter (Exchange.run task opened.endpoint.patience) _) :=
    Exchange.run_untouched unasking opened.endpoint.patience unopened rfl dry
  generalize left : stateAfter (Exchange.run task opened.endpoint.patience)
    (beginExchange task.files.length opened) = last at spared
  have ends : Untouched relation [] opened (endExchange last opened) :=
    { options := rfl
      uploader := spared.uploader
      disk := by
        have same : last.disk = opened.disk := spared.disk
        exact masked_of_eq same.symm
      source := spared.inflow.source
      journal := fun _ => spared.inflow.journal }
  refine Meets.get (Meets.within ((Meets.left (Exchange.run task opened.endpoint.patience)).followedBy
    ?_ ?_))
  · intro _ _ same
    rw [same, left]
    exact ends
  · intro phase _ same
    rw [same, left]
    refine Meets.get (Meets.pure ⟨ends, ?_⟩)
    rw [spared.newDirectories]
    exact List.count_eq_zero.mpr fun among => by simpa using (List.mem_replicate.mp among).2

/-- Without an open root no directory is fixed up. -/
theorem conclude_untouched (removals : Removals) (phase : Phase) (marks : NewDirectories) :
    Keeps (Untouched relation [])
      (conclude root none files removals phase marks : Step FileRequester FileCollector ς κ Outcome)
      fun outcome => outcome.removals = removals ∧ outcome.newDirectories = marks.count ∧
        outcome.fixups = {} := by
  have accumulates := unasking.accumulates
  have trans := Untouched.accumulates (ς := ς) accumulates
  have tolerates := Inflow.Untouched.tolerates accumulates unasking.reads
  have reads := Inflow.read_keeps tolerates
  have agrees : Keeps (Untouched (ς := ς) relation [])
      (agreeOnEnd phase : Step FileRequester FileCollector ς κ Phase) := by
    refine .bind trans (send_untouched _ unasking.sends) fun _ _ => ?_
    refine .bind trans (receive_untouched _ (Wire.readDone_keeps tolerates.accumulates reads _))
      fun _ _ => ?_
    split
    · exact .throw trans
    · exact .bind trans (debug_untouched accumulates) fun _ _ => .pure trans trivial
  have totals : Keeps (Untouched (ς := ς) relation [])
      (receiveTotals : Step FileRequester FileCollector ς κ (Option Totals)) := by
    have asks : Keeps (Untouched (ς := ς) relation [])
        (options : Step FileRequester FileCollector ς κ Options) :=
      .get fun _ => .pure trans trivial
    refine .bind trans asks fun options _ => .cond (.pure trans trivial) ?_
    refine .bind trans (receive_untouched _ (Totals.receive_keeps tolerates.accumulates reads)) ?_
    exact fun _ _ => .bind trans (info_untouched accumulates (by decide)) fun _ _ =>
      .pure trans trivial
  have fixes : Keeps (Untouched (ς := ς) relation [])
      (fixUp none files marks : Step FileRequester FileCollector ς κ Fixups)
      fun fixups => fixups = {} := .pure trans rfl
  refine .bind trans (info_untouched accumulates (by decide)) fun _ _ => ?_
  refine .bind trans fixes fun fixups nothing => ?_
  refine .bind trans agrees fun _ _ => .bind trans totals fun _ _ => ?_
  refine .bind trans (send_untouched _ unasking.sends) fun _ _ => ?_
  exact .bind trans (info_untouched accumulates (by decide)) fun _ _ => .pure trans ⟨rfl, rfl, nothing⟩

theorem fill_plans (dry : opened.endpoint.uploader.dryRun = true) (umask : UInt32) :
    Meets (fill root none files umask) opened
      (fun outcome after => ∃ entries, Plans relation root files opened entries after ∧
        outcome.removals = tally entries ∧ outcome.newDirectories = 0 ∧ outcome.fixups = {})
      (fun _ after => ∃ entries, Plans relation root files opened entries after) := by
  have accumulates := unasking.accumulates
  refine (makeReady_plans accumulates).bind fun removals ready met => ?_
  obtain ⟨entries, plans, counted⟩ := met
  refine options_then ?_
  have still : ready.endpoint.uploader.dryRun = true := plans.untouched.uploader ▸ dry
  refine (exchange_untouched unasking rfl still).followedBy ?_ ?_
  · exact fun _ _ later => ⟨entries, plans.onward accumulates later⟩
  · intro result ended met
    obtain ⟨later, nothing⟩ := met
    have plans := plans.onward accumulates later
    refine (conclude_untouched unasking removals result.1 result.2 ended).mono ?_ ?_
    · intro outcome after met
      obtain ⟨later, removed, made, fixed⟩ := met
      exact ⟨entries, plans.onward accumulates later, removed.trans counted, made.trans nothing, fixed⟩
    · exact fun _ _ later => ⟨entries, plans.onward accumulates later⟩

theorem listen_untouched {options : Options} (dry : options.dryRun = true) :
    Keeps (Untouched relation [])
      (receiveList >>= makeRoot root options : Step FileRequester FileCollector ς κ _) := by
  have accumulates := unasking.accumulates
  have trans := Untouched.accumulates (ς := ς) accumulates
  have tolerates := Inflow.Untouched.tolerates accumulates unasking.reads
  have reads := Inflow.read_keeps tolerates
  have listens : Keeps (Untouched (ς := ς) relation [])
      (receiveList : Step FileRequester FileCollector ς κ (List ListEntry)) := by
    refine .bind trans (receive_untouched _ (FileList.read_keeps tolerates)) fun files _ => ?_
    refine .bind trans (receive_untouched _ (Wire.readInt_keeps tolerates.accumulates reads)) ?_
    exact fun _ _ => .cond (.throw trans) (.pure trans trivial)
  refine .bind trans listens fun files _ => .cond ?_ ?_
  · exact .bind trans (warn_untouched accumulates) fun _ _ => .pure trans trivial
  · refine .optional trans (info_untouched accumulates (by decide)) ?_
    refine .bind trans (info_untouched accumulates (by decide)) fun _ _ => ?_
    rw [if_neg (by simp [dry])]
    exact .pure trans trivial

end Stages

variable [Connection κ]

/-- What becomes of a connection over which nothing is asked for: the run may end before the peer
is greeted, or as it is. -/
inductive Unasked (relation : κ → κ → Prop) (options : Options) (connection : κ) : κ → Prop
  | ungreeted : Unasked relation options connection connection
  | rebuffed {fault : Fault} {after : κ} (failed : (preamble options).send connection = .error fault after) :
      Unasked relation options connection after
  | greeted {source after : κ} (sent : (preamble options).send connection = .ok () source)
      (later : relation source after) : Unasked relation options connection after

variable [Sandbox ς]

/-- A run that changes nothing, whatever comes of it. -/
structure ChangesNothing (root : Path) (start : Running FileRequester FileCollector ς κ) : Prop where
  /-- The disk is as it was, and so is the mask. -/
  disk : (stateAfter (run root) start).disk = start.disk
  uploader : (stateAfter (run root) start).endpoint.uploader = start.endpoint.uploader
  /-- After the greeting the peer is only told that nothing more is asked for. -/
  unasked : ∀ {relation : κ → κ → Prop}, Connection.Unasking relation →
    Unasked relation start.endpoint.options start.inflow.source
      (stateAfter (run root) start).inflow.source
  outcome : ∀ {outcome after}, run root start = .ok outcome after →
    outcome.newDirectories = 0 ∧ outcome.fixups = {}
  /-- If the extraneous entries of that tree can be removed, their removal counts and reports just
  what this run does. -/
  foretells : start.endpoint.options.deletes = true →
    ∀ {files prepared host found scanned directory removals pruned},
      prepare root start = .ok (some files) prepared →
      host.disk.tree = start.disk.tree →
      host.disk.workingDirectory = start.disk.workingDirectory →
      host.journal = start.inflow.journal →
      contents root host = .ok found scanned →
      pruneAll directory found files scanned = .ok removals pruned →
      (∀ {outcome after}, run root start = .ok outcome after → outcome.removals = removals) ∧
        (Sandbox.Discreet ς →
          (stateAfter (run root) start).inflow.journal.removals = pruned.journal.removals)

/-- A run that ends before it can list anything. -/
theorem ChangesNothing.of_prepare {start ended : Running FileRequester FileCollector ς κ}
    {failure : Failure} (failed : prepare root start = .error failure ended)
    (disk : ended.disk = start.disk) (uploader : ended.endpoint.uploader = start.endpoint.uploader)
    (unasked : ∀ {relation : κ → κ → Prop}, Connection.Unasking relation →
      Unasked relation start.endpoint.options start.inflow.source ended.inflow.source) :
    ChangesNothing root start := by
  have ran : run root start = .error failure ended := bind_error failed
  refine { disk := ?_, uploader := ?_, unasked := ?_, outcome := ?_, foretells := ?_ }
  · rw [stateAfter_error ran, disk]
  · rw [stateAfter_error ran, uploader]
  · rw [stateAfter_error ran]
    exact unasked
  · intro _ _ ended
    cases ran.symm.trans ended
  · intro _ _ _ _ _ _ _ _ _ prepared
    cases failed.symm.trans prepared

section Greeted

variable {options : Options} {sandbox : ς} {patience : Nat} {connection source : κ} {disk : Disk}
  {confined : Confining ς} {now after : Running FileRequester FileCollector ς κ}

/-- A run that awaits the list. -/
def listening (options : Options) (patience : Nat) (source : κ) (disk : Disk)
    (confined : Confining ς) : Running FileRequester FileCollector ς κ where
  endpoint := .wholeFiles options confined.sandbox patience
  inflow := awaiting options source confined.journal
  disk

/-- What a dry run comes to that has greeted the peer. The entries whose removal it reports are
the extraneous ones, if the list arrives. -/
structure Foresees (relation : κ → κ → Prop) (root : Path)
    (start listening after : Running FileRequester FileCollector ς κ)
    (entries : List FoundEntry) : Prop where
  untouched : Untouched relation entries listening after
  umask : after.disk.umask = start.disk.umask
  foretold : start.endpoint.options.deletes = true → ∀ {files prepared host found scanned},
    prepare root start = .ok (some files) prepared → host.disk.tree = start.disk.tree →
      host.disk.workingDirectory = start.disk.workingDirectory →
        contents root host = .ok found scanned → entries = extraneous found files

theorem run_foresees {relation : κ → κ → Prop} (unasking : Connection.Unasking relation)
    (dry : options.dryRun = true)
    (restricted : Sandbox.restrict options.capabilities
      ⟨sandbox, { verbosity := options.reporting }⟩ = .ok () confined)
    (greeted : (preamble options).send connection = .ok () source) :
    let first : Running FileRequester FileCollector ς κ :=
      .start (.wholeFiles options sandbox patience) connection disk
    Meets (run root) first
      (fun outcome after => outcome.newDirectories = 0 ∧ outcome.fixups = {} ∧
        ∃ entries, Foresees relation root first (listening options patience source disk confined)
          after entries ∧ outcome.removals = tally entries)
      (fun _ after => ∃ entries,
        Foresees relation root first (listening options patience source disk confined) after
          entries) := by
  intro first
  have accumulates := unasking.accumulates
  have heard : prepare root first = (receiveList >>= makeRoot root options)
      (listening options patience source disk confined) := prepare_of_greeting restricted greeted
  have listens : Keeps (Untouched (ς := ς) relation []) (receiveList >>= makeRoot root options) :=
    listen_untouched unasking dry
  refine (Meets.ran (prepare root)).followedBy (fun _ after failed => ?_) fun found prepared ran => ?_
  · refine ⟨[], listens.of_error (heard.symm.trans failed),
      ((prepare_proceeds root first).of_error failed).disk.umask, fun _ => ?_⟩
    intro _ _ _ _ _ prepared
    cases failed.symm.trans prepared
  have spared := listens.of_ok (heard.symm.trans ran)
  have umask := ((prepare_proceeds root first).of_ok ran).1.disk.umask
  cases found with
  | none =>
      refine Meets.pure ⟨rfl, rfl, [], ⟨spared, umask, fun _ => ?_⟩, rfl⟩
      intro _ _ _ _ _ prepared
      cases ran.symm.trans prepared
  | some files =>
      let cleared := prepared.withUmask 0
      have opens : openRoot root cleared = .ok none cleared := by
        have still : cleared.endpoint.options.dryRun = true := spared.options ▸ dry
        change (if cleared.endpoint.options.dryRun = true then pure none else _ : Step _ _ ς κ _)
          cleared = _
        rw [if_pos still]
        rfl
      have requests : cleared.endpoint.uploader.dryRun = true := spared.uploader ▸ dry
      have ends {entries : List FoundEntry} {after : Running FileRequester FileCollector ς κ}
          (plans : Plans relation root files cleared entries after) :
          Foresees relation root first (listening options patience source disk confined)
            (after.withUmask prepared.disk.umask) entries := by
        have whole := plans.untouched
        refine ⟨⟨whole.options.trans spared.options, whole.uploader.trans spared.uploader, ?_,
          accumulates.trans spared.source whole.source, fun discreet => ?_⟩, umask, ?_⟩
        · have same : after.disk = { prepared.disk with umask := after.disk.umask } := whole.disk
          rw [spared.disk] at same
          change { after.disk with umask := prepared.disk.umask } =
            { disk with umask := prepared.disk.umask }
          rw [same]
          rfl
        · exact (spared.journal discreet).append (whole.journal discreet)
        · intro deletes _ _ host _ _ prepared tree origin scan
          cases ran.symm.trans prepared
          have same := spared.disk
          refine plans.foretold (spared.options ▸ deletes) (tree.trans ?_) (origin.trans ?_) scan
          · exact (congrArg Disk.tree same).symm
          · exact (congrArg Disk.workingDirectory same).symm
      refine Meets.get (Meets.changeThen (Meets.ensuring ?_))
      refine (Meets.congr (bind_ok opens) (fill_plans unasking requests _)).mono ?_ ?_
      · intro outcome after met
        obtain ⟨entries, plans, counted, made, fixed⟩ := met
        exact ⟨made, fixed, entries, ends plans, counted⟩
      · intro _ after met
        obtain ⟨entries, plans⟩ := met
        exact ⟨entries, ends plans⟩

theorem ChangesNothing.of_greeting (dry : options.dryRun = true)
    (restricted : Sandbox.restrict options.capabilities
      ⟨sandbox, { verbosity := options.reporting }⟩ = .ok () confined)
    (greeted : (preamble options).send connection = .ok () source) :
    ChangesNothing root (.start (.wholeFiles options sandbox patience) connection disk) := by
  let first : Running FileRequester FileCollector ς κ :=
    .start (.wholeFiles options sandbox patience) connection disk
  have comes {relation : κ → κ → Prop} (unasking : Connection.Unasking relation) :
      Meets (run root) first _ _ := run_foresees unasking dry restricted greeted
  have ends {relation : κ → κ → Prop} (unasking : Connection.Unasking relation) :
      ∃ entries, Foresees relation root first (listening options patience source disk confined)
        (stateAfter (run root) first) entries := by
    refine ((comes unasking).mono (fun _ _ met => ?_) fun _ _ met => met).stateAfter
    obtain ⟨-, -, entries, foresees, -⟩ := met
    exact ⟨entries, foresees⟩
  have any : Connection.Unasking fun _ _ : κ => True :=
    ⟨.any, fun _ => .any _, fun _ _ => .any _, .any _⟩
  obtain ⟨entries, foresees⟩ := ends any
  refine
    { disk := ?_
      uploader := foresees.untouched.uploader
      unasked := fun unasking => ?_
      outcome := fun ran => ?_
      foretells := ?_ }
  · have same := foresees.untouched.disk
    rw [foresees.umask] at same
    exact same
  · obtain ⟨_, foresees⟩ := ends unasking
    exact .greeted greeted foresees.untouched.source
  · obtain ⟨made, fixed, -⟩ := (comes any).of_ok ran
    exact ⟨made, fixed⟩
  · intro deletes files prepared host found scanned directory removals pruned ran tree origin fresh
      scan prunes
    obtain ⟨counted, announces⟩ := (pruneAll_announces directory found files scanned).of_ok prunes
    constructor
    · intro outcome after ended
      obtain ⟨-, -, entries, foresees, planned⟩ := (comes any).of_ok ended
      rw [planned, counted, foresees.foretold deletes ran tree origin scan]
    · intro discreet
      -- both journals start empty, and the sandbox has added no removal to the one
      have restricts : Journal.Quiet { verbosity := options.reporting } confined.journal :=
        (discreet.restricts options.capabilities).of_ok restricted
      have planned := Journal.Announces.append restricts (foresees.untouched.journal discreet)
      have reported := ((contents_quiet root).of_ok scan).append announces
      rw [foresees.foretold deletes ran tree origin scan] at planned
      exact planned.removals_eq reported (by rw [fresh]; rfl) (by rw [fresh]; rfl)

end Greeted

/-- A dry run changes nothing, whatever it is sent, and foretells the removals. -/
theorem run_changesNothing (options : Options) (dry : options.dryRun = true) (sandbox : ς)
    (patience : Nat) (connection : κ) (disk : Disk) (root : Path) :
    ChangesNothing root (.start (.wholeFiles options sandbox patience) connection disk) := by
  cases restricted : Sandbox.restrict options.capabilities
    ⟨sandbox, { verbosity := options.reporting }⟩ with
  | error fault confined =>
      exact .of_prepare (prepare_of_unrestricted restricted) rfl rfl fun _ => .ungreeted
  | ok _ confined =>
      cases greeted : (preamble options).send connection with
      | ok _ source => exact .of_greeting dry restricted greeted
      | error fault source =>
          exact .of_prepare (prepare_of_rebuff restricted greeted) rfl rfl fun _ => .rebuffed greeted

/-- A root with one directory that holds one file. -/
def nestedTree : Tree :=
  ((Tree.empty.set [[114]] (.directory ⟨0o755, 0⟩)).set [[111], [114]] (.directory ⟨0o755, 0⟩)).set
    [[120], [111], [114]] (.file ⟨0o644, 0⟩ [])

/-- An empty list for a run that would remove everything. -/
def rehearsal : Running FileRequester FileCollector StrictSandbox StagedConnection :=
  .start (.wholeFiles
      { server := true, recursive := true, delete := true, dryRun := true, verbosity := 1 } {} 0)
    (.start [⟨0, Wire.intBytes 0 ++ Wire.intBytes 0 ++ Wire.intBytes Wire.doneIndex ++
      Wire.intBytes Wire.doneIndex⟩] .half none)
    { tree := nestedTree }

theorem run_changesNothing_in_rehearsal :
    ChangesNothing ⟨[114]⟩ rehearsal ∧
    ∃ outcome after found scanned removals pruned,
      run ⟨[114]⟩ rehearsal = .ok outcome after ∧
      contents ⟨[114]⟩ ⟨rehearsal.disk, rehearsal.inflow.journal⟩ = .ok found scanned ∧
      pruneAll [[114]] found [] scanned = .ok removals pruned ∧
      outcome.removals = ⟨1, 1⟩ ∧ outcome.removals = removals ∧
      after.inflow.journal.removals.length = 2 ∧
      after.inflow.journal.removals = pruned.journal.removals := by
  have changesNothing : ChangesNothing ⟨[114]⟩ rehearsal := run_changesNothing _ rfl _ _ _ _ _
  have ends : endsIn (run ⟨[114]⟩ rehearsal) (fun outcome after =>
      decide (outcome.removals = ⟨1, 1⟩ ∧ after.inflow.journal.removals.length = 2)) = true := by
    decide +kernel
  have prepares : endsIn (prepare ⟨[114]⟩ rehearsal) (fun files _ => decide (files = some [])) =
      true := by decide +kernel
  have prunes : endsIn ((contents ⟨[114]⟩ >>= fun found => pruneAll [[114]] found [])
      ⟨rehearsal.disk, rehearsal.inflow.journal⟩) (fun _ _ => true) = true := by
    decide +kernel
  obtain ⟨outcome, after, ran, seen⟩ := of_endsIn ends
  obtain ⟨counts, reports⟩ := of_decide_eq_true seen
  obtain ⟨_, prepared, listed, empty⟩ := of_endsIn prepares
  cases of_decide_eq_true empty
  obtain ⟨removals, pruned, both, -⟩ := of_endsIn prunes
  obtain ⟨found, scanned, scan, pruned⟩ := of_bind_ok both
  obtain ⟨same, alike⟩ := changesNothing.foretells rfl listed rfl rfl rfl scan pruned
  refine ⟨changesNothing, outcome, after, found, scanned, removals, _, ran, scan, pruned, counts,
    same ran, reports, ?_⟩
  rw [← alike StrictSandbox.discreet, stateAfter_ok ran]

end Running

end TreeSync

import TreeSync.Proofs.Destination.Revisited
import TreeSync.Proofs.Destination.Settled
import TreeSync.Proofs.Run.Arrival
import TreeSync.Proofs.Run.OutsideRoot
import TreeSync.Proofs.Run.Undiverted

namespace TreeSync

/-! What a run that ends well leaves beneath its root.

The files are in place when the exchange ends, and fixing up the directories does not touch
them. What is said to the peer after that does not touch the disk.
-/

open TreeSync.Action TreeSync.Destination

/-- Whether nothing is left to do for the entries of a list beneath an open root. -/
structure Options.Satisfied (options : Options) (files : List ListEntry) (root : Location)
    (tree : Tree) : Prop where
  stands : tree.HasDirectory root
  inPlace : ∀ entry ∈ files, entry.isRegular = true → entry.InPlace root tree
  settled : options.recursive = true → ∀ entry ∈ files, entry.isDirectory = true →
    Settled options.fixups root tree entry

theorem ListEntry.InPlace.mono {entry : ListEntry} {root : Location} {before after : Tree}
    (inPlace : entry.InPlace root before)
    (directories : ∀ place, before.HasDirectory place → after.HasDirectory place)
    (files : ∀ place attributes content, before.get? place = some (.file attributes content) →
      after.get? place = some (.file attributes content)) : entry.InPlace root after := by
  obtain ⟨attributes, content, shows, fits⟩ := inPlace
  exact ⟨attributes, content, shows.mono directories fun place _ => files place _ _, fits⟩

theorem Disk.Evolves.hasDirectory_root {root : Location} {before after : Disk}
    (evolves : Evolves (Change.WithinOpen (some root)) before after)
    (stands : before.tree.HasDirectory root) : after.tree.HasDirectory root := by
  obtain ⟨_, _, replays⟩ := evolves.replays
  obtain ⟨attributes, found⟩ := stands
  have kind := replays.isDirectory_root
  rw [found, Option.map_some] at kind
  obtain ⟨node, found', directory⟩ := Option.map_eq_some_iff.mp kind
  exact (Tree.isDirectory_iff found').mp directory

/-- Different entries of a list go to different places. -/
theorem Destination.apart_of_distinct {files : List ListEntry} (root : Location)
    (distinct : (files.map (·.path.normalized)).Nodup) :
    files.Pairwise fun first second => Apart root second first := by
  refine (List.pairwise_map.mp distinct).imp fun {first second} different place placed placed' => ?_
  exact different (Path.normalized_eq_of_placeBeneath placed' placed)

namespace Running

variable {κ ς : Type} [Connection κ] {options : Options} {path : Path} {root : Location}
  {files : List ListEntry} {task : Task} {removals : Removals} {phase : Phase}
  {marks : NewDirectories} {now ready : Running FileRequester FileCollector ς κ}

omit [Connection κ] in
theorem fixUp_satisfies (configured : now.endpoint.options = options)
    (times : options.preserveTimes = true) (stands : now.disk.tree.HasDirectory root)
    (inPlace : ∀ entry ∈ files, entry.isRegular = true → entry.InPlace root now.disk.tree)
    (distinct : (files.map (·.path.normalized)).Nodup) :
    Meets (fixUp (some root) files marks) now
      (fun _ after => options.Satisfied files root after.disk.tree) (fun _ _ => True) := by
  refine options_then (Meets.within ?_)
  rw [configured]
  by_cases recursive : options.recursive = true
  · have apart := apart_of_distinct root distinct
    have fixes : Meets (Destination.fixUp options.fixups files marks)
        (⟨⟨root, now.disk⟩, now.inflow.journal⟩ : Fixing RootedDisk) _ _ :=
      Destination.fixUp_settles recursive times stands apart
    refine fixes.mono (fun _ fixing fixed => ?_) fun _ _ _ => trivial
    exact ⟨fixed.stands, fun entry listed kind =>
      (inPlace entry listed kind).mono fixed.directories fixed.files, fun _ => fixed.settled⟩
  · refine Meets.cond (fun recurses => absurd recurses recursive) fun _ => Meets.pure ?_
    exact ⟨stands, inPlace, fun recurses => absurd recurses recursive⟩

/-- What is left to do once the directories are fixed up. -/
def takeLeave (path : Path) (files : List ListEntry) (removals : Removals) (phase : Phase)
    (marks : NewDirectories) (fixups : Fixups) : Step FileRequester FileCollector ς κ Outcome := do
  let phase ← agreeOnEnd phase
  let totals ← receiveTotals
  send "goodbye" (Wire.writeInt Wire.doneIndex)
  info .misc 2 (path.display ++ ": receiver finished updating")
  return {
    phase, files := files.length, totals, removals, newDirectories := marks.count, fixups }

theorem conclude_eq (path : Path) (directory : Option Location) (files : List ListEntry)
    (removals : Removals) (phase : Phase) (marks : NewDirectories) :
    (conclude path directory files removals phase marks :
        Step FileRequester FileCollector ς κ Outcome) = (do
      info .misc 2 (path.display ++ ": receiver ready for phase 2 data")
      takeLeave path files removals phase marks (← fixUp directory files marks)) :=
  rfl

theorem takeLeave_proceeds (fixups : Fixups) :
    Keeps (Proceeds fun _ _ => False)
      (takeLeave path files removals phase marks fixups :
        Step FileRequester FileCollector ς κ Outcome) := by
  refine .bind Proceeds.accumulates (agreeOnEnd_proceeds phase) fun _ _ => ?_
  refine .bind Proceeds.accumulates receiveTotals_proceeds fun _ _ => ?_
  refine .bind Proceeds.accumulates (send_proceeds _ _) fun _ _ => ?_
  exact .bind Proceeds.accumulates (info_proceeds _ _ _) fun _ _ =>
    .pure Proceeds.accumulates trivial

/-- The rest of a run after fixing up leaves the tree as it is. -/
theorem conclude_satisfies (configured : now.endpoint.options = options)
    (times : options.preserveTimes = true) (stands : now.disk.tree.HasDirectory root)
    (inPlace : ∀ entry ∈ files, entry.isRegular = true → entry.InPlace root now.disk.tree)
    (distinct : (files.map (·.path.normalized)).Nodup) :
    Meets (conclude path (some root) files removals phase marks) now
      (fun _ after => options.Satisfied files root after.disk.tree) (fun _ _ => True) := by
  rw [conclude_eq]
  have tells : Keeps (Proceeds fun _ _ => False)
      (info .misc 2 (path.display ++ ": receiver ready for phase 2 data") :
        Step FileRequester FileCollector ς κ Unit) := info_proceeds _ _ _
  refine (tells now).followedBy (fun _ _ _ => trivial) fun _ told met => ?_
  have still := met.1.disk.still
  refine (fixUp_satisfies (met.1.options.trans configured) times (still.symm ▸ stands)
    (still.symm ▸ inPlace) distinct).bind fun fixups fixed satisfied => ?_
  exact (takeLeave_proceeds fixups fixed).mono (fun _ _ met => met.1.disk.still ▸ satisfied)
    fun _ _ _ => trivial

/-- If all that was asked for came, a run that ends well leaves nothing to do. -/
theorem finishing_satisfies (configured : ready.endpoint.options = options)
    (begins : options.Begins ready.endpoint.uploader ready.endpoint.downloader)
    (times : options.preserveTimes = true) (acts : options.dryRun = false)
    (opened : task.root = some root) (stands : ready.disk.tree.HasDirectory root)
    (distinct : (task.files.map (·.path.normalized)).Nodup)
    (spares : ready.disk.Spares task.files) :
    Meets (finishing path task removals) ready
      (fun _ after =>
        (∀ index ∈ after.endpoint.uploader.requested,
          index ∈ after.endpoint.downloader.received) →
        options.Satisfied task.files root after.disk.tree)
      (fun _ _ => True) := by
  let first : Exchange.WholeFiles κ := beginExchange task.files.length ready
  have idle : first.pending = none := rfl
  refine (exchange_runs (Exchange.run_meets ready.endpoint.patience)).followedBy
    (fun _ _ _ => trivial) fun result _ ended => ?_
  obtain ⟨_, ⟨before, last, advanced, completes, rfl⟩, rfl⟩ := ended
  have kept : Exchange.abandonPending last = last := by
    unfold Exchange.abandonPending
    rw [completes.idle]
  rw [kept]
  have evolves : Disk.Evolves task.Confines ready.disk before.disk :=
    (advanced.visits.evolves idle).1
  have same : last.disk = before.disk := by
    cases (Exchange.advanceDownloader_meets (advanced.visits.evolves idle).2).of_ok
      completes.done with
    | ended _ _ _ disk _ => exact disk
  have confines : Disk.Evolves (Change.WithinOpen (some root)) ready.disk last.disk := by
    rw [same]
    refine evolves.mono fun _ _ fine => ?_
    obtain ⟨root', opened', within⟩ := fine
    exact ⟨root', opened ▸ opened', within⟩
  obtain ⟨uploader, downloader⟩ := begins
  have dry : first.uploader.dryRun = false := by
    rw [show first.uploader = _ from uploader]
    exact acts
  have fresh : first.downloader.received = [] := by
    rw [show first.downloader = _ from downloader]
    rfl
  have timed : first.downloader.preserveTimes = true := by
    rw [show first.downloader = _ from downloader]
    exact times
  by_cases arrived : ∀ index ∈ last.uploader.requested, index ∈ last.downloader.received
  · have inPlace (entry : ListEntry) (member : entry ∈ task.files)
        (kind : entry.isRegular = true) : entry.InPlace root last.disk.tree := by
      obtain ⟨root', opened', inPlace⟩ := completes.current distinct spares fresh idle advanced
        dry rfl timed arrived member kind
      cases opened.symm.trans opened'
      exact inPlace
    have ended : (endExchange last ready).endpoint.options = options := configured
    rw [opened]
    exact (conclude_satisfies ended times (confines.hasDirectory_root stands) inPlace distinct).mono
      (fun _ _ satisfied _ => satisfied) fun _ _ _ => trivial
  · refine (conclude_proceeds (endExchange last ready)).mono (fun _ after met all => ?_)
      fun _ _ _ => trivial
    rw [met.1.uploader, met.1.downloader] at all
    exact absurd all arrived

variable [Sandbox ς] {sandbox : ς} {patience : Nat} {connection : κ} {disk : Disk}
  {outcome : Outcome} {start opened final : Running FileRequester FileCollector ς κ}

/-- What is known of a run once it has opened its root. -/
structure OpensAt (options : Options) (path : Path)
    (start opened : Running FileRequester FileCollector ς κ) (task : Task) (root : Location) :
    Prop where
  opens : task.root = some root
  leads : opened.disk.tree.resolveDirectory opened.disk.workingDirectory path = .ok root
  sound : opened.disk.Sound
  configured : opened.endpoint.options = options
  begins : options.Begins opened.endpoint.uploader opened.endpoint.downloader
  prune : opened.endpoint.prune = pruneAll
  draws : start.disk.draws ≤ opened.disk.draws
  entropy : opened.disk.entropy = start.disk.entropy

theorem opening_opensAt (sound : disk.Sound) (acts : options.dryRun = false)
    (opens : opening path (.start (.wholeFiles options sandbox patience) connection disk) =
      .ok (some task) opened) :
    ∃ root, OpensAt options path (.start (.wholeFiles options sandbox patience) connection disk)
      opened task root := by
  obtain ⟨prepared, listed, reached, -⟩ := opening_ok opens
  have prepares := ((prepare_proceeds path _).of_ok listed).1
  have still : Proceeds (fun _ _ => False) (prepared.withUmask 0) opened :=
    ((openRoot_proceeds path _).of_ok reached).1
  have live : (prepared.withUmask 0).endpoint.options.dryRun = false :=
    (congrArg Options.dryRun prepares.options).trans acts
  obtain ⟨root, open', led⟩ := (openRoot_opens live).of_ok reached
  have clean : prepared.disk.Sound := ((prepare_staysSound path _).of_ok listed).1 sound
  refine ⟨root, open', ?_, still.staysSound (clean.of_same rfl rfl),
    still.options.trans prepares.options,
    ⟨still.uploader.trans prepares.uploader, still.downloader.trans prepares.downloader⟩,
    still.prune.trans prepares.prune, ?_, ?_⟩
  · rw [still.disk.still, still.disk.workingDirectory]
    exact led
  · exact Nat.le_trans prepares.disk.draws still.disk.draws
  · exact still.disk.entropy.trans prepares.disk.entropy

namespace OpensAt

variable (at' : OpensAt options path start opened task root)

include at'

omit [Connection κ] [Sandbox ς] in
theorem stands : opened.disk.tree.HasDirectory root := by
  obtain ⟨-, reached⟩ := Tree.check_of_resolveDirectory at'.leads
  refine at'.sound.closed.enter ?_ reached
  unfold Path.origin
  split
  · exact at'.sound.closed.above at'.sound.home List.nil_suffix
  · exact at'.sound.home

omit [Connection κ] [Sandbox ς] in
theorem spares (spares : start.disk.Spares task.files) : opened.disk.Spares task.files := by
  intro root parent name turn early
  rw [at'.entropy]
  exact spares (Nat.le_trans at'.draws early)

end OpensAt

/-- How a run that ends well leaves its root, as seen from the moment when it was opened: with
nothing to do beneath it, with nothing there that the list does not name where it may remove, and
with its path undiverted. -/
structure Leaves (options : Options) (path : Path) (files : List ListEntry) (root : Location)
    (before : Disk) (removals : Removals) (after : Disk) : Prop where
  satisfied : options.Satisfied files root after.tree
  clears : options.deletes = true → Clears path files root before removals after.tree
  undiverted : before.tree.Undiverted after.tree
  home : after.workingDirectory = before.workingDirectory

theorem run_leaves (sound : disk.Sound) (times : options.preserveTimes = true)
    (acts : options.dryRun = false)
    (ran : run path (.start (.wholeFiles options sandbox patience) connection disk) =
      .ok outcome final)
    (opens : opening path (.start (.wholeFiles options sandbox patience) connection disk) =
      .ok (some task) opened)
    (distinct : (task.files.map (·.path.normalized)).Nodup) (spares : disk.Spares task.files)
    (arrived : ∀ index ∈ final.endpoint.uploader.requested,
      index ∈ final.endpoint.downloader.received) :
    ∃ root, OpensAt options path (.start (.wholeFiles options sandbox patience) connection disk)
        opened task root ∧
      Leaves options path task.files root opened.disk outcome.removals final.disk := by
  obtain ⟨root, at'⟩ := opening_opensAt sound acts opens
  rw [run_of_opening opens] at ran
  obtain ⟨after, filled, rfl⟩ := ensuring_ok ran
  obtain ⟨removals, ready, readied, _⟩ := of_bind_ok filled
  have finished := (fill_of_makeReady readied).symm.trans filled
  have readies := (makeReady_proceeds at'.prune).of_ok readied
  let checked : Task := { task with checksum := ready.endpoint.options.checksum }
  have opened' : checked.root = some root := at'.opens
  have evolves := readies.withinOpen
  rw [at'.opens] at evolves readied
  have begins : options.Begins ready.endpoint.uploader ready.endpoint.downloader :=
    ⟨readies.uploader.trans at'.begins.1, readies.downloader.trans at'.begins.2⟩
  have spared : opened.disk.Spares checked.files := at'.spares spares
  have satisfies := (finishing_satisfies (readies.options.trans at'.configured) begins times acts
    opened' (evolves.hasDirectory_root at'.stands) distinct (spared.later evolves)).of_ok finished
  have weeds := (makeReady_weeds at'.prune at'.sound at'.leads).of_ok readied
  have undiverted := (finishing_undiverted opened' weeds).of_ok finished
  have fills : Disk.Evolves (Change.WithinOpen task.root) opened.disk
      (stateAfter (fill path task.root task.files task.umask) opened).disk := fill_evolves at'.prune
  rw [stateAfter_ok filled] at fills
  refine ⟨root, at', satisfies arrived, fun deletes => ?_, undiverted, fills.workingDirectory⟩
  have permitted : opened.endpoint.options.deletes = true := by
    rw [at'.configured]
    exact deletes
  have clears : Clears path checked.files root opened.disk removals ready.disk.tree :=
    (makeReady_clears permitted at'.prune at'.sound at'.leads).of_ok readied
  have leaves := (finishing_clears opened' clears).of_ok finished
  exact leaves

end Running

end TreeSync

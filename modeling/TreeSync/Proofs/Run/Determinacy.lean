import TreeSync.Proofs.Run.Abreast
import TreeSync.Proofs.Run.Completeness
import TreeSync.Proofs.Run.Rehearsed

namespace TreeSync

/-! The result of a run does not depend on when and in which pieces the peer is heard.

The stages before the exchange see the same disk and the same list, and those after it trees
that differ in times at most.
-/

open TreeSync.Action TreeSync.Speech

/-- The uploader that starts on a disk alone. -/
def Uploading.solo (options : Options) (total : Nat) (disk : Disk) :
    Uploading FileRequester BoundedSink where
  uploader := .ofOptions options
  cursor := .start total
  newDirectories := .none total
  connection := {}
  host := ⟨disk, {}⟩

/-- The roles as a run gets them. -/
def Options.Begins (options : Options) (uploader : FileRequester) (downloader : FileCollector) :
    Prop :=
  uploader = .ofOptions options ∧ downloader = .ofOptions options

/-- The disks that two exchanges with the same peer leave. -/
def Disk.Agrees (kept : Prop) (dated : Location → Prop) (first second : Disk) : Prop :=
  first.tree.Agrees kept dated second.tree

/-- Whether a run sets the time of a directory that stands at a place. -/
def Options.Dates (options : Options) (directory : Option Location) (files : List ListEntry)
    (place : Location) : Prop :=
  (options.recursive = true ∧ options.preserveTimes = true) ∧
    ∃ root, directory = some root ∧ TreeSync.Dates root files place

theorem Task.Places.index_unique {task : Task} {index other : Nat} {place : Location}
    (distinct : (task.files.map (·.path.normalized)).Nodup) (places : task.Places index place)
    (again : task.Places other place) : index = other := by
  obtain ⟨root, entry, opened, listed, placed⟩ := places
  obtain ⟨root', entry', opened', listed', placed'⟩ := again
  rw [opened] at opened'
  cases opened'
  have inside : index < (task.files.map (·.path.normalized)).length := by
    rw [List.length_map]
    exact (List.getElem?_eq_some_iff.mp listed).1
  refine (List.getElem?_inj inside distinct).mp ?_
  rw [List.getElem?_map, List.getElem?_map, listed, listed', Option.map_some, Option.map_some,
    Path.normalized_eq_of_placeBeneath placed placed']

namespace Running

variable {ς κ κ' : Type} [Connection κ] [Connection κ'] {options : Options} {origin : Inflow κ}
  {origin' : Inflow κ'} {roles : FileRequester → FileCollector → Prop} {kept : Prop}
  {dated : Location → Prop} {taken said : Bytes}
  {now : Running FileRequester FileCollector ς κ} {there : Running FileRequester FileCollector ς κ'}
  {root : Path} {files : List ListEntry} {peer : Peer} {task : Task}

theorem beginExchange_staged (offers : peer.Offers task.files)
    (honest : peer.Honest options task.files origin)
    (distinct : (task.files.map (·.path.normalized)).Nodup) (spares : now.disk.Spares task.files)
    (strength : task.checksum = options.checksum) (obeys : now.endpoint.Obeys options options.Begins)
    (greeted : origin.Converses peer.list (bytes (greeting options)) now.inflow) :
    Exchange.Staged peer options task origin (.solo options task.files.length now.disk)
      (beginExchange task.files.length now) where
  offers := offers
  honest := honest
  distinct := Task.Places.index_unique distinct
  spares := spares
  strength := strength
  idle := rfl
  fresh := by
    change now.endpoint.downloader.received = []
    rw [obeys.roles.2]
    rfl
  known :=
    { sent := ⟨by simp [Uploading.solo, Cursor.start, Cursor.exhausted, word, greeting, bytes], rfl⟩
      rising := .nil
      passed := List.forall_mem_nil _
      regular := List.forall_mem_nil _
      obeys := rfl
      dry := fun _ => rfl }
  shadows := by
    have told : origin.Converses (peer.list ++ []) (bytes (greeting options) ++ []) now.inflow := by
      simpa using greeted
    exact
    { uploader := obeys.roles.1
      cursor := rfl
      marks := rfl
      overlays := ⟨fun _ _ => rfl, fun _ => False.elim, fun _ => False.elim⟩
      umask := rfl
      said := ⟨[], told, rfl, rfl⟩ }

theorem exchange_concurs (offers : peer.Offers task.files)
    (honest : peer.Honest options task.files origin) (honest' : peer.Honest options task.files origin')
    (distinct : (task.files.map (·.path.normalized)).Nodup) (spares : now.disk.Spares task.files)
    (strength : task.checksum = options.checksum)
    (setting : Setting options peer origin origin' options.Begins now there) :
    Concurs (exchange task) now (exchange task) there fun value after after' =>
      value.1 = .awaitingAck ∧ ∃ taken requests, Requests task.files requests ∧
        Abreast options origin origin' (fun _ _ => True)
          (Disk.Agrees (options.preserveTimes = true) fun _ => False) taken
          (bytes (word options requests 1)) after after' := by
  have obeys : there.endpoint.Obeys options options.Begins := setting.yonder
  have staged := beginExchange_staged offers honest distinct spares strength setting.here
    setting.converses
  have staged' := beginExchange_staged offers honest' distinct (setting.disks ▸ spares) strength
    setting.yonder setting.converses'
  rw [← setting.disks] at staged'
  have collector : now.endpoint.downloader = .ofOptions options := setting.here.roles.2
  have downloader : there.endpoint.downloader = now.endpoint.downloader :=
    setting.yonder.roles.2.trans collector.symm
  refine .get (.within ((Exchange.run_concurs staged staged' downloader _ _).bind ?_))
  intro phase last last' met
  obtain ⟨final, bare, requests, asked, fulfils, fulfils'⟩ := met
  have agrees := fulfils.agrees offers asked fulfils'
  have times : (beginExchange task.files.length now : Exchange.WholeFiles κ).downloader =
      .ofOptions options := collector
  rw [times] at agrees
  refine .get ?_
  rw [fulfils.marks, fulfils'.marks]
  exact .pure ⟨final, _, requests, asked, ⟨setting.here.asked, setting.here.prune, trivial⟩,
    ⟨setting.yonder.asked, setting.yonder.prune, trivial⟩, agrees, fulfils.converses,
    fulfils'.converses⟩

theorem fixUp_concurs (directory : Option Location) (files : List ListEntry) (marks : NewDirectories)
    (abreast : Abreast options origin origin' roles (Disk.Agrees kept dated) taken said now there) :
    Concurs (fixUp directory files marks : Step _ _ ς κ _) now (fixUp directory files marks) there
      fun _ => Abreast options origin origin' roles
        (Disk.Agrees kept fun place => dated place ∨ options.Dates directory files place)
        taken said := by
  cases directory with
  | none =>
      refine .pure { abreast with disks := abreast.disks.mono fun _ fine => fine.resolve_right ?_ }
      intro met
      obtain ⟨-, _, nothing, -⟩ := met
      cases nothing
  | some root =>
      have agrees : RootedDisk.Agrees root kept dated ⟨root, now.disk⟩ ⟨root, there.disk⟩ :=
        ⟨rfl, rfl, abreast.disks⟩
      refine options_concurs abreast (.within ?_)
      refine (Destination.fixUp_concurs files agrees).mono fun _ _ _ agrees => ?_
      refine { abreast with
        disks := agrees.trees.mono fun place fine => fine.imp_right fun met => ⟨met.1, ?_⟩
        converses := .reported abreast.converses _
        converses' := .reported abreast.converses' _ }
      obtain ⟨-, _, same, dates⟩ := met
      cases same
      exact dates

/-- After the exchange, with so many end marks sent. -/
def Alongside (options : Options) (origin : Inflow κ) (origin' : Inflow κ')
    (dated : Location → Prop) (requests : List Nat) (marks : Nat)
    (now : Running FileRequester FileCollector ς κ)
    (there : Running FileRequester FileCollector ς κ') : Prop :=
  ∃ taken, Abreast options origin origin' (fun _ _ => True)
    (Disk.Agrees (options.preserveTimes = true) dated) taken (bytes (word options requests marks))
    now there

variable {requests : List Nat} {marks : Nat}

theorem mark_concurs (step : String)
    (alongside : Alongside options origin origin' dated requests marks now there) :
    Concurs (send step (Wire.writeInt Wire.doneIndex) : Step _ _ ς κ Unit) now
      (send step (Wire.writeInt Wire.doneIndex) : Step _ _ ς κ' Unit) there
      fun _ => Alongside options origin origin' dated requests (marks + 1) := by
  obtain ⟨taken, abreast⟩ := alongside
  refine (send_concurs abreast step rfl).mono fun _ _ _ abreast => ⟨taken, ?_⟩
  have mark : (Wire.writeInt Wire.doneIndex).bytes = bytes [Wire.doneIndex] := by
    simp [bytes, Wire.writeInt, Emission.write, Emission.bytes]
  rw [bytes_mark, ← mark]
  exact abreast

theorem hear_concurs {α : Type} (step : String) {action : EStateM Fault (Inflow κ) α}
    {action' : EStateM Fault (Inflow κ') α} {decode : EStateM Fault (Inflow ScriptedSource) α}
    (parses : Parses action decode) (parses' : Parses action' decode)
    (honest : peer.Honest options files origin) (honest' : peer.Honest options files origin')
    (asked : Requests files requests) (few : marks ≤ 3)
    (alongside : Alongside options origin origin' dated requests marks now there) :
    Concurs (receive step action : Step _ _ ς κ α) now (receive step action' : Step _ _ ς κ' α) there
      fun _ => Alongside options origin origin' dated requests marks := by
  obtain ⟨taken, abreast⟩ := alongside
  refine (receive_concurs step parses parses' honest honest' asked few abreast).mono ?_
  intro _ _ _ met
  obtain ⟨more, abreast⟩ := met
  exact ⟨_, abreast⟩

section Ending

variable (honest : peer.Honest options files origin) (honest' : peer.Honest options files origin')
  (asked : Requests files requests)

include honest honest' asked

theorem agreeOnEnd_concurs (phase : Phase)
    (alongside : Alongside options origin origin' dated requests 1 now there) :
    Concurs (agreeOnEnd phase : Step _ _ ς κ _) now (agreeOnEnd phase) there
      fun _ => Alongside options origin origin' dated requests 2 := by
  refine (mark_concurs _ alongside).bind fun _ _ _ alongside => ?_
  refine (hear_concurs _ (.readDone _) (.readDone _) honest honest' asked (by decide) alongside).bind ?_
  intro _ _ _ alongside
  split
  · exact .throw
  · obtain ⟨taken, abreast⟩ := alongside
    exact (debug_concurs abreast _ _ _).bind fun _ _ _ abreast => .pure ⟨taken, abreast⟩

theorem receiveTotals_concurs
    (alongside : Alongside options origin origin' dated requests 2 now there) :
    Concurs (receiveTotals : Step _ _ ς κ _) now receiveTotals there
      fun _ => Alongside options origin origin' dated requests 2 := by
  obtain ⟨taken, abreast⟩ := alongside
  refine options_concurs abreast (.cond (fun _ => .pure ⟨taken, abreast⟩) fun _ => ?_)
  refine (hear_concurs _ .receiveTotals .receiveTotals honest honest' asked (by decide)
    ⟨taken, abreast⟩).bind fun totals _ _ alongside => ?_
  obtain ⟨taken, abreast⟩ := alongside
  exact (info_concurs abreast _ _ _).bind fun _ _ _ abreast => .pure ⟨taken, abreast⟩

theorem conclude_concurs (directory : Option Location) (listed : List ListEntry)
    (removals : Removals) (phase : Phase) (marks : NewDirectories)
    (alongside : Alongside options origin origin' (fun _ => False) requests 1 now there) :
    Concurs (conclude root directory listed removals phase marks : Step _ _ ς κ _) now
      (conclude root directory listed removals phase marks) there
      fun _ => Alongside options origin origin' (options.Dates directory listed) requests 3 := by
  obtain ⟨taken, abreast⟩ := alongside
  refine (info_concurs abreast _ _ _).bind fun _ _ _ abreast => ?_
  refine (fixUp_concurs directory listed marks abreast).bind fun fixups now there abreast => ?_
  have fixed : Alongside options origin origin' (options.Dates directory listed) requests 1 now there :=
    ⟨taken, { abreast with disks := abreast.disks.mono fun _ => Or.inr }⟩
  refine (agreeOnEnd_concurs honest honest' asked phase fixed).bind fun phase _ _ agreed => ?_
  refine (receiveTotals_concurs honest honest' asked agreed).bind fun totals _ _ told => ?_
  refine (mark_concurs _ told).bind fun _ _ _ parted => ?_
  obtain ⟨taken, abreast⟩ := parted
  exact (info_concurs abreast _ _ _).bind fun _ _ _ abreast => .pure ⟨taken, abreast⟩

end Ending

variable [Sandbox ς]

theorem fill_concurs (root : Path) (offers : peer.Offers files) (honest : peer.Honest options files origin)
    (honest' : peer.Honest options files origin') (distinct : (files.map (·.path.normalized)).Nodup)
    (directory : Option Location) (umask : UInt32) (spares : now.disk.Spares files)
    (setting : Setting options peer origin origin' options.Begins now there) :
    Concurs (fill root directory files umask : Step _ _ ς κ _) now (fill root directory files umask)
      there fun _ after after' => ∃ requests,
        Alongside options origin origin' (options.Dates directory files) requests 3 after after' := by
  have clears : Concurs (makeReady root directory files : Step _ _ ς κ _) now
      (makeReady root directory files) there fun _ after after' =>
        Setting options peer origin origin' options.Begins after after' ∧
          Proceeds (Change.TidiesOpen directory) now after :=
    (makeReady_concurs setting).knowing (makeReady_proceeds setting.here.prune)
  refine clears.bind fun removals now there met => ?_
  obtain ⟨setting, proceeds⟩ := met
  refine options_concurs setting ?_
  let task : Task := { root := directory, files, checksum := options.checksum, umask }
  have kept : now.disk.Spares task.files := spares.later proceeds.disk
  refine (exchange_concurs offers honest honest' distinct kept rfl setting).bind fun value _ _ met => ?_
  obtain ⟨-, taken, requests, asked, abreast⟩ := met
  refine (conclude_concurs honest honest' asked directory files removals value.1 value.2
    ⟨taken, abreast⟩).mono fun _ _ _ alongside => ⟨requests, alongside⟩

/-- Two runs of the whole-file roles against an honest peer that both end well come to the
same outcome, have said the same to the peer and leave the same tree, whatever the waits were
and however the content was cut into arrivals, frames and messages. Times are the same where
they are kept: those of files, and those of the directories that the run fixes up. -/
theorem run_determinate {sandbox : ς} {patience patience' : Nat} {disk : Disk} {connection : κ}
    {connection' : κ'} {outcome outcome' : Outcome}
    {final : Running FileRequester FileCollector ς κ}
    {final' : Running FileRequester FileCollector ς κ'} (recording : Recording κ)
    (recording' : Recording κ') (offers : peer.Offers files)
    (distinct : (files.map (·.path.normalized)).Nodup) (spares : disk.Spares files)
    (honest : peer.Honest options files
      (Running.start (.wholeFiles options sandbox patience) connection disk).inflow)
    (honest' : peer.Honest options files
      (Running.start (.wholeFiles options sandbox patience') connection' disk).inflow)
    (ran : run root (.start (.wholeFiles options sandbox patience) connection disk) =
      .ok outcome final)
    (ran' : run root (.start (.wholeFiles options sandbox patience') connection' disk) =
      .ok outcome' final') :
    outcome = outcome' ∧
      (∃ said, recording.written final.inflow.source = recording.written connection ++ said ∧
        recording'.written final'.inflow.source = recording'.written connection' ++ said) ∧
      final.disk.tree.Agrees (options.preserveTimes = true)
        (fun place => ∃ task opened,
          opening root (.start (.wholeFiles options sandbox patience) connection disk) =
            .ok (some task) opened ∧ options.Dates task.root task.files place)
        final'.disk.tree := by
  let start : Running FileRequester FileCollector ς κ :=
    .start (.wholeFiles options sandbox patience) connection disk
  let start' : Running FileRequester FileCollector ς κ' :=
    .start (.wholeFiles options sandbox patience') connection' disk
  have fresh : Abreast options start.inflow start'.inflow options.Begins Eq [] [] start start' :=
    ⟨⟨rfl, rfl, rfl, rfl⟩, ⟨rfl, rfl, rfl, rfl⟩, rfl, .start, .start⟩
  have opens := opening_concurs root offers honest honest' spares fresh
  -- what both have said is what either of them wrote
  have tells {roles : FileRequester → FileCollector → Prop} {disks : Disk → Disk → Prop}
      {taken said : Bytes} {now : Running FileRequester FileCollector ς κ}
      {there : Running FileRequester FileCollector ς κ'}
      (abreast : Abreast options start.inflow start'.inflow roles disks taken said now there) :
      ∃ said, recording.written now.inflow.source = recording.written connection ++ said ∧
        recording'.written there.inflow.source = recording'.written connection' ++ said :=
    ⟨said, abreast.converses.written recording, abreast.converses'.written recording'⟩
  rcases run_ok_cases ran with skipped | reached
  · obtain ⟨opened, rfl⟩ := skipped
    rcases run_ok_cases ran' with skipped' | reached'
    · obtain ⟨opened', rfl⟩ := skipped'
      obtain ⟨-, -, setting, -⟩ := opens _ _ _ _ opened opened'
      refine ⟨rfl, tells setting, ?_⟩
      rw [setting.disks]
      exact .refl _
    · obtain ⟨task, ready, opened', -⟩ := reached'
      obtain ⟨same, -⟩ := opens _ _ _ _ opened opened'
      cases same
  · obtain ⟨task, ready, opened, ended⟩ := reached
    rcases run_ok_cases ran' with skipped' | reached'
    · obtain ⟨opened', -⟩ := skipped'
      obtain ⟨same, -⟩ := opens _ _ _ _ opened opened'
      cases same
    · obtain ⟨task', ready', opened', ended'⟩ := reached'
      obtain ⟨same, only, setting, spares⟩ := opens _ _ _ _ opened opened'
      cases same
      obtain rfl := only task rfl
      have fills := fill_concurs root offers honest honest' distinct task.root task.umask spares
        setting
      obtain ⟨last, filled, rfl⟩ := ensuring_ok ended
      obtain ⟨last', filled', rfl⟩ := ensuring_ok ended'
      obtain ⟨same, requests, taken, abreast⟩ := fills _ _ _ _ filled filled'
      have told := tells abreast
      refine ⟨same, told, abreast.disks.mono fun place met => ?_⟩
      obtain ⟨task', opened', again, dates⟩ := met
      rw [opened] at again
      cases again
      exact dates

def mixedFiles : List ListEntry :=
  [⟨⟨[97]⟩, 0o100644, 7, 3⟩, ⟨⟨[100]⟩, 0o40755, 7, 0⟩, ⟨⟨[101]⟩, 0o40755, 7, 0⟩]

/-- A peer that offers a file and two directories, and sends the file in two pieces. -/
def mixedPeer : Peer where
  list :=
    Wire.intBytes 1 ++ [97] ++ Wire.intBytes 0o100644 ++ Wire.intBytes 7 ++ Wire.intBytes 3 ++
      Wire.intBytes 1 ++ [100] ++ Wire.intBytes 0o40755 ++ Wire.intBytes 7 ++ Wire.intBytes 0 ++
      Wire.intBytes 1 ++ [101] ++ Wire.intBytes 0o40755 ++ Wire.intBytes 7 ++ Wire.intBytes 0 ++
      Wire.intBytes 0 ++ Wire.intBytes 0
  answer index := ⟨index, 0, 2, 0, [[120], [121, 122]]⟩
  farewell := Wire.intBytes Wire.doneIndex

def mixedOptions : Options :=
  { server := true, recursive := true, preserveTimes := true }

/-- So much of the reply is sent when it is asked for, and the rest after the end mark. -/
def mixedConnection (prompt : Nat) : StagedConnection :=
  .start [⟨0, mixedPeer.list⟩, ⟨20, (mixedPeer.answer 0).bytes.take prompt⟩,
    ⟨24, (mixedPeer.answer 0).bytes.drop prompt ++ mixedPeer.closing 1⟩] .half none

def mixedStart (prompt : Nat) : Running FileRequester FileCollector StrictSandbox StagedConnection :=
  .start (.wholeFiles mixedOptions {} 0) (mixedConnection prompt)
    { tree := Tree.empty.set [] (.directory ⟨0o755, 0⟩) }

theorem requests_mixed {requests : List Nat} (asked : Requests mixedFiles requests) :
    requests = [] ∨ requests = [0] := by
  have first (index : Nat) (among : index ∈ requests) : index = 0 := by
    obtain ⟨-, entry, found, regular⟩ := asked.regular index among
    have inside : index < 3 := (List.getElem?_eq_some_iff.mp found).1
    have cases : index = 0 ∨ index = 1 ∨ index = 2 := by omega
    rcases cases with rfl | rfl | rfl
    · rfl
    · cases found
      exact absurd regular (by decide)
    · cases found
      exact absurd regular (by decide)
  have rising := asked.rising
  cases requests with
  | nil => exact .inl rfl
  | cons index rest =>
      obtain rfl := first index List.mem_cons_self
      cases rest with
      | nil => exact .inr rfl
      | cons other more =>
          have later := (List.pairwise_cons.mp rising).1 other List.mem_cons_self
          rw [first other (List.mem_cons_of_mem _ List.mem_cons_self)] at later
          exact absurd later (Nat.lt_irrefl 0)

theorem mixedPeer_honest (prompt : Nat) (either : prompt = 0 ∨ prompt = 35) :
    mixedPeer.Honest mixedOptions mixedFiles (mixedStart prompt).inflow := by
  refine StagedConnection.honest rfl rfl fun requests marks asked few => ?_
  have cases : marks = 0 ∨ marks = 1 ∨ marks = 2 ∨ marks = 3 := by omega
  rcases requests_mixed asked with rfl | rfl <;> rcases either with rfl | rfl <;>
    rcases cases with rfl | rfl | rfl | rfl <;> decide +kernel

theorem mixedPeer_offers : mixedPeer.Offers mixedFiles where
  list := by
    have ends : endsIn (FileList.readWhole (Inflow.plainly mixedPeer.list)) (fun whole after =>
        decide (whole = (mixedFiles, 0) ∧ after.source.pending = [])) = true := by
      decide +kernel
    obtain ⟨whole, after, ran, seen⟩ := of_endsIn ends
    obtain ⟨rfl, nothing⟩ := of_decide_eq_true seen
    exact ⟨after, ran, nothing⟩
  index _ _ _ _ := rfl
  formed index _ found _ := by
    have inside : index < 3 := (List.getElem?_eq_some_iff.mp found).1
    exact ⟨Nat.lt_trans inside (by decide), by simp [mixedPeer, FileCollector.maxPiece]⟩

theorem mixedStart_spares (prompt : Nat) : (mixedStart prompt).disk.Spares mixedFiles := by
  have free : ∀ entry ∈ mixedFiles, ∀ other ∈ mixedFiles,
      Temporary.nameFor entry.path.bytes (.replicate 6 0) ≠ other.path.bytes := by
    decide +kernel
  have plain (entry : ListEntry) (listed : entry ∈ mixedFiles) (root : Location) :
      entry.path.placeBeneath root = some (entry.path.bytes :: root) := by
    simp only [mixedFiles, List.mem_cons, List.not_mem_nil, or_false] at listed
    rcases listed with rfl | rfl | rfl <;> rfl
  exact @Disk.spares_of_names (mixedStart prompt).disk _ plain fun _ => free

/-- A prompt reply is taken before the second directory is made, and a late one after that. -/
theorem run_determinate_of_delay :
    ∃ outcome final final', run ⟨selfName⟩ (mixedStart 35) = .ok outcome final ∧
      run ⟨selfName⟩ (mixedStart 0) = .ok outcome final' ∧
      final.disk.changes ≠ final'.disk.changes ∧
      final.disk.tree.get? [[97]] = some (.file ⟨0o644, 7⟩ [120, 121, 122]) ∧
      final'.disk.tree.get? [[97]] = some (.file ⟨0o644, 7⟩ [120, 121, 122]) := by
  have ends : endsIn (run ⟨selfName⟩ (mixedStart 35)) (fun _ final =>
      endsIn (run ⟨selfName⟩ (mixedStart 0)) fun _ final' =>
        decide (final.disk.changes ≠ final'.disk.changes ∧
          final.disk.tree.get? [[97]] = some (.file ⟨0o644, 7⟩ [120, 121, 122]))) = true := by
    decide +kernel
  obtain ⟨outcome, final, ran, ends⟩ := of_endsIn ends
  obtain ⟨outcome', final', ran', seen⟩ := of_endsIn ends
  obtain ⟨differ, found⟩ := of_decide_eq_true seen
  obtain ⟨rfl, -, agrees⟩ := run_determinate StagedConnection.recording StagedConnection.recording
    mixedPeer_offers (by decide +kernel) (mixedStart_spares 35) (mixedPeer_honest 35 (.inr rfl))
    (mixedPeer_honest 0 (.inl rfl)) ran ran'
  refine ⟨outcome, final, final', ran, ran', differ, found, ?_⟩
  have seen := agrees.sight rfl [[97]]
  rw [Tree.sight_eq_file.mpr found] at seen
  exact Tree.sight_eq_file.mp seen.symm

end Running

end TreeSync

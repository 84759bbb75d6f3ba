import TreeSync.Proofs.Run.Distrust
import TreeSync.Proofs.Run.Resting

namespace TreeSync

/-! A run that finds nothing to do at its destination.

Its root is there, everything beneath the root is in order, and the peer only ends the run. Each
stage then does no more than tell the journal, and the peer where the list and the phase end.
-/

open TreeSync.Action TreeSync.Destination TreeSync.Speech

/-- Whether a run that hears this list has nothing to make its root for. -/
def Options.skips (options : Options) (files : List ListEntry) : Bool :=
  options.server = false && files.isEmpty

/-- Whether the path of the root leads to a directory beneath which nothing is left to do, and
nothing to remove where a run may remove. -/
structure Options.Fulfilled (options : Options) (files : List ListEntry) (path : Path)
    (root : Location) (disk : Disk) : Prop where
  opens : disk.tree.resolveDirectory disk.workingDirectory path = .ok root
  satisfied : options.Satisfied files root disk.tree
  named : options.deletes = true → ¬ disk.tree.EndsInLink disk.workingDirectory path →
    ∀ place, root <:+ place → place ≠ root → disk.tree.get? place ≠ none →
      ¬ TooDeep path root place ∧
        ∃ entry ∈ files, entry.path.normalized = (root.pathTo place).normalized

namespace Running

variable {κ ς : Type} [Connection κ] {farewell : Bytes} {owes : Nat → Inflow κ → Bytes → Prop}
  {ready : Inflow κ → Prop} {options : Options} {path : Path} {root : Location}
  {files : List ListEntry} {task : Task} {marks : Nat} {answers : Bytes}
  {now : Running FileRequester FileCollector ς κ}

/-- What a stage leaves alone that finds nothing to do. -/
structure Rests (before after : Running FileRequester FileCollector ς κ) : Prop where
  endpoint : after.endpoint = before.endpoint
  disk : after.disk = before.disk
  inflow : ∃ journal, after.inflow = { before.inflow with journal }

omit [Connection κ] in
theorem Rests.accumulates : Accumulates (Rests (κ := κ) (ς := ς)) where
  refl now := ⟨rfl, rfl, now.inflow.journal, rfl⟩
  trans earlier later := by
    obtain ⟨journal, same⟩ := later.inflow
    obtain ⟨_, same'⟩ := earlier.inflow
    exact {
      endpoint := later.endpoint.trans earlier.endpoint
      disk := later.disk.trans earlier.disk
      inflow := ⟨journal, by rw [same, same']⟩ }

theorem Rests.owed {after : Running FileRequester FileCollector ς κ} (rests : Rests now after)
    (concludes : Inflow.Concludes farewell owes ready) (owed : owes marks now.inflow answers) :
    owes marks after.inflow answers := by
  obtain ⟨journal, same⟩ := rests.inflow
  exact same ▸ (concludes.reports journal owed).1

omit [Connection κ] in
theorem info_rests (flag : InfoFlag) (level : UInt8) (message : String) :
    Meets (info flag level message : Step FileRequester FileCollector ς κ Unit) now
      (fun _ after => Rests now after) (fun _ _ => False) :=
  Meets.change ⟨rfl, rfl, _, rfl⟩

omit [Connection κ] in
theorem clear_rests (configured : now.endpoint.options = options)
    (prunes : now.endpoint.prune = pruneAll)
    (fulfilled : options.Fulfilled files path root now.disk) :
    Meets (clear path (some root) files) now
      (fun removals after => removals = {} ∧ Rests now after) (fun _ _ => False) := by
  refine Meets.get (Meets.cond (fun deletes => ?_) fun _ =>
    Meets.pure ⟨rfl, Rests.accumulates.refl now⟩)
  rw [configured] at deletes
  have finds : Meets (contents path) ⟨now.disk, now.inflow.journal⟩ _ _ :=
    contents_named fulfilled.opens (fulfilled.named deletes)
  refine Meets.withinThen finds (fun _ _ => False.elim) fun found inside met => ?_
  obtain ⟨same, nothing⟩ := met
  unfold removeFound
  rw [prunes]
  refine Meets.within ((pruneAll_rests nothing).mono ?_ fun _ _ => id)
  rintro removals host ⟨empty, same'⟩
  exact ⟨empty, rfl, same'.trans same, _, rfl⟩

section

variable [Sandbox ς]

omit [Connection κ] in
theorem makeReady_rests (configured : now.endpoint.options = options)
    (prunes : now.endpoint.prune = pruneAll)
    (fulfilled : options.Fulfilled files path root now.disk)
    (confines : ∀ journal, ∃ confined,
      Sandbox.confine path (⟨now.endpoint.sandbox, journal⟩ : Confining ς) = .ok () confined) :
    Meets (makeReady path (some root) files) now
      (fun removals after => removals = {} ∧ ∃ sandbox,
        Rests { now with endpoint := { now.endpoint with sandbox } } after) (fun _ _ => False) := by
  rw [makeReady_eq]
  refine (clear_rests configured prunes fulfilled).bind fun removals cleared met => ?_
  obtain ⟨nothing, endpoint, disk, journal, inflow⟩ := met
  obtain ⟨confined, done⟩ := confines cleared.inflow.journal
  rw [← endpoint] at done
  have encloses : Meets (onSandbox "confine" path (Sandbox.confine path)) cleared
      (fun _ after => Rests
        { now with endpoint := { now.endpoint with sandbox := confined.sandbox } } after)
      (fun _ _ => False) := by
    rw [Meets, onSandbox_ok done]
    exact ⟨by rw [← endpoint]; rfl, disk, confined.journal, by rw [confinedBy, inflow]⟩
  refine encloses.bind fun _ enclosed rests => ?_
  have trans := Rests.accumulates (κ := κ) (ς := ς)
  exact (info_rests _ _ _).bind fun _ after told =>
    Meets.pure ⟨nothing, _, trans.trans rests told⟩

omit [Connection κ] [Sandbox ς] in
theorem openRoot_rests (acts : now.endpoint.options.dryRun = false)
    (opens : now.disk.tree.resolveDirectory now.disk.workingDirectory path = .ok root) :
    Meets (openRoot path) now (fun found after => found = some root ∧ Rests now after)
      (fun _ _ => False) := by
  have got : (get : EStateM Fault Disk Disk) now.disk = .ok now.disk now.disk := rfl
  have looked : Destination.openRoot path now.disk = .ok root now.disk :=
    (bind_ok got).trans (Disk.look_ok opens)
  have reaches : Meets (onRoot "open" path (Destination.openRoot path)) now
      (fun found after => found = root ∧ Rests now after) (fun _ _ => False) := by
    refine Meets.explaining (Meets.within (Meets.within ?_))
    rw [Meets, looked]
    exact ⟨rfl, rfl, rfl, _, rfl⟩
  refine options_then (Meets.cond (fun dry => absurd dry (by rw [acts]; simp)) fun _ => ?_)
  exact reaches.bind fun found _ met => Meets.pure ⟨congrArg some met.1, met.2⟩

end

section

variable (concludes : Inflow.Concludes farewell owes ready)

include concludes

/-- The exchange tells where the list ends, and hears where the content does. -/
theorem exchange_rests (begins : now.endpoint.uploader = .ofOptions options)
    (opened : task.root = some root) (satisfied : options.Satisfied task.files root now.disk.tree)
    (owed : owes 0 now.inflow []) :
    Meets (exchange task) now
      (fun result after => result = (.awaitingAck, .none task.files.length) ∧
        after.endpoint.options = now.endpoint.options ∧ after.disk = now.disk ∧
        after.endpoint.uploader.requested = [] ∧ owes 1 after.inflow [])
      (fun _ _ => False) := by
  let first : Exchange.WholeFiles κ := beginExchange task.files.length now
  have same : first.uploader = .ofOptions options := begins
  have idle : Exchange.Idle options task now.disk first :=
    ⟨by rw [same]; rfl, by rw [same]; rfl, rfl, rfl, rfl, rfl⟩
  have enough : first.left <
      Exchange.usefulRounds task first.inflow.source + now.endpoint.patience := by
    simp only [first, Exchange.left, beginExchange, Cursor.start, Exchange.usefulRounds]
    omega
  have rounds : Meets (Exchange.run task now.endpoint.patience) first
      (fun phase last => phase = .awaitingAck ∧ Exchange.Ceased owes options task now.disk last)
      (fun _ _ => False) := by
    refine Meets.get (Meets.ensuring ?_)
    refine (Exchange.roundsUpTo_idles concludes idle owed opened satisfied enough).mono
      (fun phase last met => ?_) fun _ _ => id
    have kept : Exchange.abandonPending last = last := by
      unfold Exchange.abandonPending
      rw [met.2.idle.pending]
    rwa [kept]
  refine Meets.get (Meets.within (rounds.bind fun phase last met => Meets.get (Meets.pure ?_)))
  obtain ⟨rfl, idle, heard⟩ := met
  exact ⟨by rw [idle.marks], rfl, idle.disk, idle.requested, heard⟩

/-- Fixing up the directories leaves the tree as it is. -/
theorem fixUp_rests (configured : now.endpoint.options = options) (grants : now.disk.Adornable)
    (satisfied : options.Satisfied files root now.disk.tree)
    (owed : owes marks now.inflow answers) :
    Meets (fixUp (some root) files (.none files.length)) now
      (fun _ after => after.endpoint = now.endpoint ∧ now.disk.tree.Same after.disk.tree ∧
        owes marks after.inflow answers)
      (fun _ _ => False) := by
  have old (index : Nat) : (NewDirectories.none files.length).isNew index = false := by
    unfold NewDirectories.isNew NewDirectories.none
    rw [List.getElem?_replicate]
    split <;> rfl
  refine options_then (Meets.within ?_)
  rw [configured]
  have fixes : Meets (Destination.fixUp options.fixups files (.none files.length))
      (⟨⟨root, now.disk⟩, now.inflow.journal⟩ : Fixing RootedDisk) _ _ :=
    Destination.fixUp_rests old grants satisfied.settled
  refine fixes.mono (fun _ fixing stays => ⟨rfl, stays.same, ?_⟩) fun _ _ => id
  exact (concludes.reports _ owed).1

/-- The peer takes an end mark, and answers it as it answers one after so many others. -/
theorem send_done_owes (step : String) (owed : owes marks now.inflow answers) :
    Meets (send step (Wire.writeInt Wire.doneIndex)) now
      (fun _ after => after.endpoint = now.endpoint ∧ after.disk = now.disk ∧
        owes (marks + 1) after.inflow (answers ++ Inflow.reply farewell marks))
      (fun _ _ => False) := by
  obtain ⟨source, put, heard, -⟩ := concludes.hears owed
  have sent : (Wire.writeInt Wire.doneIndex).send now.inflow.source = .ok () source :=
    (bind_ok ((bind_ok put).trans rfl)).trans rfl
  rw [Meets, send_ok sent]
  exact ⟨rfl, rfl, heard⟩

omit [Connection κ] concludes in
theorem receive_owes {α : Type} {step : String} {action : EStateM Fault (Inflow κ) α} {value : α}
    {bytes rest : Bytes} (decodes : Decodes (owes marks) action value bytes)
    (owed : owes marks now.inflow (bytes ++ rest)) :
    Meets (receive step action) now
      (fun got after => got = value ∧ after.endpoint = now.endpoint ∧ after.disk = now.disk ∧
        owes marks after.inflow rest)
      (fun _ _ => False) := by
  obtain ⟨inflow, ran, heard⟩ := decodes now.inflow rest owed
  rw [Meets, receive_ok ran]
  exact ⟨rfl, rfl, rfl, heard⟩

theorem agreeOnEnd_owes (owed : owes 1 now.inflow []) :
    Meets (agreeOnEnd .awaitingAck) now
      (fun phase after => phase = .done ∧ after.endpoint = now.endpoint ∧ after.disk = now.disk ∧
        owes 2 after.inflow farewell)
      (fun _ _ => False) := by
  refine (send_done_owes concludes _ owed).bind fun _ told met => ?_
  obtain ⟨endpoint, disk, owed⟩ := met
  refine (receive_owes (Decodes.readDone (concludes.feeds 2) _) owed).bind fun _ heard met => ?_
  obtain ⟨-, endpoint', disk', owed⟩ := met
  exact Meets.changeThen (Meets.pure ⟨rfl, endpoint'.trans endpoint, disk'.trans disk,
    (concludes.reports _ owed).1⟩)

theorem receiveTotals_owes {totals : Totals} (whole : totals.send.refusal = none)
    (farewells : farewell = if now.endpoint.options.server then [] else totals.send.bytes)
    (owed : owes 2 now.inflow farewell) :
    Meets receiveTotals now
      (fun got after => got = (if now.endpoint.options.server then none else some totals) ∧
        after.endpoint = now.endpoint ∧ after.disk = now.disk ∧ owes 2 after.inflow [])
      (fun _ _ => False) := by
  refine options_then (Meets.cond (fun server => ?_) fun client => ?_)
  · rw [if_pos server] at farewells
    exact Meets.pure ⟨by rw [if_pos server], rfl, rfl, farewells ▸ owed⟩
  · rw [if_neg client] at farewells
    rw [farewells, ← List.append_nil totals.send.bytes] at owed
    have fits := Totals.refusal_send_iff.mp whole
    refine (receive_owes (Totals.receive_decodes (concludes.feeds 2) fits) owed).bind
      fun got heard met => ?_
    obtain ⟨rfl, endpoint, disk, owed⟩ := met
    exact Meets.changeThen (Meets.pure ⟨by rw [if_neg client], endpoint, disk,
      (concludes.reports _ owed).1⟩)

/-- The rest of a run once the content was exchanged. -/
theorem conclude_owes {totals : Totals} (configured : now.endpoint.options = options)
    (grants : now.disk.Adornable) (whole : totals.send.refusal = none)
    (farewells : farewell = if options.server then [] else totals.send.bytes)
    (satisfied : options.Satisfied files root now.disk.tree) (owed : owes 1 now.inflow []) :
    Meets (conclude path (some root) files {} .awaitingAck (.none files.length)) now
      (fun outcome after => outcome.newDirectories = 0 ∧ outcome.removals = {} ∧
        outcome.skippedEmpty = false ∧ after.endpoint = now.endpoint ∧
        now.disk.tree.Same after.disk.tree ∧ owes 3 after.inflow [])
      (fun _ _ => False) := by
  have zero : (NewDirectories.none files.length).count = 0 := by
    unfold NewDirectories.count NewDirectories.none
    rw [List.count_replicate]
    rfl
  rw [conclude_eq]
  refine (info_rests _ _ _).bind fun _ told rests => ?_
  have owed := rests.owed concludes owed
  have here : options.Satisfied files root told.disk.tree := rests.disk.symm ▸ satisfied
  have configured : told.endpoint.options = options := rests.endpoint ▸ configured
  have grants : told.disk.Adornable := rests.disk.symm ▸ grants
  refine (fixUp_rests concludes configured grants here owed).bind
    fun fixups fixed met => ?_
  obtain ⟨fixes, same, owed⟩ := met
  refine (agreeOnEnd_owes concludes owed).bind fun phase agreed met => ?_
  obtain ⟨-, agrees, disk, owed⟩ := met
  have options' : agreed.endpoint.options = options := by
    rw [agrees, fixes]
    exact configured
  refine (receiveTotals_owes concludes whole (options' ▸ farewells) owed).bind
    fun got heard met => ?_
  obtain ⟨-, hears, disk', owed⟩ := met
  refine (send_done_owes concludes _ owed).bind fun _ parted met => ?_
  obtain ⟨parts, disk'', owed⟩ := met
  refine Meets.changeThen (Meets.pure ⟨zero, rfl, rfl, ?_, ?_, (concludes.reports _ owed).1⟩)
  · change parted.endpoint = _
    rw [parts, hears, agrees, fixes, rests.endpoint]
  · change now.disk.tree.Same parted.disk.tree
    rw [disk'', disk', disk, ← rests.disk]
    exact same

end

/-- What a run did that found nothing to do. -/
structure Undisturbed (disk : Disk) (outcome : Outcome)
    (final : Running FileRequester FileCollector ς κ) : Prop where
  requested : final.endpoint.uploader.requested = []
  directories : outcome.newDirectories = 0
  removals : outcome.removals = {}
  changes : ∃ changes, final.disk.changes = disk.changes ++ changes ∧
    ∀ change ∈ changes, change.OfAttributes
  tree : disk.tree.Same final.disk.tree

/-- With nothing to do the rest of a run ends well. -/
theorem finishing_rests (concludes : Inflow.Concludes farewell owes ready) {totals : Totals}
    (configured : now.endpoint.options = options)
    (begins : now.endpoint.uploader = .ofOptions options) (opened : task.root = some root)
    (grants : now.disk.Adornable) (whole : totals.send.refusal = none)
    (farewells : farewell = if options.server then [] else totals.send.bytes)
    (satisfied : options.Satisfied task.files root now.disk.tree) (owed : owes 0 now.inflow []) :
    Meets (finishing path task {}) now
      (fun outcome after => outcome.skippedEmpty = false ∧ Undisturbed now.disk outcome after ∧
        owes 3 after.inflow [])
      (fun _ _ => False) := by
  refine (exchange_rests concludes begins opened satisfied owed).bind fun result ended met => ?_
  obtain ⟨rfl, endpoint, disk, empty, owed⟩ := met
  have here : options.Satisfied task.files root ended.disk.tree := disk.symm ▸ satisfied
  rw [opened]
  have concluded : Meets (conclude path (some root) task.files {} .awaitingAck _) ended _ _ :=
    conclude_owes concludes (endpoint.trans configured) (disk.symm ▸ grants) whole farewells here
      owed
  refine Meets.intro (fun outcome after ran => ?_) fun _ _ failed => concluded.of_error failed
  obtain ⟨directories, removals, received, same, tree, owed⟩ := concluded.of_ok ran
  have adorns := ((conclude_proceeds ended).of_ok ran).1
  obtain ⟨changes, recorded, replays⟩ := adorns.disk.replays
  rw [disk] at tree recorded
  refine ⟨received, ⟨by rw [same, empty], directories, removals, ⟨changes, recorded, ?_⟩, tree⟩, owed⟩
  refine replays.each fun _ change fine => ?_
  obtain ⟨_, _, adorns⟩ := fine
  exact adorns.1

/-- A run that was vouched for a list has it. -/
theorem receiveList_hears {heard : Inflow κ}
    (listed : FileList.readWhole now.inflow = .ok (files, 0) heard) :
    receiveList now = .ok files { now with inflow := heard } := by
  obtain ⟨read, between, lists, told⟩ := of_bind_ok listed
  obtain ⟨integrity, last, tells, same⟩ := of_bind_ok told
  cases same
  exact (bind_ok (receive_ok lists)).trans ((bind_ok (receive_ok tells)).trans rfl)

omit [Connection κ] in
theorem makeRoot_finds (received : options.skips files = false) :
    Meets (makeRoot path options files) now (fun found _ => found = some files)
      (fun _ _ => True) := by
  have goesOn (now : Running FileRequester FileCollector ς κ) :
      Meets (do
        info .misc 2 (path.display ++ ": receiver destination")
        if options.dryRun = false then onRoot "mkpath" path (makePath path)
        return some files) now (fun found _ => found = some files) (fun _ _ => True) := by
    refine (Meets.ran _).followedBy (fun _ _ _ => trivial) fun _ told _ => ?_
    refine Meets.cond (fun _ => ?_) fun _ => Meets.pure rfl
    exact (Meets.ran _).followedBy (fun _ _ _ => trivial) fun _ _ _ => Meets.pure rfl
  refine Meets.cond (fun empty => ?_) fun _ => Meets.cond (fun _ => ?_) fun _ => goesOn now
  · cases received.symm.trans empty
  · exact (Meets.ran _).followedBy (fun _ _ _ => trivial) fun _ told _ => goesOn told

omit [Connection κ] in
theorem makeRoot_rests (received : options.skips files = false)
    (opens : now.disk.tree.resolveDirectory now.disk.workingDirectory path = .ok root) :
    Meets (makeRoot path options files) now
      (fun found after => found = some files ∧ Rests now after) (fun _ _ => False) := by
  have trans := Rests.accumulates (κ := κ) (ς := ς)
  have makes {here : Running FileRequester FileCollector ς κ} (rests : Rests now here) :
      Meets (onRoot "mkpath" path (makePath path)) here (fun _ after => Rests now after)
        (fun _ _ => False) := by
    have made : makePath path here.disk = .ok () here.disk := by
      rw [rests.disk]
      exact makePath_rests opens
    refine Meets.explaining (Meets.within (Meets.within ?_))
    rw [Meets, made]
    exact trans.trans rests ⟨rfl, rfl, _, rfl⟩
  have goesOn {here : Running FileRequester FileCollector ς κ} (rests : Rests now here) :
      Meets (do
        info .misc 2 (path.display ++ ": receiver destination")
        if options.dryRun = false then onRoot "mkpath" path (makePath path)
        return some files) here
        (fun found after => found = some files ∧ Rests now after) (fun _ _ => False) := by
    refine (info_rests _ _ _).bind fun _ told rests' => ?_
    have rests := trans.trans rests rests'
    exact Meets.cond (fun _ => (makes rests).bind fun _ _ rests => Meets.pure ⟨rfl, rests⟩)
      fun _ => Meets.pure ⟨rfl, rests⟩
  refine Meets.cond (fun empty => ?_) fun _ => Meets.cond (fun _ => ?_) fun _ => ?_
  · cases received.symm.trans empty
  · exact (info_rests _ _ _).bind fun _ _ rests => goesOn rests
  · exact goesOn (trans.refl now)

section

variable [Sandbox ς] {sandbox : ς} {patience : Nat} {connection source : κ} {disk : Disk}
  {confined : Confining ς} {heard : Inflow κ}

/-- How a run comes to its list: it restricts itself, greets the peer, and is vouched for what
it reads. -/
structure Hears (options : Options) (sandbox : ς) (connection source : κ)
    (confined : Confining ς) (files : List ListEntry) (heard : Inflow κ) : Prop where
  restricted : Sandbox.restrict options.capabilities
    ⟨sandbox, { verbosity := options.reporting }⟩ = .ok () confined
  greeted : (preamble options).send connection = .ok () source
  listed : FileList.readWhole (awaiting options source confined.journal) = .ok (files, 0) heard

namespace Hears

variable (hears : Hears options sandbox connection source confined files heard)

include hears

/-- By then a run has written its greeting, and nothing else. -/
theorem written (recording : Recording κ) :
    recording.Since (recording.written connection) heard.source (bytes (greeting options)) := by
  have fresh : recording.Since (recording.written connection) connection [] :=
    (List.append_nil _).symm
  have greets := (Emission.send_meets (recording.adds _) (preamble_whole options) fresh).of_ok
    hears.greeted
  rw [List.nil_append, preamble_bytes] at greets
  have trans := Inflow.Drawn.accumulates (Recording.same recording.written)
  have lists := FileList.read_draws (Recording.same recording.written) recording.reads
  have ints := Wire.readInt_keeps trans
    (Inflow.read_draws (Recording.same recording.written) recording.reads)
  obtain ⟨_, _, listed, told⟩ := of_bind_ok hears.listed
  obtain ⟨_, _, tells, same⟩ := of_bind_ok told
  cases same
  exact (trans.trans (lists.of_ok listed) (ints.of_ok tells)).source.trans greets

/-- What is left to do for a run that has its list. -/
theorem prepares (path : Path) (patience : Nat) (disk : Disk) :
    prepare path (.start (.wholeFiles options sandbox patience) connection disk) =
      makeRoot path options files {
        endpoint := .wholeFiles options confined.sandbox patience
        inflow := heard
        disk } := by
  have restricted : Sandbox.restrict
      (Endpoint.wholeFiles options sandbox patience).options.capabilities
      ⟨(Endpoint.wholeFiles options sandbox patience).sandbox,
        { verbosity := (Endpoint.wholeFiles options sandbox patience).options.reporting }⟩ =
        .ok () confined := hears.restricted
  exact (prepare_of_greeting restricted hears.greeted).trans
    (bind_ok (receiveList_hears hears.listed))

/-- A client that is sent an empty list leaves the destination alone. -/
theorem run_skips (path : Path) (patience : Nat) (disk : Disk)
    (skips : options.skips files = true) :
    ∃ final, run path (.start (.wholeFiles options sandbox patience) connection disk) =
      .ok { files := 0, skippedEmpty := true } final ∧ final.disk = disk ∧
      final.endpoint.uploader.requested = [] ∧ final.inflow.source = heard.source := by
  let final : Running FileRequester FileCollector ς κ := {
    endpoint := .wholeFiles options confined.sandbox patience
    inflow := { heard with journal := heard.journal.warn "empty file list: nothing to receive" }
    disk }
  have ends : prepare path (.start (.wholeFiles options sandbox patience) connection disk) =
      .ok none final :=
    (hears.prepares path patience disk).trans (congrFun (if_pos skips) _)
  exact ⟨final, bind_ok ends, rfl, rfl, rfl⟩

/-- A run that ends well opens its root otherwise. -/
theorem run_opens (received : options.skips files = false)
    {outcome : Outcome} {final : Running FileRequester FileCollector ς κ}
    (ran : run path (.start (.wholeFiles options sandbox patience) connection disk) =
      .ok outcome final) :
    ∃ task opened, opening path (.start (.wholeFiles options sandbox patience) connection disk) =
      .ok (some task) opened ∧ task.files = files := by
  obtain ⟨found, prepared, listed, goesOn⟩ := of_bind_ok ran
  have same := (hears.prepares path patience disk).symm.trans listed
  obtain rfl := (makeRoot_finds received).of_ok same
  obtain ⟨_, transferred, _⟩ := ensuring_ok ((run_of_prepare listed).symm.trans ran)
  obtain ⟨directory, opened, reached, _⟩ := of_bind_ok transferred
  exact ⟨_, opened, (bind_ok listed).trans (bind_ok reached), rfl⟩

/-- A run that finds its root opens it. -/
theorem opening_rests (patience : Nat) (received : options.skips files = false)
    (acts : options.dryRun = false)
    (opens : disk.tree.resolveDirectory disk.workingDirectory path = .ok root) :
    ∃ opened, opening path (.start (.wholeFiles options sandbox patience) connection disk) =
        .ok (some { root := some root, files, umask := disk.umask }) opened ∧
      Rests {
        endpoint := .wholeFiles options confined.sandbox patience
        inflow := heard
        disk := { disk with umask := 0 } } opened := by
  let listening : Running FileRequester FileCollector ς κ := {
    endpoint := .wholeFiles options confined.sandbox patience
    inflow := heard
    disk }
  have makes : Meets (makeRoot path options files) listening _ _ := makeRoot_rests received opens
  obtain ⟨found, prepared, made, rfl, endpoint, same, inflow⟩ := makes.succeeds
  have listed := (hears.prepares path patience disk).trans made
  have cleared : Rests (listening.withUmask 0) (prepared.withUmask 0) := by
    refine ⟨endpoint, ?_, inflow⟩
    unfold withUmask
    rw [same]
  have live : (prepared.withUmask 0).endpoint.options.dryRun = false := by
    rw [cleared.endpoint]
    exact acts
  have leads : (prepared.withUmask 0).disk.tree.resolveDirectory
      (prepared.withUmask 0).disk.workingDirectory path = .ok root := by
    rw [cleared.disk]
    exact opens
  obtain ⟨directory, opened, reached, rfl, rests⟩ := (openRoot_rests live leads).succeeds
  have umask : prepared.disk.umask = disk.umask := by rw [same]
  refine ⟨opened, ?_, Rests.accumulates.trans cleared rests⟩
  rw [← umask]
  exact (bind_ok listed).trans (bind_ok reached)

/-- With nothing to do a run ends well, and leaves the tree as it was. -/
theorem run_rests (received : options.skips files = false) (acts : options.dryRun = false)
    (confines : ∀ journal, ∃ after,
      Sandbox.confine path (⟨confined.sandbox, journal⟩ : Confining ς) = .ok () after)
    (grants : disk.Adornable) (fulfilled : options.Fulfilled files path root disk)
    (concludes : Inflow.Concludes farewell owes ready) (owed : owes 0 heard [])
    {totals : Totals} (whole : totals.send.refusal = none)
    (farewells : farewell = if options.server then [] else totals.send.bytes) :
    ∃ outcome final,
      run path (.start (.wholeFiles options sandbox patience) connection disk) =
        .ok outcome final ∧
      outcome.skippedEmpty = false ∧ Undisturbed disk outcome final ∧ owes 3 final.inflow [] := by
  obtain ⟨opened, opens, rests⟩ :=
    hears.opening_rests patience received acts fulfilled.opens
  have here : options.Fulfilled files path root opened.disk := by
    rw [rests.disk]
    exact { fulfilled with }
  have confines (journal : Journal) : ∃ after,
      Sandbox.confine path (⟨opened.endpoint.sandbox, journal⟩ : Confining ς) = .ok () after := by
    rw [rests.endpoint]
    exact confines journal
  have readies := makeReady_rests (by rw [rests.endpoint]; rfl) (by rw [rests.endpoint]; rfl)
    here confines
  obtain ⟨removals, ready, readied, rfl, sandbox, made⟩ := readies.succeeds
  let task : Task := { root := some root, files, umask := disk.umask }
  have filled : fill path task.root task.files task.umask opened = _ := fill_of_makeReady readied
  have same : ready.disk = { disk with umask := 0 } := made.disk.trans rests.disk
  have satisfied : options.Satisfied files root ready.disk.tree := by
    rw [same]
    exact fulfilled.satisfied
  have grants : ready.disk.Adornable := by
    rw [same]
    exact ⟨grants.permissions, grants.times⟩
  have endpoint : ready.endpoint = .wholeFiles options sandbox patience := by
    rw [made.endpoint, rests.endpoint]
    rfl
  let checked : Task := { task with checksum := ready.endpoint.options.checksum }
  have ends : Meets (finishing path checked {}) ready _ _ :=
    finishing_rests concludes (congrArg Endpoint.options endpoint)
      (congrArg Endpoint.uploader endpoint) rfl grants whole farewells satisfied
      (made.owed concludes (rests.owed concludes owed))
  obtain ⟨outcome, after, ended, received, undisturbed, owed⟩ := ends.succeeds
  rw [same] at undisturbed
  refine ⟨outcome, after.withUmask disk.umask, ?_, received, { undisturbed with }, owed⟩
  rw [run_of_opening opens]
  unfold ensuring
  rw [filled.trans ended]

end Hears

end

end Running

end TreeSync

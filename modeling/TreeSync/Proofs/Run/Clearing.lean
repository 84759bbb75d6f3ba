import TreeSync.Proofs.Destination.Rooting
import TreeSync.Proofs.Run.Atomicity

namespace TreeSync

/-! What a run that removes leaves beneath its root.

The root is cleared before the exchange, which brings nothing that the list does not
name and lets nothing go; after it only attributes change. So what a run leaves is
listed, unless the path of the root ends in a link.
-/

open TreeSync.Action TreeSync.Destination

namespace Task.Books

variable {task : Task} {collector : FileCollector} {first now : Disk} {replies : List Reply}
  {draft : Option Reply} {root place : Location}

theorem stays (books : task.Books collector first now none replies draft)
    (there : first.tree.get? place ≠ none) : now.tree.get? place ≠ none := by
  cases books.holding place with
  | kept same => rwa [Ne, ← Tree.sight_eq_none, same, Tree.sight_eq_none]
  | delivered complete =>
      obtain ⟨attributes, content, found⟩ := complete.hasFile
      exact Option.ne_none_iff_exists'.mpr ⟨_, found⟩
  | prepared _ _ _ _ _ directory =>
      obtain ⟨attributes, found⟩ := directory
      exact Option.ne_none_iff_exists'.mpr ⟨_, found⟩
  | arriving here => cases here

theorem comes (books : task.Books collector first now none replies draft)
    (opened : task.root = some root) (there : now.tree.get? place ≠ none) :
    first.tree.get? place ≠ none ∨ Names task.files root place := by
  cases books.holding place with
  | kept same =>
      left
      rwa [Ne, ← Tree.sight_eq_none, ← same, Tree.sight_eq_none]
  | delivered complete =>
      obtain ⟨reply, _, node, becomes, _⟩ := complete
      cases becomes with
      | file opened' listed _ placed =>
          cases opened.symm.trans opened'
          exact .inr ⟨_, List.mem_of_getElem? listed, placed⟩
  | prepared opened' listed _ placed =>
      cases opened.symm.trans opened'
      exact .inr ⟨_, listed, placed⟩
  | arriving here => cases here

end Task.Books

namespace Running

variable {κ ς : Type} [Connection κ] [Sandbox ς] {path : Path} {root : Location} {before : Disk}
  {files : List ListEntry} {task : Task} {removals : Removals} {outcome : Outcome}
  {start opened ready final : Running FileRequester FileCollector ς κ}

omit [Connection κ] [Sandbox ς] in
theorem Proceeds.staysSound {now after : Running FileRequester FileCollector ς κ}
    (still : Proceeds (fun _ _ => False) now after) : now.disk.StaysSound after.disk :=
  fun sound => sound.of_same still.disk.still still.disk.workingDirectory

omit [Connection κ] [Sandbox ς] in
theorem Proceeds.outline {now after : Running FileRequester FileCollector ς κ}
    {directory : Option Location} (proceeds : Proceeds (Change.AdornsOpen directory) now after)
    (place : Location) : after.disk.tree.outline place = now.disk.tree.outline place := by
  refine proceeds.disk.outline fun _ _ fine => ?_
  obtain ⟨_, _, adorns⟩ := fine
  exact adorns.1

theorem prepare_staysSound (path : Path) :
    Keeps (fun before after => before.disk.StaysSound after.disk)
      (prepare path : Step FileRequester FileCollector ς κ (Option (List ListEntry))) := by
  have makes : Keeps (fun before after => before.disk.StaysSound after.disk)
      (Host.onDisk (makePath path)) := .within (makePath_staysSound path) fun _ _ stays => stays
  exact prepare_keeps (Disk.StaysSound.accumulates.on Running.disk)
    (fun _ _ still => still.staysSound) path (.explaining (.within makes fun _ _ stays => stays))

omit [Connection κ] [Sandbox ς] in
/-- A run that is no rehearsal opens the directory that the path of the root leads to. -/
theorem openRoot_opens {υ δ : Type} {start : Running υ δ ς κ}
    (acts : start.endpoint.options.dryRun = false) :
    Meets (openRoot path) start
      (fun found _ => ∃ root, found = some root ∧
        start.disk.tree.resolveDirectory start.disk.workingDirectory path = .ok root)
      (fun _ _ => True) := by
  have opens : Meets (Destination.openRoot path) start.disk
      (fun root _ => start.disk.tree.resolveDirectory start.disk.workingDirectory path = .ok root)
      (fun _ _ => True) :=
    Meets.get ((Disk.look_meets _).mono (fun _ _ met => met.2) fun _ _ _ => trivial)
  have reaches : Meets (onRoot "open" path (Destination.openRoot path)) start
      (fun root _ => start.disk.tree.resolveDirectory start.disk.workingDirectory path = .ok root)
      (fun _ _ => True) := Meets.explaining (Meets.within (Meets.within opens))
  refine options_then (Meets.cond (fun dry => ?_) fun _ => ?_)
  · rw [acts] at dry
    cases dry
  · exact reaches.bind fun root _ led => Meets.pure ⟨root, rfl, led⟩

omit [Connection κ] [Sandbox ς] in
/-- How the root is cleared is a matter of what pruning does with what was found. -/
theorem clear_meets {leaves : Removals → Tree → Prop} (prunes : opened.endpoint.prune = pruneAll)
    (opens : opened.disk.tree.resolveDirectory opened.disk.workingDirectory path = .ok root)
    (keeps : opened.endpoint.options.deletes = false → leaves {} opened.disk.tree)
    (pruned : ∀ found inside, inside.disk = opened.disk → Finds path root opened.disk found →
      Meets (pruneAll root found files) inside
        (fun removals after => leaves removals after.disk.tree) fun _ _ => True) :
    Meets (clear path (some root) files) opened
      (fun removals after => leaves removals after.disk.tree) (fun _ _ => True) := by
  refine Meets.get (Meets.cond (fun _ => ?_) fun kept =>
    Meets.pure (keeps (Bool.eq_false_iff.mpr kept)))
  have finds : Meets (contents path) ⟨opened.disk, opened.inflow.journal⟩ _ _ :=
    contents_finds opens
  refine Meets.withinThen finds (fun _ _ _ => trivial) fun found inside met => ?_
  obtain ⟨same, finds⟩ := met
  unfold removeFound
  rw [prunes]
  exact Meets.within (pruned found inside same finds)

omit [Connection κ] in
/-- Confining the run leaves the root as it was cleared. -/
theorem makeReady_meets {leaves : Removals → Tree → Prop} {directory : Option Location}
    (cleared : Meets (clear path directory files) opened
      (fun removals after => leaves removals after.disk.tree) (fun _ _ => True)) :
    Meets (makeReady path directory files) opened
      (fun removals after => leaves removals after.disk.tree) (fun _ _ => True) := by
  rw [makeReady_eq]
  refine cleared.bind fun removals cleared leaves => ?_
  have encloses : Keeps (Proceeds fun _ _ => False)
      (enclose path removals : Step FileRequester FileCollector ς κ Removals) (· = removals) :=
    enclose_proceeds path removals
  refine (encloses cleared).mono ?_ fun _ _ _ => trivial
  rintro _ after ⟨still, rfl⟩
  rw [still.disk.still]
  exact leaves

omit [Connection κ] in
theorem makeReady_clears (deletes : opened.endpoint.options.deletes = true)
    (prunes : opened.endpoint.prune = pruneAll) (sound : opened.disk.Sound)
    (opens : opened.disk.tree.resolveDirectory opened.disk.workingDirectory path = .ok root) :
    Meets (makeReady path (some root) files) opened
      (fun removals after => Clears path files root opened.disk removals after.disk.tree)
      (fun _ _ => True) := by
  refine makeReady_meets (clear_meets prunes opens (fun keeps => ?_) fun _ _ same finds =>
    pruneAll_clears files sound same finds)
  cases deletes.symm.trans keeps

omit [Sandbox ς] in
theorem finishing_clears (opened : task.root = some root)
    (clears : Clears path task.files root before removals ready.disk.tree) :
    Meets (finishing path task removals) ready
      (fun outcome after => Clears path task.files root before outcome.removals after.disk.tree)
      (fun _ _ => True) := by
  have idle : (beginExchange task.files.length ready : Exchange.WholeFiles κ).pending = none := rfl
  have exchanged : Meets (Exchange.run task ready.endpoint.patience)
      (beginExchange task.files.length ready)
      (fun _ last => Clears path task.files root before removals last.disk.tree)
      (fun _ _ => True) :=
    (Exchange.run_books ready.endpoint.patience idle).mono
      (fun _ _ ⟨_, _, books⟩ => clears.onward (fun _ => books.stays) fun _ => books.comes opened)
      fun _ _ _ => trivial
  refine (exchange_runs exchanged).followedBy (fun _ _ _ => trivial) fun _ _ ended => ?_
  obtain ⟨last, clears, rfl⟩ := ended
  refine (conclude_proceeds (endExchange last ready)).mono ?_ fun _ _ _ => trivial
  rintro outcome after ⟨adorns, rfl⟩
  have there (place : Location) :
      after.disk.tree.get? place = none ↔ last.disk.tree.get? place = none := by
    have same : after.disk.tree.outline place = last.disk.tree.outline place := adorns.outline place
    rw [← Tree.outline_eq_none, same, Tree.outline_eq_none]
  exact clears.onward (fun place => (there place).not.mpr) fun place here =>
    .inl ((there place).not.mp here)

/-- A run that ends well and may remove leaves nothing beneath its root but what the list names,
unless the path of the root ends in a link: behind that, it removes nothing. -/
theorem run_clears {options : Options} {sandbox : ς} {patience : Nat} {connection : κ}
    {disk : Disk} (sound : disk.Sound) (recursive : options.recursive = true)
    (delete : options.delete = true) (acts : options.dryRun = false)
    (ran : run path (.start (.wholeFiles options sandbox patience) connection disk) =
      .ok outcome final)
    (received : outcome.skippedEmpty = false) :
    ∃ task opened root,
      opening path (.start (.wholeFiles options sandbox patience) connection disk) =
        .ok (some task) opened ∧
      task.root = some root ∧
      opened.disk.tree.resolveDirectory opened.disk.workingDirectory path = .ok root ∧
      Clears path task.files root opened.disk outcome.removals final.disk.tree := by
  obtain ⟨task, opened, removals, ready, after, opens, readied, finished, rfl⟩ :=
    run_ok ran received
  obtain ⟨prepared, listed, reached, _⟩ := opening_ok opens
  have prepares := ((prepare_proceeds path _).of_ok listed).1
  have still : Proceeds (fun _ _ => False) (prepared.withUmask 0) opened :=
    ((openRoot_proceeds path _).of_ok reached).1
  have same : opened.endpoint.options = options := still.options.trans prepares.options
  have live : (prepared.withUmask 0).endpoint.options.dryRun = false :=
    (congrArg Options.dryRun prepares.options).trans acts
  obtain ⟨root, open', led⟩ := (openRoot_opens live).of_ok reached
  have clean : prepared.disk.Sound := ((prepare_staysSound path _).of_ok listed).1 sound
  have led : opened.disk.tree.resolveDirectory opened.disk.workingDirectory path = .ok root := by
    rw [still.disk.still, still.disk.workingDirectory]
    exact led
  have deletes : opened.endpoint.options.deletes = true := by
    simp [same, Options.deletes, recursive, delete]
  have prunes : opened.endpoint.prune = pruneAll := still.prune.trans prepares.prune
  rw [open'] at readied
  have clears := (makeReady_clears deletes prunes (still.staysSound (clean.of_same rfl rfl)) led).of_ok
    readied
  let checked : Task := { task with checksum := ready.endpoint.options.checksum }
  have rooted : checked.root = some root := open'
  have leaves : Clears path task.files root opened.disk outcome.removals after.disk.tree :=
    (finishing_clears rooted clears).of_ok finished
  exact ⟨task, opened, root, opens, open', led, leaves⟩

/-- A directory with one file, and a link to that directory. -/
def aliasedTree : Tree :=
  (((Tree.empty.set [] (.directory ⟨0o755, 0⟩)).set [[114]] (.directory ⟨0o755, 0⟩)).set
    [[111], [114]] (.file ⟨0o644, 0⟩ [1])).set [[100]] (.link ⟨[114]⟩)

/-- A run that is sent an empty list and may remove. -/
def sweep : Running FileRequester FileCollector StrictSandbox StagedConnection :=
  .start (.wholeFiles { server := true, recursive := true, delete := true } {} 0)
    (.start [⟨0, Wire.intBytes 0 ++ Wire.intBytes 0⟩,
      ⟨4, Wire.intBytes Wire.doneIndex ++ Wire.intBytes Wire.doneIndex⟩] .half none)
    { tree := aliasedTree }

theorem run_clears_directory :
    ∃ outcome final task opened root, run ⟨[114]⟩ sweep = .ok outcome final ∧
      outcome.skippedEmpty = false ∧ outcome.removals = ⟨1, 0⟩ ∧
      opening ⟨[114]⟩ sweep = .ok (some task) opened ∧
      Clears ⟨[114]⟩ task.files root opened.disk outcome.removals final.disk.tree := by
  have sound : sweep.disk.Sound :=
    ⟨Tree.proper_of_entries (by decide), Tree.closed_of_entries (by decide), ⟨_, rfl⟩⟩
  have ends : endsIn (run ⟨[114]⟩ sweep) (fun outcome _ =>
      decide (outcome.skippedEmpty = false ∧ outcome.removals = ⟨1, 0⟩)) = true := by
    decide +kernel
  obtain ⟨outcome, final, ran, seen⟩ := of_endsIn ends
  obtain ⟨received, removed⟩ := of_decide_eq_true seen
  obtain ⟨task, opened, root, opens, _, _, clears⟩ := run_clears sound rfl rfl rfl ran received
  exact ⟨outcome, final, task, opened, root, ran, received, removed, opens, clears⟩

/-- By way of the link, the same run ends well and leaves a file that no list named. -/
theorem run_leaves_unlisted :
    ∃ outcome final task opened, run ⟨[100]⟩ sweep = .ok outcome final ∧
      outcome.skippedEmpty = false ∧ sweep.endpoint.options.deletes = true ∧
      sweep.endpoint.options.dryRun = false ∧
      opening ⟨[100]⟩ sweep = .ok (some task) opened ∧ task.root = some [[114]] ∧
      final.disk.tree.get? [[111], [114]] = some (.file ⟨0o644, 0⟩ [1]) ∧
      ∀ entry ∈ task.files,
        entry.path.normalized ≠ (Location.pathTo [[114]] [[111], [114]]).normalized := by
  have ends : endsIn (run ⟨[100]⟩ sweep) (fun outcome final =>
      decide (outcome.skippedEmpty = false ∧
        final.disk.tree.get? [[111], [114]] = some (.file ⟨0o644, 0⟩ [1]))) = true := by
    decide +kernel
  have opens : endsIn (opening ⟨[100]⟩ sweep) (fun task _ =>
      task.any fun task => decide (task.root = some [[114]] ∧ task.files = [])) = true := by
    decide +kernel
  obtain ⟨outcome, final, ran, seen⟩ := of_endsIn ends
  obtain ⟨received, stands⟩ := of_decide_eq_true seen
  obtain ⟨task?, opened, reached, met⟩ := of_endsIn opens
  obtain ⟨task, rfl, listed⟩ := (Option.any_eq_true _ _).mp met
  obtain ⟨root, nothing⟩ := of_decide_eq_true listed
  exact ⟨outcome, final, task, opened, ran, received, rfl, rfl, reached, root, stands, by simp [nothing]⟩

end Running

end TreeSync

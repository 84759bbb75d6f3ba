import TreeSync.Proofs.Run.Stages
import TreeSync.Rehearsal.StagedConnection

namespace TreeSync

/-! A run changes nothing outside its root. -/

open TreeSync.Action

/-- A change within the directory that is open, if one is. -/
def Change.WithinOpen (opened : Option Location) (tree : Tree) (change : Change) : Prop :=
  ∃ root, opened = some root ∧ change.Within root tree

/-- A place that no open directory leads to. -/
def Location.Outside (opened : Option Location) (place : Location) : Prop :=
  ∀ root, opened = some root → ¬ root <:+ place

/-- A disk that was changed within the open directory only, and not at all if none is open:
what stands elsewhere is as it was, and so are the entries of the directories elsewhere. -/
structure Disk.ConfinedTo (opened : Option Location) (before after : Disk) : Prop where
  changes : ∃ made, after.changes = before.changes ++ made ∧
    Tree.Replays (Change.WithinOpen opened) before.clock before.tree made after.tree
  nodes : ∀ place, Location.Outside opened place →
    after.tree.get? place = before.tree.get? place
  names : ∀ directory, Location.Outside opened directory → ∀ name,
    name ∈ after.tree.namesIn directory ↔ name ∈ before.tree.namesIn directory

namespace Tree.Replays

variable {opened : Option Location} {place : Location} {time : Int64} {before after : Tree}
  {made : List Change}

theorem get?_outside (replays : Replays (Change.WithinOpen opened) time before made after)
    (outside : Location.Outside opened place) : after.get? place = before.get? place := by
  induction replays with
  | done => rfl
  | step fine _ ih =>
      obtain ⟨root, open', within⟩ := fine
      rw [ih, within.get?_outside (outside root open')]

theorem isDirectory_root {root : Location}
    (replays : Replays (Change.WithinOpen (some root)) time before made after) :
    (after.get? root).map Node.isDirectory = (before.get? root).map Node.isDirectory := by
  induction replays with
  | done => rfl
  | step fine _ ih =>
      obtain ⟨root', same, within⟩ := fine
      cases same
      rw [ih, within.isDirectory_root]

/-- An entry of a directory elsewhere is elsewhere too, unless it is the root. -/
theorem mem_namesIn_outside
    (replays : Replays (Change.WithinOpen opened) time before made after)
    {directory : Location} (outside : Location.Outside opened directory) (name : Name) :
    name ∈ after.namesIn directory ↔ name ∈ before.namesIn directory := by
  have same : (after.get? (name :: directory)).isSome = (before.get? (name :: directory)).isSome := by
    by_cases root : opened = some (name :: directory)
    · subst root
      have kind := congrArg Option.isSome replays.isDirectory_root
      rwa [Option.isSome_map, Option.isSome_map] at kind
    · have apart : Location.Outside opened (name :: directory) := by
        intro root' open' inside
        rcases List.suffix_cons_iff.mp inside with itself | further
        · exact root (itself ▸ open')
        · exact outside root' open' further
      rw [replays.get?_outside apart]
  rw [mem_namesIn, mem_namesIn, ← Option.isSome_iff_exists, ← Option.isSome_iff_exists, same]

end Tree.Replays

theorem Disk.Evolves.confinedTo {opened : Option Location} {before after : Disk}
    (evolves : Evolves (Change.WithinOpen opened) before after) :
    ConfinedTo opened before after := by
  obtain ⟨made, recorded, replays⟩ := evolves.replays
  exact ⟨⟨made, recorded, replays⟩, fun _ => replays.get?_outside,
    fun _ => replays.mem_namesIn_outside⟩

namespace Running

variable {κ ς : Type} [Connection κ] [Sandbox ς]

omit [Connection κ] [Sandbox ς] in
theorem Proceeds.withinOpen {before after : Running FileRequester FileCollector ς κ}
    {opened : Option Location} (proceeds : Proceeds (Change.TidiesOpen opened) before after) :
    Disk.Evolves (Change.WithinOpen opened) before.disk after.disk := by
  refine proceeds.disk.mono fun _ _ tidies => ?_
  obtain ⟨root, open', fine⟩ := tidies
  exact ⟨root, open', fine.2⟩

theorem fill_evolves {before : Running FileRequester FileCollector ς κ} {path : Path}
    {opened : Option Location} {files : List ListEntry} {umask : UInt32}
    (prunes : before.endpoint.prune = Destination.pruneAll) :
    Disk.Evolves (Change.WithinOpen opened) before.disk
      (stateAfter (fill path opened files umask) before).disk := by
  refine Meets.stateAfter ((makeReady_proceeds prunes).followedBy
    (fun _ _ proceeds => proceeds.withinOpen) fun removals ready proceeds => options_then ?_)
  have readied := proceeds.withinOpen
  let task : Task :=
    { root := opened, files, checksum := ready.endpoint.options.checksum, umask }
  let first : Exchange.WholeFiles κ := beginExchange files.length ready
  have exchanged : Disk.Evolves task.Confines first.disk
      (stateAfter (Exchange.run task ready.endpoint.patience) first).disk :=
    Exchange.run_evolves ready.endpoint.patience rfl
  have confined := readied.trans (exchanged.mono fun _ _ fine => fine)
  refine (exchange_meets (fun last => Disk.Evolves (Change.WithinOpen opened) before.disk last.disk)
    confined).followedBy ?_ ?_
  · intro _ _ ended
    obtain ⟨last, confined, rfl⟩ := ended
    exact confined
  · intro _ _ ended
    obtain ⟨last, confined, rfl⟩ := ended
    refine (conclude_proceeds (endExchange last ready)).mono ?_ ?_
    · exact fun _ _ concluded => confined.trans concluded.1.adorned.withinOpen
    · exact fun _ _ concluded => confined.trans concluded.adorned.withinOpen

variable {options : Options} {sandbox : ς} {patience : Nat} {connection : κ} {disk : Disk}
  {path : Path} {task : Task} {opened : Running FileRequester FileCollector ς κ}

/-- Whatever the peer sends and whatever the tree holds, a run that has opened its root
changes nothing that the root does not lead to without following a link. -/
theorem run_confinedTo
    (opens : opening path (.start (.wholeFiles options sandbox patience) connection disk) =
      .ok (some task) opened) :
    Disk.ConfinedTo task.root opened.disk
      (stateAfter (run path)
        (.start (.wholeFiles options sandbox patience) connection disk)).disk := by
  rw [stateAfter_congr (run_of_opening opens), stateAfter_ensuring]
  obtain ⟨prepared, listed, rootOpened, _⟩ := opening_ok opens
  have prepares := (prepare_proceeds path _).of_ok listed
  have opensRoot : Proceeds (fun _ _ => True) (prepared.withUmask 0) opened :=
    ((openRoot_proceeds path _).of_ok rootOpened).1
  have prunes : opened.endpoint.prune = Destination.pruneAll :=
    opensRoot.prune.trans prepares.1.prune
  have filled : Disk.Evolves (Change.WithinOpen task.root) opened.disk
      (stateAfter (fill path task.root task.files task.umask) opened).disk :=
    fill_evolves prunes
  obtain ⟨changes, nodes, names⟩ := filled.confinedTo
  exact ⟨changes, nodes, names⟩

/-- Beside the directory `d` stands `o/f`, and the entry `l` of `d` is a link to it. -/
def linkedTree : Tree :=
  ((((Tree.empty.set [] (.directory ⟨0o755, 0⟩)).set [[100]] (.directory ⟨0o755, 0⟩)).set
    [[111]] (.directory ⟨0o755, 0⟩)).set [[102], [111]] (.file ⟨0o644, 5⟩ [1, 2])).set
    [[108], [100]] (.link ⟨[46, 46, 47, 111, 47, 102]⟩)

def linkedStream : Bytes :=
  Wire.intBytes 1 ++ [108] ++ Wire.intBytes 0o100644 ++ Wire.intBytes 0 ++ Wire.intBytes 1 ++
    Wire.intBytes 0 ++ Wire.intBytes 0 ++ FileCollector.headBytes 0 0 0 0 ++
    FileCollector.pieceBytes [120] ++ Wire.intBytes 0 ++ Wire.intBytes Wire.doneIndex ++
    Wire.intBytes Wire.doneIndex

def linkedStart : Running FileRequester FileCollector StrictSandbox StagedConnection :=
  .start (.wholeFiles { server := true } {} 0) (.start [⟨0, linkedStream⟩] .half none)
    { tree := linkedTree }

theorem run_confinedTo_replacing_link :
    ∃ task opened, opening ⟨[100]⟩ linkedStart = .ok (some task) opened ∧
      task.root = some [[100]] ∧
      (stateAfter (run ⟨[100]⟩) linkedStart).disk.changes.length = 4 ∧
      Disk.ConfinedTo task.root opened.disk (stateAfter (run ⟨[100]⟩) linkedStart).disk := by
  have opens : endsIn (opening ⟨[100]⟩ linkedStart) (fun task _ =>
      task.any (·.root == some [[100]])) = true := by
    decide +kernel
  obtain ⟨task?, opened, reached, seen⟩ := of_endsIn opens
  obtain ⟨task, rfl, root⟩ := (Option.any_eq_true _ _).mp seen
  exact ⟨task, opened, reached, eq_of_beq root, by decide +kernel, run_confinedTo reached⟩

end Running

end TreeSync

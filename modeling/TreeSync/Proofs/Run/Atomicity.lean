import TreeSync.Proofs.Run.Ledger
import TreeSync.Proofs.Run.OutsideRoot

namespace TreeSync

/-! Files appear whole, and nothing half received is left behind. -/

open TreeSync.Action

/-- The directory that a path beneath `root` names an entry of, and the name it has there.
The root stands for itself. -/
def Path.seatBeneath (root : Location) (path : Path) : Option (Location × Name) :=
  (path.placeBeneath root).map fun place =>
    if place = root then (root, selfName) else (place.tail, place.headD [])

theorem Tree.Seats.seatBeneath {tree : Tree} {root parent : Location} {path : Path} {name : Name}
    (seats : tree.Seats root path parent name) : path.seatBeneath root = some (parent, name) := by
  unfold Path.seatBeneath
  cases seats with
  | itself place => simp [place]
  | entry leads plain place =>
      have apart : name :: parent ≠ root := by
        intro same
        have shorter := leads.suffix.length_le
        rw [← same, List.length_cons] at shorter
        omega
      simp [place, apart]

/-- Whether `place` has the name that was drawn at random since for the temporary file of some
entry. -/
def Task.Collides (task : Task) (first now : Disk) (place : Location) : Prop :=
  ∃ root parent name turn, task.root = some root ∧ first.draws ≤ turn ∧ turn < now.draws ∧
    (∃ entry ∈ task.files, entry.isRegular = true ∧
      entry.path.seatBeneath root = some (parent, name)) ∧
    place = Temporary.nameFor name (first.entropy turn) :: parent

/-- Whether `place` has a temporary file that was left to itself: it was made last, and the system
refuses the descriptor of its directory that it was to be given up by. -/
structure Task.Strays (task : Task) (first now : Disk) (place : Location) : Prop where
  collides : task.Collides first now place
  made : ∃ permissions, now.changes.getLast? = some (.madeFile place permissions)
  refused : now.refusalOf (.duplicate place.tail) ≠ none

def Task.NamesDirectory (task : Task) (place : Location) : Prop :=
  ∃ root, task.root = some root ∧ ∃ entry ∈ task.files, entry.isDirectory = true ∧
    entry.path.placeBeneath root = some place

/-- Whether a place holds what it held at first, or a complete file that one of the replies
brought. -/
def Task.ShowsWhole (task : Task) (collector : FileCollector) (replies : List Reply)
    (first now : Tree) (place : Location) : Prop :=
  now.sight place = first.sight place ∨ task.Delivered collector replies now place

theorem Task.ShowsWhole.of_sight {task : Task} {collector : FileCollector} {replies : List Reply}
    {first now after : Tree} {place : Location}
    (shown : task.ShowsWhole collector replies first now place)
    (same : after.sight place = now.sight place) :
    task.ShowsWhole collector replies first after place :=
  shown.imp same.trans fun complete => complete.of_sight (List.Subset.refl _) same

namespace Task

variable {task : Task} {collector : FileCollector} {first now after : Disk}
  {pending : Option ArrivingFile} {replies : List Reply} {draft : Option Reply} {place : Location}

/-- What a place holds that no directory of the list goes to. -/
theorem Books.places (books : task.Books collector first now pending replies draft)
    (noDirectory : ¬ task.NamesDirectory place) :
    task.ShowsWhole collector replies first.tree now.tree place ∨
      ∃ arriving, pending = some arriving ∧ arriving.temporary.file = place := by
  cases books.holding place with
  | kept same => exact .inl (.inl same)
  | delivered complete => exact .inl (.inr complete)
  | prepared opened listed kind placed _ =>
      exact absurd ⟨_, opened, _, listed, kind, placed⟩ noDirectory
  | arriving here => exact .inr (Option.map_eq_some_iff.mp here)

/-- Where a file may come from. -/
theorem Books.files (books : task.Books collector first now pending replies draft)
    (stands : now.tree.HasFile place) :
    task.ShowsWhole collector replies first.tree now.tree place ∨
      ∃ arriving, pending = some arriving ∧ arriving.temporary.file = place := by
  cases books.holding place with
  | kept same => exact .inl (.inl same)
  | delivered complete => exact .inl (.inr complete)
  | prepared _ _ _ _ _ directory => exact absurd directory stands.not_hasDirectory
  | arriving here => exact .inr (Option.map_eq_some_iff.mp here)

/-- All that a file that is left to itself changes is its own place. -/
theorem Strands.strays {allowed : Tree → Change → Prop} (strands : task.Strands now after)
    (evolves : Disk.Evolves allowed first now) :
    ∃ stray, task.Strays first after stray ∧
      ∀ place, place ≠ stray → after.tree.sight place = now.tree.sight place := by
  obtain ⟨opened, listed, kind, seats, stranded⟩ := strands
  obtain ⟨drawn, rfl, named, -⟩ := stranded.fresh
  have made := stranded.made
  subst made
  refine ⟨_, ⟨?_, ⟨_, List.getLast?_concat⟩, ?_⟩, fun place apart => ?_⟩
  · rw [named.file, evolves.entropy]
    exact ⟨_, _, _, _, opened, Nat.le_trans evolves.draws drawn, Nat.lt_succ_self _,
      ⟨_, listed, kind, seats.seatBeneath⟩, rfl⟩
  · rw [named.file]
    exact stranded.refused
  · exact Change.sight_apply_of_not_altered fun altered => apart (List.mem_singleton.mp altered)

end Task

namespace Exchange

variable {κ : Type} {task : Task} {first now : WholeFiles κ} {collector : FileCollector}
  {replies : List Reply} {draft : Option Reply}

def HoldsDraft (now : WholeFiles κ) (place : Location) : Prop :=
  ∃ arriving, now.pending = some arriving ∧ arriving.temporary.file = place

/-- What the tree shows of the files of a task, between two steps or in the end. -/
structure Intact (task : Task) (collector : FileCollector) (first now : WholeFiles κ)
    (replies : List Reply) : Prop where
  /-- A place is shown whole, if its name was not drawn for a temporary file. -/
  places : ∀ place, ¬ task.NamesDirectory place → ¬ task.Collides first.disk now.disk place →
    task.ShowsWhole collector replies first.disk.tree now.disk.tree place
  /-- Where it was drawn, the place is shown whole as long as no file in progress has it. -/
  lenders : ∀ place, ¬ task.NamesDirectory place → ¬ HoldsDraft now place →
    ¬ task.Strays first.disk now.disk place →
      task.ShowsWhole collector replies first.disk.tree now.disk.tree place
  /-- The temporary file of the file in progress is there, where nothing was. -/
  temporary : ∀ place, HoldsDraft now place →
    now.disk.tree.HasFile place ∧ first.disk.tree.get? place = none ∧
      task.Collides first.disk now.disk place
  /-- There are no other files than those. -/
  files : ∀ place, now.disk.tree.HasFile place →
    task.ShowsWhole collector replies first.disk.tree now.disk.tree place ∨
      HoldsDraft now place ∨ task.Strays first.disk now.disk place

theorem HoldsDraft.drawn {place : Location} (holds : HoldsDraft now place)
    (sound : Sound task now)
    (drafts : Drafts first.disk now.disk now.pending draft) :
    now.disk.tree.HasFile place ∧ first.disk.tree.get? place = none ∧
      task.Collides first.disk now.disk place := by
  obtain ⟨arriving, held, rfl⟩ := holds
  obtain ⟨root, entry, belongs⟩ := sound arriving held
  rw [held] at drafts
  cases drafts with
  | begun _ _ stands unseen early late named =>
      obtain ⟨attributes, found⟩ := stands
      refine ⟨⟨attributes, _, found⟩, unseen, ⟨root, _, _, _, belongs.opened, early, late, ?_, named⟩⟩
      exact ⟨entry, List.mem_of_getElem? belongs.listed, belongs.kind, belongs.seats.seatBeneath⟩

theorem Intact.of_books (sound : Sound task now)
    (books : task.Books collector first.disk now.disk now.pending replies draft) :
    Intact task collector first now replies where
  places place noDirectory apart := by
    rcases books.places noDirectory with whole | holds
    · exact whole
    · exact absurd (HoldsDraft.drawn holds sound books.drafts).2.2 apart
  lenders place noDirectory free _ := by
    rcases books.places noDirectory with whole | holds
    · exact whole
    · exact absurd holds free
  temporary place holds := holds.drawn sound books.drafts
  files _ stands := (books.files stands).imp_right .inl

/-- A file left to itself changes nothing elsewhere. -/
theorem Intact.of_strands {middle : Disk} (idle : now.pending = none)
    (evolves : Disk.Evolves task.Confines first.disk middle)
    (books : task.Books collector first.disk middle none replies draft)
    (strands : task.Strands middle now.disk) : Intact task collector first now replies := by
  obtain ⟨stray, strays, elsewhere⟩ := strands.strays evolves
  have places {place : Location} (noDirectory : ¬ task.NamesDirectory place)
      (apart : place ≠ stray) :
      task.ShowsWhole collector replies first.disk.tree now.disk.tree place := by
    rcases books.places noDirectory with shown | ⟨_, held, _⟩
    · exact shown.of_sight (elsewhere place apart)
    · cases held
  constructor
  case places =>
    intro place noDirectory apart
    exact places noDirectory fun same => apart (same ▸ strays.collides)
  case lenders =>
    intro place noDirectory _ apart
    exact places noDirectory fun same => apart (same ▸ strays)
  case temporary =>
    intro place holds
    obtain ⟨arriving, held, -⟩ := holds
    cases idle.symm.trans held
  case files =>
    intro place stands
    by_cases same : place = stray
    · exact .inr (.inr (same ▸ strays))
    · rcases books.files (stands.of_sight (elsewhere place same).symm) with shown | ⟨_, held, _⟩
      · exact .inl (shown.of_sight (elsewhere place same))
      · cases held

variable [Connection κ]

/-- Whether the replies are those received in full when the exchange came to a state. -/
def Accounted (task : Task) (first now : WholeFiles κ) (replies : List Reply) : Prop :=
  ∃ before draft, Takes task first (bytesOf replies draft) before ∧
    (now = before ∨ Closes task before now)

/-- What an exchange leaves at any moment is accounted for by the replies it received. -/
theorem Visits.holds (visited : Visits task first now) (idle : first.pending = none) :
    ∃ replies draft, Accounted task first now replies ∧
      Holds task first now replies draft := by
  rcases visited with advanced | closed
  · obtain ⟨replies, draft, ledger⟩ := advanced.ledger idle
    exact ⟨replies, draft, ⟨now, draft, ledger.takes, .inl rfl⟩, .books ledger.books⟩
  · obtain ⟨before, advanced, closes⟩ := closed
    obtain ⟨replies, draft, ledger⟩ := advanced.ledger idle
    obtain ⟨evolves, sound⟩ := advanced.visits.evolves idle
    obtain ⟨draft', holds⟩ := ledger.closed evolves sound closes
    exact ⟨replies, draft', ⟨before, draft, ledger.takes, .inr closes⟩, holds⟩

theorem Visits.intact (visited : Visits task first now) (idle : first.pending = none) :
    ∃ replies, Accounted task first now replies ∧
      Intact task first.downloader first now replies := by
  obtain ⟨_, sound⟩ := visited.evolves idle
  obtain ⟨replies, draft, accounted, holds⟩ := visited.holds idle
  refine ⟨replies, accounted, ?_⟩
  cases holds with
  | books books => exact .of_books sound books
  | stranded idle evolves books strands => exact .of_strands idle evolves books strands

end Exchange

/-- Whether one of the replies brought a file with that content to a place. -/
def Task.Brought (task : Task) (collector : FileCollector) (replies : List Reply)
    (place : Location) (content : Bytes) : Prop :=
  ∃ reply ∈ replies, reply.content = content ∧ ∃ node, reply.Becomes task collector place node

theorem Task.Delivered.brought {task : Task} {collector : FileCollector} {replies : List Reply}
    {tree : Tree} {place : Location} {content : Bytes}
    (delivered : task.Delivered collector replies tree place)
    (stands : tree.FileWith place content) : task.Brought collector replies place content := by
  obtain ⟨reply, received, node, becomes, found⟩ := delivered
  obtain ⟨attributes, there⟩ := stands
  have same : node = .file attributes content := Option.some.inj (found.symm.trans there)
  refine ⟨reply, received, ?_, node, becomes⟩
  cases becomes
  cases same
  rfl

/-- Whether the files of a disk are those that stood before an exchange and those that replies
brought. One that was left to itself when the exchange ended, on the disk `last`, may be there as
well. -/
def Task.AddsBrought (task : Task) (collector : FileCollector) (replies : List Reply)
    (before last after : Disk) : Prop :=
  ∀ place content, after.tree.FileWith place content →
    before.tree.FileWith place content ∨ task.Brought collector replies place content ∨
      task.Strays before last place

theorem Task.Books.addsBrought {task : Task} {collector : FileCollector} {replies : List Reply}
    {draft : Option Reply} {first now : Disk}
    (books : task.Books collector first now none replies draft) (last : Disk) :
    task.AddsBrought collector replies first last now := by
  intro place content stands
  obtain ⟨attributes, found⟩ := stands
  rcases books.files ⟨attributes, content, found⟩ with (same | complete) | ⟨_, held, _⟩
  · rw [← Tree.sight_eq_file, same, Tree.sight_eq_file] at found
    exact .inl ⟨attributes, found⟩
  · exact .inr (.inl (complete.brought ⟨attributes, found⟩))
  · cases held

/-- An exchange leaves no file that it made and did not finish, however it ends. Only one that was
left to itself stays. -/
theorem Exchange.run_addsBrought {κ : Type} [Connection κ] (task : Task) {first : WholeFiles κ}
    (patience : Nat) (idle : first.pending = none) :
    ∃ last replies, Visits task first last ∧ Accounted task first last replies ∧
      task.AddsBrought first.downloader replies first.disk last.disk
        (stateAfter (run task patience) first).disk := by
  obtain ⟨last, visited, ended⟩ := run_visits task first patience
  obtain ⟨_, sound⟩ := visited.evolves idle
  obtain ⟨replies, _, accounted, holds⟩ := visited.holds idle
  refine ⟨last, replies, visited, accounted, ?_⟩
  rw [ended]
  cases holds with
  | books books =>
      obtain ⟨draft, books⟩ := abandonPending_books sound books
      exact books.addsBrought last.disk
  | stranded idle evolves books strands =>
      obtain ⟨stray, strays, elsewhere⟩ := strands.strays evolves
      rw [abandonPending_idle idle]
      intro place content stands
      by_cases same : place = stray
      · exact .inr (.inr (same ▸ strays))
      · exact books.addsBrought last.disk place content
          (stands.of_sight (elsewhere place same).symm)

namespace Running

variable {κ ς : Type} [Connection κ] [Sandbox ς] {path : Path} {task : Task} {removals : Removals}
  {start ready : Running FileRequester FileCollector ς κ}

/-- Whether a disk has no files but those that stood before the exchange and those that replies
brought, one left to itself aside. `collector` tells which attributes the replies give. -/
def LeavesWhole (collector : FileCollector) (task : Task)
    (ready : Running FileRequester FileCollector ς κ) (after : Disk) : Prop :=
  ∃ last replies, Exchange.Visits task (beginExchange task.files.length ready) last ∧
    Exchange.Accounted task (beginExchange task.files.length ready) last replies ∧
    task.AddsBrought collector replies ready.disk last.disk after

omit [Sandbox ς] in
theorem LeavesWhole.addsNoFile {collector : FileCollector} {middle after : Disk}
    (leaves : LeavesWhole collector task ready middle) (adds : Disk.AddsNoFile middle after) :
    LeavesWhole collector task ready after := by
  obtain ⟨last, replies, visited, accounted, brought⟩ := leaves
  exact ⟨last, replies, visited, accounted,
    fun place content stands => brought place content (adds place content stands)⟩

omit [Sandbox ς] in
theorem finishing_leaves :
    LeavesWhole ready.endpoint.downloader task ready
      (stateAfter (finishing path task removals) ready).disk := by
  let collector := ready.endpoint.downloader
  have exchanged : LeavesWhole collector task ready
      (stateAfter (Exchange.run task ready.endpoint.patience)
        (beginExchange task.files.length ready)).disk :=
    Exchange.run_addsBrought task ready.endpoint.patience rfl
  have ends : Meets (finishing path task removals) ready
      (fun _ after => LeavesWhole collector task ready after.disk)
      (fun _ after => LeavesWhole collector task ready after.disk) := by
    refine (exchange_meets (fun last => LeavesWhole collector task ready last.disk)
      exchanged).followedBy ?_ ?_
    · intro _ _ ended
      obtain ⟨last, leaves, rfl⟩ := ended
      exact leaves
    · intro _ _ ended
      obtain ⟨last, leaves, rfl⟩ := ended
      refine (conclude_proceeds (endExchange last ready)).mono ?_ ?_
      · exact fun _ _ concluded => leaves.addsNoFile concluded.1.adorned.tidies.files
      · exact fun _ _ concluded => leaves.addsNoFile concluded.adorned.tidies.files
  exact ends.stateAfter

/-- Whether a run of `task` shows files whole only, at every moment of its exchange and in the
end. -/
structure ShowsWhole (collector : FileCollector) (task : Task)
    (ready : Running FileRequester FileCollector ς κ) (final : Disk) : Prop where
  moments : ∀ now, Exchange.Visits task (beginExchange task.files.length ready) now →
    ∃ replies, Exchange.Accounted task (beginExchange task.files.length ready) now replies ∧
      Exchange.Intact task collector (beginExchange task.files.length ready) now replies
  ending : LeavesWhole collector task ready final

/-- Whatever ends a run, it shows files whole only, leaves no temporary file and puts the mask
back. A place whose name is drawn for a temporary file shows that file while it is in progress, and
a temporary file that the system refuses a descriptor for is left to itself. -/
theorem run_showsWhole (options : Options) (sandbox : ς) (patience : Nat) (connection : κ)
    (disk : Disk) (path : Path) :
    let start : Running FileRequester FileCollector ς κ :=
      .start (.wholeFiles options sandbox patience) connection disk
    let final := (stateAfter (run path) start).disk
    final.umask = disk.umask ∧
      (∀ task ready, readying path start = .ok (some task) ready →
        task.umask = disk.umask ∧ ready.disk.refusals = disk.refusals ∧
          Disk.AddsNoFile disk ready.disk ∧ ShowsWhole (.ofOptions options) task ready final) ∧
      ((∀ task ready, readying path start ≠ .ok (some task) ready) →
        Disk.AddsNoFile disk final) := by
  intro start final
  have readies : Meets (readying path) start (fun _ after => Readies start after)
      (fun _ after => Readies start after) := readying_meets rfl
  -- only a run that reaches its exchange makes files; the others end with the disk they readied
  cases prelude path start with
  | failed readied ran =>
      have ended : final = _ := congrArg Running.disk (stateAfter_error ran)
      refine ⟨by rw [ended]; rfl, fun task ready same => ?_, fun _ => ?_⟩
      · rw [readied] at same
        cases same
      · rw [ended]
        exact (readies.of_error readied).files
  | skipped readied ran =>
      have ended : final = _ := congrArg Running.disk (stateAfter_ok ran)
      refine ⟨by rw [ended]; rfl, fun task ready same => ?_, fun _ => ?_⟩
      · rw [readied] at same
        cases same
      · rw [ended]
        exact (readies.of_ok readied).files
  | @reached task removals ready readied umask ran =>
      have ended : final = _ :=
        congrArg Running.disk ((stateAfter_congr ran).trans (stateAfter_ensuring _ _ _))
      refine ⟨by rw [ended]; rfl, fun task' ready' same => ?_, fun other => ?_⟩
      · rw [readied] at same
        cases same
        have before := readies.of_ok readied
        have collector : ready.endpoint.downloader = .ofOptions options := before.downloader
        have leaves : LeavesWhole ready.endpoint.downloader task ready final := by
          rw [ended]
          exact finishing_leaves
        rw [collector] at leaves
        refine ⟨umask, before.refusals, before.files, ⟨fun now visited => ?_, leaves⟩⟩
        rw [← collector]
        exact visited.intact rfl
      · exact absurd readied (other task ready)

theorem run_showsWhole_of_linkedStart :
    ∃ task ready last replies, readying ⟨[100]⟩ linkedStart = .ok (some task) ready ∧
      Exchange.Visits task (beginExchange task.files.length ready) last ∧
      Exchange.Accounted task (beginExchange task.files.length ready) last replies ∧
      task.Brought (.ofOptions { server := true }) replies [[108], [100]] [120] := by
  have readied : endsIn (readying ⟨[100]⟩ linkedStart) (fun task ready =>
      decide (task.isSome ∧
        ready.disk.tree.get? [[108], [100]] = linkedTree.get? [[108], [100]])) = true := by
    decide +kernel
  have arrived : (stateAfter (run ⟨[100]⟩) linkedStart).disk.tree.get? [[108], [100]] =
      some (.file ⟨0o644, 0⟩ [120]) := by
    decide +kernel
  obtain ⟨task?, ready, reached, seen⟩ := of_endsIn readied
  obtain ⟨listed, link⟩ := of_decide_eq_true seen
  obtain ⟨task, rfl⟩ := Option.isSome_iff_exists.mp listed
  have whole := run_showsWhole { server := true } ({} : StrictSandbox) 0
    (StagedConnection.start [⟨0, linkedStream⟩] .half none) { tree := linkedTree } ⟨[100]⟩
  obtain ⟨-, refusals, -, shows⟩ := whole.2.1 task ready reached
  obtain ⟨last, replies, visited, accounted, brought⟩ := shows.ending
  refine ⟨task, ready, last, replies, reached, visited, accounted, ?_⟩
  rcases brought _ _ ⟨_, arrived⟩ with before | brought | strays
  · obtain ⟨attributes, found⟩ := before
    rw [link] at found
    cases found
  · exact brought
  · have same : last.disk.refusals = ready.disk.refusals := (visited.evolves rfl).1.refusals
    refine absurd ?_ strays.refused
    rw [Disk.refusalOf, same, refusals]

/-- A run that hears a list and what comes after it from the start. -/
def hearing (files : List ListEntry) (content : Bytes) (tree : Tree) :
    Running FileRequester FileCollector StrictSandbox StagedConnection :=
  .start (.wholeFiles { server := true } {} 0)
    (.start [⟨0, (FileList.write files).bytes ++ Wire.intBytes 0 ++ content⟩] .half none) { tree }

/-- The name of this file is drawn for the temporary file of another. -/
def lender : ListEntry :=
  .file ⟨asciiBytes ".a.AAAAAA"⟩ 0o644 0 5

def lendingFiles : List ListEntry :=
  [.file ⟨[97]⟩ 0o644 0 1, lender]

/-- Only the head of a reply for the first of them. -/
def lendingContent : Bytes :=
  Reply.opening ⟨0, 0, 2, 0, []⟩

/-- A file beyond the link `l`, in whose place the list has a file. -/
def beyond : ListEntry :=
  .file ⟨asciiBytes "l/x"⟩ 0o644 0 0

def turningFiles : List ListEntry :=
  [.file ⟨[108]⟩ 0o644 0 0, ⟨⟨[102]⟩, 0o120777, 0, 0⟩, beyond]

def turningContent : Bytes :=
  Reply.bytes ⟨0, 0, 2, 0, []⟩

/-- A directory with a link to the one that is in it, and a file there. -/
def turningTree : Tree :=
  ((((Tree.empty.set [] (.directory ⟨0o755, 0⟩)).set [[100]] (.directory ⟨0o755, 0⟩)).set
    [[115], [100]] (.directory ⟨0o755, 0⟩)).set [[120], [115], [100]] (.file ⟨0o600, 3⟩ [7])).set
    [[108], [100]] (.link ⟨[115]⟩)

/-- Not every place is shown whole at any moment: one whose name is drawn for a temporary file shows
that file. And a path through a link no longer leads to what it led to once a file takes the place
of the link. -/
theorem run_showsDrafts :
    (∃ task ready now, readying ⟨[100]⟩ (hearing lendingFiles lendingContent turningTree) =
        .ok (some task) ready ∧
      Exchange.Visits task (beginExchange task.files.length ready) now ∧
      task.root = some [[100]] ∧ task.files = lendingFiles ∧ lender ∈ task.files ∧
      lender.isRegular = true ∧ lender.path.placeBeneath [[100]] = some [lender.path.bytes, [100]] ∧
      ¬ task.NamesDirectory [lender.path.bytes, [100]] ∧
      ∀ replies, ¬ task.ShowsWhole (.ofOptions { server := true }) replies ready.disk.tree
        now.disk.tree [lender.path.bytes, [100]]) ∧
    ∃ task ready now, readying ⟨[100]⟩ (hearing turningFiles turningContent turningTree) =
        .ok (some task) ready ∧
      Exchange.Visits task (beginExchange task.files.length ready) now ∧
      task.root = some [[100]] ∧ beyond ∈ task.files ∧ beyond.isRegular = true ∧
      (ready.disk.tree.resolve [[100]] beyond.path).toOption =
        some (.entry [[115], [100]] [120]) ∧
      ready.disk.tree.get? [[120], [115], [100]] = some (.file ⟨0o600, 3⟩ [7]) ∧
      (now.disk.tree.resolve [[100]] beyond.path).toOption = none := by
  have lends : endsIn (readying ⟨[100]⟩ (hearing lendingFiles lendingContent turningTree))
      (fun task? ready => task?.any fun task =>
        endsIn (Exchange.round task
          (beginExchange task.files.length ready : Exchange.WholeFiles StagedConnection))
          fun phase now => decide (phase = none ∧ task.root = some [[100]] ∧
            task.files = lendingFiles ∧
            ready.disk.tree.get? [lender.path.bytes, [100]] = none ∧
            now.disk.tree.get? [lender.path.bytes, [100]] = some (.file ⟨0o600, 0⟩ []))) = true := by
    decide +kernel
  have turns : endsIn (readying ⟨[100]⟩ (hearing turningFiles turningContent turningTree))
      (fun task? ready => task?.any fun task =>
        endsIn (Exchange.round task
          (beginExchange task.files.length ready : Exchange.WholeFiles StagedConnection))
          fun phase between => endsIn (Exchange.round task between) fun phase' now =>
            decide (phase = none ∧ phase' = none ∧ task.root = some [[100]] ∧
              beyond ∈ task.files ∧
              (ready.disk.tree.resolve [[100]] beyond.path).toOption =
                some (.entry [[115], [100]] [120]) ∧
              ready.disk.tree.get? [[120], [115], [100]] = some (.file ⟨0o600, 3⟩ [7]) ∧
              (now.disk.tree.resolve [[100]] beyond.path).toOption = none)) = true := by
    decide +kernel
  constructor
  · obtain ⟨task?, ready, reached, seen⟩ := of_endsIn lends
    obtain ⟨task, rfl, ran⟩ := (Option.any_eq_true _ _).mp seen
    obtain ⟨phase, now, moved, seen⟩ := of_endsIn ran
    obtain ⟨rfl, root, files, free, draft⟩ := of_decide_eq_true seen
    have advanced : Exchange.Advances task (beginExchange task.files.length ready) now :=
      (Exchange.round_meets .start).of_ok moved
    refine ⟨task, ready, now, reached, advanced.visits, root, files, ?_, rfl, rfl, ?_, ?_⟩
    · rw [files]
      decide
    · rintro ⟨_, _, entry, listed, kind, -⟩
      have plain : ∀ entry ∈ lendingFiles, entry.isDirectory = false := by decide
      cases (plain entry (files ▸ listed)).symm.trans kind
    · rintro replies (same | ⟨reply, -, node, becomes, found⟩)
      · rw [Tree.sight_eq_none.mpr free, Tree.sight_eq_file.mpr draft] at same
        cases same
      · cases becomes with
        | file _ listed _ _ size =>
            have blank := (Node.file.inj (Option.some.inj (draft.symm.trans found))).2
            have sized : ∀ entry ∈ lendingFiles, entry.size.toNat ≠ 0 := by decide
            rw [← blank] at size
            exact sized _ (files ▸ List.mem_of_getElem? listed) size.symm
  · obtain ⟨task?, ready, reached, seen⟩ := of_endsIn turns
    obtain ⟨task, rfl, ran⟩ := (Option.any_eq_true _ _).mp seen
    obtain ⟨phase, between, moved, ran⟩ := of_endsIn ran
    obtain ⟨phase', now, moved', seen⟩ := of_endsIn ran
    obtain ⟨rfl, rfl, root, listed, led, stood, gone⟩ := of_decide_eq_true seen
    have advanced : Exchange.Advances task (beginExchange task.files.length ready) between :=
      (Exchange.round_meets .start).of_ok moved
    have visited : Exchange.Advances task (beginExchange task.files.length ready) now :=
      (Exchange.round_meets advanced).of_ok moved'
    exact ⟨task, ready, now, reached, visited.visits, root, listed, by decide, led, stood, gone⟩

end Running

end TreeSync

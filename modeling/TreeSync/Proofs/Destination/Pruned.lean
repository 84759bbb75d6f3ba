import Mathlib.Data.Set.Card
import TreeSync.Proofs.Destination.Reach
import TreeSync.Proofs.Disk.Reaching
import TreeSync.Proofs.Disk.Wayfinding
import TreeSync.Proofs.Path.Spelling

namespace TreeSync

/-! What pruning leaves, and what stops it.

The listing is gone through from its end. So when the turn of a directory comes, all
strays beneath it are gone, and what still stands in it either has a name in the list
or leads to something that has.
-/

open TreeSync.Action

section Trees

variable {before after : Tree} {root place : Location}

/-- Whether something stands at a place that `root` leads to. -/
def Tree.Stands (tree : Tree) (root place : Location) : Prop :=
  tree.Holds root place ∧ ∃ node, tree.get? place = some node

/-- `after` is what `before` leaves when the entries at some places go. -/
structure Tree.Without (before : Tree) (gone : Location → Prop) (after : Tree) : Prop where
  absent : ∀ place, gone place → after.get? place = none
  kept : ∀ place, ¬ gone place → after.sight place = before.sight place

theorem Tree.Without.here (tree : Tree) {gone : Location → Prop} (nothing : ∀ place, ¬ gone place) :
    tree.Without gone tree :=
  ⟨fun place away => absurd away (nothing place), fun _ _ => rfl⟩

theorem Tree.Without.drop {middle : Tree} {gone gone' : Location → Prop}
    (without : before.Without gone middle)
    (dropped : ∀ other, after.sight other = if other = place then none else middle.sight other)
    (wider : ∀ other, gone' other ↔ gone other ∨ other = place) : before.Without gone' after where
  absent other away := by
    rw [← Tree.sight_eq_none, dropped]
    rcases (wider other).mp away with earlier | rfl
    · simp [Tree.sight_eq_none.mpr (without.absent other earlier)]
    · simp
  kept other stays := by
    rw [wider, not_or] at stays
    rw [dropped, if_neg stays.2, without.kept other stays.1]

theorem Tree.Without.congr {gone gone' : Location → Prop} (without : before.Without gone after)
    (same : ∀ place, gone' place ↔ gone place) : before.Without gone' after :=
  ⟨fun place away => without.absent place ((same place).mp away),
    fun place stays => without.kept place (mt (same place).mpr stays)⟩

theorem Tree.Without.there_iff {gone : Location → Prop} (without : before.Without gone after)
    (stays : ¬ gone place) :
    (∃ node, after.get? place = some node) ↔ ∃ node, before.get? place = some node := by
  have same := congrArg Option.isSome (without.kept place stays)
  simp only [Tree.sight, Option.isSome_map] at same
  rw [← Option.isSome_iff_exists, ← Option.isSome_iff_exists, same]

theorem Tree.Without.stays {gone : Location → Prop} (without : before.Without gone after)
    (there : ∃ node, after.get? place = some node) : ¬ gone place := by
  intro away
  obtain ⟨node, found⟩ := there
  rw [without.absent place away] at found
  cases found

theorem Tree.Holds.child {tree : Tree} (holds : tree.Holds root place)
    (stands : tree.HasDirectory place) (name : Name) : tree.Holds root (name :: place) := by
  obtain ⟨last, directory, rfl, leads⟩ := holds
  exact ⟨name, last :: directory, rfl, leads.down stands⟩

theorem Change.sight_removedDirectory {tree : Tree} {time : Int64} {other : Location} :
    ((removedDirectory place).apply time tree).sight other =
      if other = place then none else tree.sight other :=
  sight_removedFile

/-- An entry is reached from its root by the names on the way. -/
theorem Tree.Holds.names {tree : Tree} (holds : tree.Holds root place) :
    ∃ (names : List Name) (name : Name), place = name :: (names.reverse ++ root) ∧
      tree.Leads root (names.reverse ++ root) := by
  obtain ⟨name, directory, rfl, leads⟩ := holds
  obtain ⟨upper, rfl⟩ := leads.suffix
  exact ⟨upper.reverse, name, by simp, by simpa using leads⟩

end Trees

namespace Destination

variable {before after : Tree} {root place : Location} {listed : List ListEntry}
  {passed rest : List (Location × Node)} {found : Location × Node} {removals : Removals}

/-- Whether the list names what stands at a place beneath `root`. -/
def Names (listed : List ListEntry) (root place : Location) : Prop :=
  ∃ entry ∈ listed, entry.path.placeBeneath root = some place

instance : Decidable (Names listed root place) :=
  inferInstanceAs (Decidable (∃ entry ∈ listed, entry.path.placeBeneath root = some place))

/-- Whether an entry stands at a place beneath `root` that the list does not name. -/
def Stray (tree : Tree) (root : Location) (listed : List ListEntry) (place : Location) : Prop :=
  tree.Stands root place ∧ ¬ Names listed root place

/-- Whether a stray directory holds, at any depth, an entry that the list names. -/
def Blocks (tree : Tree) (root : Location) (listed : List ListEntry) (place : Location) : Prop :=
  Stray tree root listed place ∧ tree.HasDirectory place ∧
    ∃ inner, tree.Stands root inner ∧ Names listed root inner ∧ place <:+ inner

/-- How a listing from `root` shows a node. -/
def shown (root : Location) (found : Location × Node) : FoundEntry :=
  ⟨root.pathTo found.1, found.2.isDirectory⟩

/-- Whether the system has to be asked about a node by a path that is too long. -/
def TooDeep (path : Path) (root place : Location) : Prop :=
  Path.maxLength < (path.child (root.pathTo place).bytes).bytes.length

instance (path : Path) : Decidable (TooDeep path root place) :=
  inferInstanceAs (Decidable (_ < _))

/-- How a listing fails at a place that it cannot ask about. -/
def tooDeep (path : Path) (root place : Location) : Failure :=
  .filesystem "scan" (path.child (root.pathTo place).bytes) (.system .nameTooLong)

theorem listNode_shows (path : Path) (host : Host) :
    Meets (listNode path root found) host
      (fun entry after => ¬ TooDeep path root found.1 ∧ entry = shown root found ∧
        after.disk = host.disk)
      (fun failure after => TooDeep path root found.1 ∧ failure = tooDeep path root found.1 ∧
        after.disk = host.disk) := by
  refine Meets.cond (fun deep => Meets.throw ⟨deep, rfl, rfl⟩) fun fits => ?_
  exact Meets.changeThen (Meets.pure ⟨fits, rfl, rfl⟩)

/-- Nodes are listed in their order, up to the first that is too deep. -/
theorem mapM_listNode_shows (path : Path) (nodes : List (Location × Node)) (host : Host) :
    Meets (nodes.mapM (listNode path root)) host
      (fun entries after => (∀ found ∈ nodes, ¬ TooDeep path root found.1) ∧
        entries = nodes.map (shown root) ∧ after.disk = host.disk)
      (fun failure after => ∃ early found late, nodes = early ++ found :: late ∧
        (∀ earlier ∈ early, ¬ TooDeep path root earlier.1) ∧ TooDeep path root found.1 ∧
        failure = tooDeep path root found.1 ∧ after.disk = host.disk) := by
  induction nodes generalizing host with
  | nil =>
      rw [List.mapM_nil]
      exact Meets.pure ⟨nofun, rfl, rfl⟩
  | cons found rest ih =>
      rw [List.mapM_cons]
      refine (listNode_shows path host).followedBy ?_ ?_
      · rintro _ _ ⟨deep, failed, kept⟩
        exact ⟨[], found, rest, rfl, nofun, deep, failed, kept⟩
      rintro _ middle ⟨fits, rfl, kept⟩
      refine (ih middle).followedBy ?_ ?_
      · rintro _ _ ⟨early, other, late, rfl, before, deep, failed, kept'⟩
        exact ⟨found :: early, other, late, rfl, List.forall_mem_cons.mpr ⟨fits, before⟩, deep,
          failed, kept'.trans kept⟩
      · rintro _ after ⟨fit, rfl, kept'⟩
        exact Meets.pure ⟨List.forall_mem_cons.mpr ⟨fits, fit⟩, rfl, kept'.trans kept⟩

theorem findRoot_ok {path : Path} {host : Host} {found : Option Location}
    (looked : host.disk.tree.directoryAt? host.disk.workingDirectory path = .ok found) :
    (attempt (Host.onDisk (findRoot path)) : EStateM Failure Host _) host =
      .ok (.ok found) host := by
  have clean : 0 ∉ path.bytes := by
    intro nul
    simp [Tree.directoryAt?, Path.check, nul, bind, Except.bind] at looked
  rw [attempt_findRoot, rootOn, if_neg clean, looked]
  rfl

/-- A listing of a real directory shows everything beneath it, up to the first that is too
deep. -/
theorem contents_lists {path : Path} {host : Host}
    (real : host.disk.tree.directoryAt? host.disk.workingDirectory path = .ok (some root)) :
    Meets (contents path) host
      (fun entries after => (∀ found ∈ host.disk.tree.beneath root, ¬ TooDeep path root found.1) ∧
        entries = (host.disk.tree.beneath root).map (shown root) ∧ after.disk = host.disk)
      (fun failure after => ∃ early found late,
        host.disk.tree.beneath root = early ++ found :: late ∧
        (∀ earlier ∈ early, ¬ TooDeep path root earlier.1) ∧ TooDeep path root found.1 ∧
        failure = tooDeep path root found.1 ∧ after.disk = host.disk) := by
  rw [Meets, contents, bind_ok (findRoot_ok real)]
  refine Meets.changeThen (Meets.get ?_)
  refine (mapM_listNode_shows path _ _).bind ?_
  rintro entries middle ⟨fit, rfl, kept⟩
  exact Meets.changeThen (Meets.pure ⟨fit, rfl, kept⟩)

/-- A listing of a real directory shows everything beneath it, if no path is too long. -/
theorem contents_shows {path : Path} {host : Host}
    (real : host.disk.tree.directoryAt? host.disk.workingDirectory path = .ok (some root)) :
    Meets (contents path) host
      (fun entries after => entries = (host.disk.tree.beneath root).map (shown root) ∧
        after.disk = host.disk)
      (fun _ _ => ∃ found ∈ host.disk.tree.beneath root, TooDeep path root found.1) := by
  refine (contents_lists real).mono (fun _ _ => And.right) ?_
  rintro _ _ ⟨early, found, late, split, -, deep, -⟩
  exact ⟨found, by simp [split], deep⟩

theorem contents_exists {path : Path} {host : Host}
    (real : host.disk.tree.directoryAt? host.disk.workingDirectory path = .ok (some root))
    (shallow : ∀ entry ∈ host.disk.tree.entries, ¬ TooDeep path root entry.1) :
    ∃ entries after, contents path host = .ok entries after := by
  have lists := contents_shows real
  cases ran : contents path host with
  | ok entries after => exact ⟨entries, after, rfl⟩
  | error failure after =>
      obtain ⟨found, member, deep⟩ := lists.of_error ran
      have there := Tree.mem_entries_of_get? (Tree.mem_beneath.mp member).2
      exact absurd deep (shallow _ there)

section Order

/-- What a listing reversed is: all that stands beneath `root`, each entry before the
directory it stands in. -/
structure Inward (tree : Tree) (root : Location) (line : List (Location × Node)) : Prop where
  mem_iff : ∀ place node, (place, node) ∈ line ↔ tree.Holds root place ∧ tree.get? place = some node
  pairwise : line.Pairwise fun earlier later => ¬ earlier.1 <:+ later.1

theorem inward_beneath (tree : Tree) (root : Location) :
    Inward tree root (tree.beneath root).reverse where
  mem_iff _ _ := by rw [List.mem_reverse, Tree.mem_beneath]
  pairwise := List.pairwise_reverse.mpr (tree.pairwise_beneath root)

/-- Whether a place is a stray's whose turn has come. -/
def Passed (root : Location) (listed : List ListEntry) (passed : List (Location × Node))
    (place : Location) : Prop :=
  ¬ Names listed root place ∧ ∃ node, (place, node) ∈ passed

theorem passed_concat :
    Passed root listed (passed ++ [found]) place ↔
      Passed root listed passed place ∨ ¬ Names listed root place ∧ place = found.1 := by
  obtain ⟨other, node⟩ := found
  simp only [Passed, List.mem_append, List.mem_singleton, Prod.mk.injEq]
  constructor
  · rintro ⟨stray, met, earlier | ⟨rfl, rfl⟩⟩
    · exact .inl ⟨stray, met, earlier⟩
    · exact .inr ⟨stray, rfl⟩
  · rintro (⟨stray, met, earlier⟩ | ⟨stray, rfl⟩)
    · exact ⟨stray, met, .inl earlier⟩
    · exact ⟨stray, node, .inr ⟨rfl, rfl⟩⟩

theorem passed_all {line : List (Location × Node)} (inward : Inward before root line) :
    Passed root listed line place ↔ Stray before root listed place := by
  simp only [Passed, Stray, Tree.Stands, inward.mem_iff]
  constructor
  · rintro ⟨stray, node, holds, there⟩
    exact ⟨⟨holds, node, there⟩, stray⟩
  · rintro ⟨⟨holds, node, there⟩, stray⟩
    exact ⟨stray, node, holds, there⟩

/-- How many of the entries that have passed were strays of some kind. -/
def strays (root : Location) (listed : List ListEntry) (passed : List (Location × Node))
    (kind : Node → Bool) : Nat :=
  passed.countP fun found => decide (¬ Names listed root found.1) && kind found.2

/-- How far the pruning has come once some entries have had their turn. -/
structure Course (before : Tree) (root : Location) (listed : List ListEntry)
    (passed : List (Location × Node)) (removals : Removals) (tree : Tree) : Prop where
  without : before.Without (Passed root listed passed) tree
  free : ∀ earlier ∈ passed, ¬ Blocks before root listed earlier.1
  files : removals.files = strays root listed passed (!·.isDirectory)
  directories : removals.directories = strays root listed passed (·.isDirectory)

/-- A turn in the course of pruning: what has passed, and the entry whose turn it is. -/
structure Turn (before : Tree) (root : Location) (listed : List ListEntry)
    (passed : List (Location × Node)) (found : Location × Node) (rest : List (Location × Node))
    (removals : Removals) (tree : Tree) : Prop
    extends Course before root listed passed removals tree where
  inward : Inward before root (passed ++ found :: rest)

namespace Turn

variable {tree : Tree} (turn : Turn before root listed passed found rest removals tree)

include turn

theorem stands : before.Holds root found.1 ∧ before.get? found.1 = some found.2 :=
  (turn.inward.mem_iff _ _).mp (by simp)

/-- The entry and the directories it stands in are still there. -/
theorem kept_above {above : Location} (below : above <:+ found.1) :
    tree.sight above = before.sight above := by
  refine turn.without.kept above ?_
  rintro ⟨-, node, earlier⟩
  have apart := (List.pairwise_append.mp turn.inward.pairwise).2.2
  exact apart _ earlier found List.mem_cons_self below

theorem found_there :
    ∃ node, tree.get? found.1 = some node ∧ node.isDirectory = found.2.isDirectory := by
  have same := turn.kept_above (List.suffix_refl _)
  rw [Tree.sight, Tree.sight, turn.stands.2] at same
  obtain ⟨node, there, alike⟩ := Option.map_eq_some_iff.mp same
  refine ⟨node, there, ?_⟩
  cases node <;> cases kind : found.2 <;> simp_all [Node.unstamped, Node.isDirectory]

theorem leads {directory : Location} {name : Name} (place : found.1 = name :: directory) :
    tree.Leads root directory := by
  obtain ⟨last, above, spelled, leads⟩ := turn.stands.1
  cases place.symm.trans spelled
  refine leads.of_kept fun other beneath _ _ stands => stands.of_sight (turn.kept_above ?_)
  exact place ▸ beneath.trans (List.suffix_cons _ _)

/-- A stray directory is empty by its turn, unless it holds a named entry somewhere. -/
theorem blocks_iff (stray : ¬ Names listed root found.1) (directory : before.HasDirectory found.1) :
    Blocks before root listed found.1 ↔ ∃ name, name ∈ tree.namesIn found.1 := by
  simp only [Tree.mem_namesIn]
  have standing : Stray before root listed found.1 := ⟨⟨turn.stands.1, _, turn.stands.2⟩, stray⟩
  constructor
  · -- the child on the way to the named entry still stands: had it passed, it would have blocked
    rintro ⟨-, -, inner, ⟨holds, node, there⟩, named, below⟩
    have other : found.1 ≠ inner := fun same => stray (same ▸ named)
    obtain ⟨name, beneath⟩ : ∃ name, name :: found.1 <:+ inner := by
      obtain ⟨upper, rfl⟩ := below
      cases upper using List.reverseRecOn with
      | nil => exact absurd rfl other
      | append_singleton upper name => exact ⟨name, upper, by simp⟩
    have childHeld := turn.stands.1.child directory name
    have onTheWay (apart : name :: found.1 ≠ inner) : before.HasDirectory (name :: found.1) :=
      (holds.leads childHeld.suffix beneath apart).hasDirectory childHeld.ne_root
    refine ⟨name, (turn.without.there_iff fun away => ?_).mpr ?_⟩
    · obtain ⟨unnamed, child, earlier⟩ := away
      have apart : name :: found.1 ≠ inner := fun same => unnamed (same ▸ named)
      obtain ⟨attributes, stands⟩ := onTheWay apart
      exact turn.free _ earlier
        ⟨⟨⟨childHeld, _, stands⟩, unnamed⟩, ⟨attributes, stands⟩, inner, ⟨holds, node, there⟩, named, beneath⟩
    · by_cases same : name :: found.1 = inner
      · exact ⟨node, same ▸ there⟩
      · obtain ⟨attributes, stands⟩ := onTheWay same
        exact ⟨_, stands⟩
  · rintro ⟨name, node, there⟩
    have stays := turn.without.stays ⟨node, there⟩
    obtain ⟨first, stood⟩ := (turn.without.there_iff stays).mp ⟨node, there⟩
    have held := turn.stands.1.child directory name
    refine ⟨standing, directory, _, ⟨held, first, stood⟩, ?_, List.suffix_cons _ _⟩
    -- a stray child would have had its turn before the directory
    by_contra unnamed
    have inLine := (turn.inward.mem_iff _ _).mpr ⟨held, stood⟩
    rcases List.mem_append.mp inLine with earlier | later
    · exact stays ⟨unnamed, first, earlier⟩
    · rcases List.mem_cons.mp later with same | later
      · have place := congrArg (List.length ∘ Prod.fst) same
        simp at place
      · have apart := (List.pairwise_append.mp turn.inward.pairwise).2.1
        exact (List.pairwise_cons.mp apart).1 _ later (List.suffix_cons _ _)

/-- A named entry is passed over. -/
theorem passOver (named : Names listed root found.1) :
    Course before root listed (passed ++ [found]) removals tree where
  without := turn.without.congr fun place => by
    rw [passed_concat]
    refine or_iff_left ?_
    rintro ⟨unnamed, rfl⟩
    exact unnamed named
  free earlier member blocks := by
    rcases List.mem_append.mp member with before | last
    · exact turn.free earlier before blocks
    · cases List.mem_singleton.mp last
      exact blocks.1.2 named
  files := by simp [turn.files, strays, named]
  directories := by simp [turn.directories, strays, named]

/-- A stray is counted once it is gone. -/
theorem remove {after : Tree} (stray : ¬ Names listed root found.1)
    (gone : ∀ other, after.sight other = if other = found.1 then none else tree.sight other)
    (free : ¬ Blocks before root listed found.1) :
    Course before root listed (passed ++ [found]) (removals.count (shown root found)) after where
  without := turn.without.drop gone fun place => by
    rw [passed_concat]
    refine or_congr_right (and_iff_right_of_imp ?_)
    rintro rfl
    exact stray
  free earlier member := by
    rcases List.mem_append.mp member with before | last
    · exact turn.free earlier before
    · cases List.mem_singleton.mp last
      exact free
  files := by cases kind : found.2.isDirectory <;>
    simp [Removals.count, shown, strays, kind, stray, turn.files]
  directories := by cases kind : found.2.isDirectory <;>
    simp [Removals.count, shown, strays, kind, stray, turn.directories]

end Turn

section Pass

variable {disk : Disk} {host : Host}

/-- An entry's path beneath `root` is spelled by sound names. -/
theorem spelled_of_stands (proper : before.Proper) (holds : before.Holds root found.1)
    (there : before.get? found.1 = some found.2) :
    ∃ (names : List Name) (name : Name), found.1 = name :: (names.reverse ++ root) ∧
      (shown root found).path = .ofNames (names ++ [name]) ∧
      (∀ segment ∈ names ++ [name], segment.Sound) ∧
      before.Leads root (names.reverse ++ root) := by
  obtain ⟨names, name, place, leads⟩ := holds.names
  have whole : found.1 = (names ++ [name]).reverse ++ root := by simp [place]
  refine ⟨names, name, place, ?_, fun segment listed => ?_, leads⟩
  · rw [shown, whole, Location.pathTo_append]
  · refine proper _ _ there segment ?_
    rw [whole]
    exact List.mem_append_left _ (List.mem_reverse.mpr listed)

theorem shown_placeBeneath (proper : before.Proper) (holds : before.Holds root found.1)
    (there : before.get? found.1 = some found.2) :
    (shown root found).path.placeBeneath root = some found.1 ∧
      (shown root found).path.normalized = (shown root found).path ∧
      ∀ entry : ListEntry, entry.path.normalized = (shown root found).path ↔
        entry.path.placeBeneath root = some found.1 := by
  obtain ⟨names, name, place, path, sound, -⟩ := spelled_of_stands proper holds there
  have plain (segment : Name) (member : segment ∈ names ++ [name]) := (sound segment member).toPlain
  have whole : found.1 = (names ++ [name]).reverse ++ root := by simp [place]
  rw [path, whole]
  exact ⟨Path.placeBeneath_ofNames plain, Path.normalized_ofNames plain, fun entry =>
    Path.normalized_eq_ofNames_iff (by simp) plain⟩

/-- The strays are removed in the reverse of the listing's order. -/
theorem extraneous_shown (proper : before.Proper) {line : List (Location × Node)}
    (inward : Inward before root line.reverse) :
    extraneous (line.map (shown root)) listed =
      (line.reverse.filter fun found => ¬ Names listed root found.1).map (shown root) := by
  have each (found : Location × Node) (member : found ∈ line.reverse) :=
    (inward.mem_iff found.1 found.2).mp member
  have spelled : (line.map (shown root)).reverse.map
      (fun entry => { entry with path := entry.path.normalized }) = line.reverse.map (shown root) := by
    rw [← List.map_reverse, List.map_map]
    refine List.map_congr_left fun found member => ?_
    obtain ⟨holds, there⟩ := each found member
    have kept := (shown_placeBeneath proper holds there).2.1
    change FoundEntry.mk (shown root found).path.normalized _ = _
    rw [kept]
  rw [extraneous, spelled, List.filter_map]
  congr 1
  refine List.filter_congr fun found member => ?_
  obtain ⟨holds, there⟩ := each found member
  have named := (shown_placeBeneath proper holds there).2.2
  refine decide_eq_decide.mpr (not_congr ?_)
  simp only [Names, List.mem_map, named]

/-- A stray goes at its turn, unless it is a directory that blocks. -/
theorem removeEntry_turn (proper : before.Proper)
    (turn : Turn before root listed passed found rest removals disk.tree)
    (stray : ¬ Names listed root found.1) :
    Meets (removeEntry root (shown root found)) disk
      (fun _ after => (∀ other, after.tree.sight other =
        if other = found.1 then none else disk.tree.sight other) ∧
        ¬ Blocks before root listed found.1)
      (fun fault after => fault = .system .notEmpty ∧ after = disk ∧
        Blocks before root listed found.1) := by
  obtain ⟨holds, there⟩ := turn.stands
  obtain ⟨names, name, place, path, sound, -⟩ := spelled_of_stands proper holds there
  have upper (segment : Name) (member : segment ∈ names) : segment.Sound :=
    sound segment (List.mem_append_left _ member)
  have last : name.Sound := sound name (by simp)
  have down : (shown root found).path.descent = .ok (names ++ [name]) := by
    rw [path]
    exact Path.descent_ofNames fun segment member => (sound segment member).toPlain
  have reached := Disk.parentBeneath_sound down upper (turn.leads place)
  obtain ⟨node, here, kind⟩ := turn.found_there
  rw [Meets, removeEntry, bind_ok reached]
  rw [place] at here
  by_cases directory : found.2.isDirectory = true
  · have stands : disk.tree.HasDirectory (name :: (names.reverse ++ root)) :=
      (Tree.isDirectory_iff here).mp (kind.trans directory)
    have blocks := turn.blocks_iff stray ((Tree.isDirectory_iff there).mp directory)
    simp only [shown, directory, if_true, Disk.removeDirectory_sound last stands]
    rw [blocks, place]
    cases empty : (disk.tree.namesIn (name :: (names.reverse ++ root))).isEmpty with
    | true =>
        refine ⟨fun other => Change.sight_removedDirectory, ?_⟩
        simp [List.isEmpty_iff.mp empty]
    | false =>
        rw [List.isEmpty_eq_false_iff] at empty
        exact ⟨rfl, rfl, List.exists_mem_of_ne_nil _ empty⟩
  · rw [Bool.not_eq_true] at directory
    simp only [shown, directory, Bool.false_eq_true, if_false,
      Disk.removeFile_sound last here (kind.trans directory)]
    refine ⟨fun other => ?_, fun blocks => ?_⟩
    · rw [place]
      exact Change.sight_removedFile
    · have met := (Tree.isDirectory_iff there).mpr blocks.2.1
      rw [directory] at met
      cases met

theorem prune_turn (proper : before.Proper)
    (turn : Turn before root listed passed found rest removals host.disk.tree)
    (stray : ¬ Names listed root found.1) :
    Meets (prune root removals (shown root found)) host
      (fun removals after => Course before root listed (passed ++ [found]) removals after.disk.tree)
      (fun failure after => Course before root listed passed removals after.disk.tree ∧
        Blocks before root listed found.1 ∧
        failure = .filesystem "delete" (shown root found).path (.system .notEmpty)) := by
  have removes : Meets (explaining (Failure.filesystem "delete" (shown root found).path)
        (Host.onDisk (removeEntry root (shown root found)))) host
      (fun _ after => Course before root listed (passed ++ [found])
        (removals.count (shown root found)) after.disk.tree)
      (fun failure after => Course before root listed passed removals after.disk.tree ∧
        Blocks before root listed found.1 ∧
        failure = .filesystem "delete" (shown root found).path (.system .notEmpty)) := by
    refine Meets.explaining (Meets.within ((removeEntry_turn proper turn stray).mono ?_ ?_))
    · rintro _ after ⟨gone, free⟩
      exact turn.remove stray gone free
    · rintro _ after ⟨rfl, rfl, blocks⟩
      exact ⟨turn.toCourse, blocks, rfl⟩
  exact removes.bind fun _ after done => Meets.changeThen (Meets.pure done)

/-- Going through what is left of the line, strays are removed up to the first that blocks. -/
theorem foldlM_prune (proper : before.Proper) (inward : Inward before root (passed ++ rest))
    (course : Course before root listed passed removals host.disk.tree) :
    Meets (((rest.filter fun found => ¬ Names listed root found.1).map (shown root)).foldlM
        (prune root) removals) host
      (fun removals after => Course before root listed (passed ++ rest) removals after.disk.tree)
      (fun failure after => ∃ early found late removals, rest = early ++ found :: late ∧
        Course before root listed (passed ++ early) removals after.disk.tree ∧
        Blocks before root listed found.1 ∧
        failure = .filesystem "delete" (shown root found).path (.system .notEmpty)) := by
  induction rest generalizing passed removals host with
  | nil =>
      rw [List.append_nil] at inward ⊢
      exact Meets.pure course
  | cons found rest ih =>
      have turn : Turn before root listed passed found rest removals host.disk.tree :=
        { course with inward }
      have onward : Inward before root ((passed ++ [found]) ++ rest) := by simpa using inward
      have shift {early late : List (Location × Node)} {last : Location × Node}
          (split : rest = early ++ last :: late) :
          found :: rest = (found :: early) ++ last :: late := by rw [split, List.cons_append]
      by_cases named : Names listed root found.1
      · rw [List.filter_cons_of_neg (by simp [named])]
        refine (ih onward (turn.passOver named)).mono ?_ ?_
        · intro removals after done
          simpa using done
        · rintro failure after ⟨early, last, late, removals, split, course, blocks⟩
          exact ⟨found :: early, last, late, removals, shift split, by simpa using course, blocks⟩
      · rw [List.filter_cons_of_pos (by simp [named]), List.map_cons, List.foldlM_cons]
        refine (prune_turn proper turn named).followedBy ?_ ?_
        · rintro failure after ⟨course, blocks⟩
          exact ⟨[], found, rest, removals, rfl, by simpa using course, blocks⟩
        · intro removals middle course
          refine (ih onward course).mono ?_ ?_
          · intro removals after done
            simpa using done
          · rintro failure after ⟨early, last, late, removals, split, course, blocks⟩
            exact ⟨found :: early, last, late, removals, shift split, by simpa using course, blocks⟩

end Pass

theorem Inward.nodup {line : List (Location × Node)} (inward : Inward before root line) :
    (line.map Prod.fst).Nodup := by
  refine List.pairwise_map.mpr (inward.pairwise.imp ?_)
  intro earlier later apart same
  exact apart (same ▸ List.suffix_refl _)

/-- Counting the strays in a line counts places, since no place comes twice. -/
theorem strays_eq_ncard {line : List (Location × Node)} (inward : Inward before root line)
    (kind : Node → Bool) :
    strays root listed line kind =
      {place | Stray before root listed place ∧
        ∃ node, before.get? place = some node ∧ kind node = true}.ncard := by
  let counted := line.filter fun found => decide (¬ Names listed root found.1) && kind found.2
  have nodup : (counted.map Prod.fst).Nodup := (List.filter_sublist.map _).nodup inward.nodup
  have places : {place | Stray before root listed place ∧
      ∃ node, before.get? place = some node ∧ kind node = true} =
      ((counted.map Prod.fst).toFinset : Set Location) := by
    ext place
    simp only [Set.mem_ofPred_eq, List.coe_toFinset, List.mem_map, counted, List.mem_filter,
      Bool.and_eq_true, decide_eq_true_eq, Prod.exists, exists_and_right, exists_eq_right]
    constructor
    · rintro ⟨⟨⟨holds, -⟩, unnamed⟩, node, there, fits⟩
      exact ⟨node, (inward.mem_iff _ _).mpr ⟨holds, there⟩, unnamed, fits⟩
    · rintro ⟨node, member, unnamed, fits⟩
      obtain ⟨holds, there⟩ := (inward.mem_iff _ _).mp member
      exact ⟨⟨⟨holds, node, there⟩, unnamed⟩, node, there, fits⟩
  rw [places, Set.ncard_coe_finset, List.toFinset_card_of_nodup nodup, List.length_map,
    strays, List.countP_eq_length_filter]

end Order

/-- How a pass ends that removes from `before` whatever the list does not name. -/
structure Prunes (before : Tree) (root : Location) (listed : List ListEntry)
    (found : List FoundEntry) (ended : EStateM.Result Failure Host Removals) : Prop where
  succeeds : (∃ removals after, ended = .ok removals after) ↔
    ∀ place, ¬ Blocks before root listed place
  /-- The strays are gone, and nothing else looks any different. -/
  without : ∀ removals after, ended = .ok removals after →
    before.Without (Stray before root listed) after.disk.tree
  remains : ∀ removals after, ended = .ok removals after → ∀ place,
    after.disk.tree.Stands root place ↔ before.Stands root place ∧ Names listed root place
  counts : ∀ removals after, ended = .ok removals after →
    removals.files =
        {place | Stray before root listed place ∧ ¬ before.HasDirectory place}.ncard ∧
      removals.directories =
        {place | Stray before root listed place ∧ before.HasDirectory place}.ncard
  /-- It ends at the first directory that blocks, counted from the end of the listing. -/
  fails : ∀ failure after, ended = .error failure after → ∃ early entry late place,
    found.reverse = early ++ entry :: late ∧
    entry.path.placeBeneath root = some place ∧ Blocks before root listed place ∧
    (∀ earlier ∈ early, ∀ other, earlier.path.placeBeneath root = some other →
      ¬ Blocks before root listed other) ∧
    failure = .filesystem "delete" entry.path (.system .notEmpty) ∧
    before.Without (fun other => Stray before root listed other ∧
      ∃ earlier ∈ early, earlier.path.placeBeneath root = some other) after.disk.tree
  /-- Whatever the outcome, the entries that the list names are as they were. -/
  spares : ∀ place, Names listed root place → ∀ after,
    ((∃ removals, ended = .ok removals after) ∨ ∃ failure, ended = .error failure after) →
    after.disk.tree.sight place = before.sight place

theorem Course.without_strays {line : List (Location × Node)} (inward : Inward before root line)
    (course : Course before root listed line removals after) :
    before.Without (Stray before root listed) after :=
  course.without.congr fun _ => (passed_all inward).symm

theorem Course.remains {line : List (Location × Node)} (inward : Inward before root line)
    (course : Course before root listed line removals after) :
    after.Stands root place ↔ before.Stands root place ∧ Names listed root place := by
  have without := course.without_strays inward
  constructor
  · rintro ⟨holds, there⟩
    have stays := without.stays there
    have stood : before.Stands root place := by
      refine ⟨holds.mono fun other directory => ?_, (without.there_iff stays).mp there⟩
      obtain ⟨attributes, found⟩ := directory
      have kept := without.kept other (without.stays ⟨_, found⟩)
      exact Tree.HasDirectory.of_sight kept.symm ⟨attributes, found⟩
    exact ⟨stood, not_not.mp fun unnamed => stays ⟨stood, unnamed⟩⟩
  · rintro ⟨⟨holds, there⟩, named⟩
    refine ⟨?_, (without.there_iff fun away => away.2 named).mpr there⟩
    obtain ⟨name, directory, rfl, leads⟩ := holds
    refine ⟨name, directory, rfl, leads.of_kept fun other beneath inner below stands => ?_⟩
    refine stands.of_sight (without.kept other fun stray => ?_)
    -- a directory on the way to a named entry is none of the strays that went
    obtain ⟨⟨held, node, found⟩, unnamed⟩ := stray
    exact course.free (other, node) ((inward.mem_iff _ _).mpr ⟨held, found⟩)
      ⟨⟨⟨held, node, found⟩, unnamed⟩, stands, _, ⟨⟨name, directory, rfl, leads⟩, there⟩, named,
        beneath.trans (List.suffix_cons _ _)⟩

theorem Course.counts {line : List (Location × Node)} (inward : Inward before root line)
    (course : Course before root listed line removals after) :
    removals.files =
        {place | Stray before root listed place ∧ ¬ before.HasDirectory place}.ncard ∧
      removals.directories =
        {place | Stray before root listed place ∧ before.HasDirectory place}.ncard := by
  rw [course.files, course.directories, strays_eq_ncard inward, strays_eq_ncard inward]
  constructor <;> congr 1 <;> ext place <;>
    simp only [Set.mem_ofPred_eq, and_congr_right_iff] <;> rintro ⟨⟨-, node, there⟩, -⟩
  · simp [there, ← Tree.isDirectory_iff there]
  · simp [there, ← Tree.isDirectory_iff there]

theorem Course.free_all {line : List (Location × Node)} (inward : Inward before root line)
    (course : Course before root listed line removals after) (place : Location) :
    ¬ Blocks before root listed place := by
  intro blocks
  obtain ⟨holds, node, there⟩ := blocks.1.1
  exact course.free (place, node) ((inward.mem_iff _ _).mpr ⟨holds, there⟩) blocks

/-- What has passed, told by the entries of the listing. -/
theorem passed_shown (proper : before.Proper) {line : List (Location × Node)}
    (inward : Inward before root line) (within : ∀ earlier ∈ passed, earlier ∈ line) :
    Passed root listed passed place ↔ Stray before root listed place ∧
      ∃ earlier ∈ passed.map (shown root), earlier.path.placeBeneath root = some place := by
  have each {found : Location × Node} (member : found ∈ passed) :=
    (inward.mem_iff found.1 found.2).mp (within found member)
  constructor
  · rintro ⟨unnamed, node, member⟩
    obtain ⟨holds, there⟩ := each member
    exact ⟨⟨⟨holds, node, there⟩, unnamed⟩, _, List.mem_map_of_mem member,
      (shown_placeBeneath proper holds there).1⟩
  · rintro ⟨⟨-, unnamed⟩, earlier, member, leads⟩
    obtain ⟨⟨other, node⟩, came, rfl⟩ := List.mem_map.mp member
    obtain ⟨holds, there⟩ := each came
    cases (shown_placeBeneath proper holds there).1.symm.trans leads
    exact ⟨unnamed, node, came⟩

theorem pruneAll_course (listed : List ListEntry) (proper : before.Proper)
    {nodes : List (Location × Node)} {host : Host}
    (inward : Inward before root nodes.reverse) (same : host.disk.tree = before) :
    Meets (pruneAll root (nodes.map (shown root)) listed) host
      (fun removals after => Course before root listed nodes.reverse removals after.disk.tree)
      (fun failure after => ∃ early found late removals, nodes.reverse = early ++ found :: late ∧
        Course before root listed early removals after.disk.tree ∧
        Blocks before root listed found.1 ∧
        failure = .filesystem "delete" (shown root found).path (.system .notEmpty)) := by
  have start : Course before root listed [] {} host.disk.tree :=
    { without := same ▸ .here _ (fun place away => nomatch away.2.choose_spec)
      free := fun _ nothing => nomatch nothing
      files := rfl
      directories := rfl }
  rw [pruneAll, extraneous_shown proper inward]
  refine (foldlM_prune proper inward start).bind ?_
  intro removals after done
  exact Meets.changeThen (Meets.pure done)

theorem Prunes.of_course {nodes : List (Location × Node)} {after : Host}
    (inward : Inward before root nodes.reverse)
    (course : Course before root listed nodes.reverse removals after.disk.tree) :
    Prunes before root listed (nodes.map (shown root)) (.ok removals after) where
  succeeds := ⟨fun _ => course.free_all inward, fun _ => ⟨removals, after, rfl⟩⟩
  without := by
    rintro _ _ ⟨⟩
    exact course.without_strays inward
  remains := by
    rintro _ _ ⟨⟩ place
    exact course.remains inward
  counts := by
    rintro _ _ ⟨⟩
    exact course.counts inward
  fails := nofun
  spares := by
    rintro place named _ (⟨_, ⟨⟩⟩ | ⟨_, ⟨⟩⟩)
    exact course.without.kept place fun away => away.1 named

theorem Prunes.of_blocked (proper : before.Proper) {nodes early late : List (Location × Node)}
    {after : Host} (inward : Inward before root nodes.reverse)
    (split : nodes.reverse = early ++ found :: late)
    (course : Course before root listed early removals after.disk.tree)
    (blocks : Blocks before root listed found.1) :
    Prunes before root listed (nodes.map (shown root))
      (.error (.filesystem "delete" (shown root found).path (.system .notEmpty)) after) where
  succeeds := ⟨nofun, fun free => absurd blocks (free _)⟩
  without := nofun
  remains := nofun
  counts := nofun
  fails := by
    rintro _ _ ⟨⟩
    have within (earlier : Location × Node) (member : earlier ∈ early) : earlier ∈ nodes.reverse := by
      rw [split]
      exact List.mem_append_left _ member
    have spelled {entry : Location × Node} (member : entry ∈ nodes.reverse) :=
      have stands := (inward.mem_iff entry.1 entry.2).mp member
      (shown_placeBeneath proper stands.1 stands.2).1
    refine ⟨early.map (shown root), shown root found, late.map (shown root), found.1, ?_,
      spelled (by simp [split]), blocks, ?_, rfl, ?_⟩
    · rw [← List.map_reverse, split, List.map_append, List.map_cons]
    · intro earlier member other leads
      obtain ⟨entry, came, rfl⟩ := List.mem_map.mp member
      cases (spelled (within entry came)).symm.trans leads
      exact course.free entry came
    · exact course.without.congr fun _ => (passed_shown proper inward within).symm
  spares := by
    rintro place named _ (⟨_, ⟨⟩⟩ | ⟨_, ⟨⟩⟩)
    exact course.without.kept place fun away => away.1 named

/-- Pruning a real directory is exact: it removes all strays and nothing else, if no
directory blocks, and ends at the first that does. -/
theorem pruneAll_exact {host scanned : Host} {path : Path} {found : List FoundEntry}
    (listed : List ListEntry) (proper : host.disk.tree.Proper)
    (real : host.disk.tree.directoryAt? host.disk.workingDirectory path = .ok (some root))
    (scan : contents path host = .ok found scanned) :
    openRoot path host.disk = .ok root host.disk ∧
      Prunes host.disk.tree root listed found (pruneAll root found listed scanned) := by
  have opens : openRoot path host.disk = .ok root host.disk := by
    change Disk.look (·.resolveDirectory host.disk.workingDirectory path) host.disk = _
    exact Disk.look_ok (Tree.resolveDirectory_of_directoryAt? real)
  refine ⟨opens, ?_⟩
  obtain ⟨rfl, same⟩ := (contents_shows real).of_ok scan
  have inward := inward_beneath host.disk.tree root
  have ends := pruneAll_course listed proper inward (congrArg Disk.tree same)
  cases ran : pruneAll root ((host.disk.tree.beneath root).map (shown root)) listed scanned with
  | ok removals after => exact .of_course inward (ends.of_ok ran)
  | error failure after =>
      obtain ⟨early, blocking, late, removals, split, course, blocks, rfl⟩ := ends.of_error ran
      exact .of_blocked proper inward split course blocks

/-- A root with a file and a directory that holds another. -/
def clutteredTree : Tree :=
  (((Tree.empty.set [[114]] (.directory ⟨0o755, 0⟩)).set [[107], [114]] (.file ⟨0o644, 0⟩ [1])).set
    [[111], [114]] (.directory ⟨0o755, 0⟩)).set [[120], [111], [114]] (.file ⟨0o644, 0⟩ [])

def cluttered : Host := ⟨{ tree := clutteredTree }, {}⟩

theorem pruneAll_exact_cluttered :
    ∃ found scanned, contents ⟨[114]⟩ cluttered = .ok found scanned ∧
      Prunes clutteredTree [[114]] [.file ⟨[46, 47, 107]⟩ 0o644 0 1] found
        (pruneAll [[114]] found [.file ⟨[46, 47, 107]⟩ 0o644 0 1] scanned) := by
  have proper : cluttered.disk.tree.Proper := Tree.proper_of_entries (by decide)
  have real : cluttered.disk.tree.directoryAt? cluttered.disk.workingDirectory ⟨[114]⟩ =
      .ok (some [[114]]) := by decide
  obtain ⟨found, scanned, scan⟩ := contents_exists real (by decide)
  exact ⟨found, scanned, scan, (pruneAll_exact _ proper real scan).2⟩

end Destination

end TreeSync

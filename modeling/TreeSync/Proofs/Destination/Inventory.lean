import TreeSync.Proofs.Destination.Pruned
import TreeSync.Proofs.Disk.Ordering
import TreeSync.Proofs.Mirroring

namespace TreeSync

/-! What a listing of the destination says.

It is an inventory: all that stands beneath the root is on it, each entry once, and it rises
by the names on the way. The order comes from sorting each directory, so the order in which
the system reads one is nowhere to be seen.
-/

open TreeSync.Action

/-- The names that a path goes through. -/
def Path.stepNames (path : Path) : List Name :=
  path.components.map Component.bytes

theorem Path.stepNames_ofNames {names : List Name} (plain : ∀ name ∈ names, name.Plain) :
    (ofNames names).stepNames = names := by
  rw [Path.stepNames, components_ofNames plain, List.map_map]
  exact List.map_id names

/-- Where a found entry stands. -/
def FoundEntry.place (root : Location) (entry : FoundEntry) : Location :=
  entry.path.stepNames.reverse ++ root

/-- The same host, with another tree to read. -/
def Host.reread (host : Host) (tree : Tree) : Host :=
  { host with disk := { host.disk with tree } }

namespace Destination

variable {tree reread : Tree} {root : Location} {found : Location × Node} {path : Path}

/-- A list of found entries that shows all there is beneath `root`, in order. -/
structure Inventory (tree : Tree) (root : Location) (entries : List FoundEntry) : Prop where
  complete : ∀ place, tree.Stands root place ↔ ∃ entry ∈ entries, entry.place root = place
  once : (entries.map (·.place root)).Nodup
  spelled : ∀ entry ∈ entries, entry.path = .ofNames entry.path.stepNames
  kinds : ∀ entry ∈ entries, entry.isDirectory = true ↔ tree.HasDirectory (entry.place root)
  /-- Nothing is listed beneath what is no directory, be it a link to one. -/
  descends : ∀ entry ∈ entries, ∀ inner ∈ entries, entry.path.stepNames <+: inner.path.stepNames →
    entry ≠ inner → entry.isDirectory = true
  rises : entries.Pairwise fun earlier later => earlier.path.stepNames < later.path.stepNames
  /-- What an entry holds follows it without a gap. -/
  gathers : ∀ entry ∈ entries, ∃ before inside after,
    entries = before ++ entry :: (inside ++ after) ∧
    (∀ other ∈ inside, entry.path.stepNames <+: other.path.stepNames) ∧
    ∀ other ∈ before ++ after, ¬ entry.path.stepNames <+: other.path.stepNames

section Showing

variable (proper : tree.Proper) (listed : found ∈ tree.beneath root)

include proper listed

theorem stepNames_shown : (shown root found).path.stepNames = root.namesTo found.1 := by
  obtain ⟨holds, there⟩ := Tree.mem_beneath.mp listed
  refine Path.stepNames_ofNames fun name member => (proper _ _ there name ?_).toPlain
  rw [← Location.append_namesTo holds.suffix]
  exact List.mem_append_left _ (List.mem_reverse.mpr member)

theorem place_shown : (shown root found).place root = found.1 := by
  rw [FoundEntry.place, stepNames_shown proper listed]
  exact Location.append_namesTo (Tree.mem_beneath.mp listed).1.suffix

end Showing

theorem namesTo_prefix_iff {outer inner : Location} (holds : root <:+ outer)
    (holds' : root <:+ inner) : root.namesTo outer <+: root.namesTo inner ↔ outer <:+ inner := by
  conv_rhs => rw [← Location.append_namesTo holds, ← Location.append_namesTo holds']
  rw [← List.reverse_suffix, List.suffix_append_inj_of_length_eq rfl, and_iff_left rfl]

/-- The listing of a tree is an inventory. -/
theorem inventory_beneath (proper : tree.Proper) (root : Location) :
    Inventory tree root ((tree.beneath root).map (shown root)) := by
  have rises : ((tree.beneath root).map (shown root)).Pairwise fun earlier later =>
      earlier.path.stepNames < later.path.stepNames := by
    refine List.pairwise_map.mpr ((tree.rising_beneath root).imp_of_mem ?_)
    intro earlier later listed listed' less
    rwa [stepNames_shown proper listed, stepNames_shown proper listed']
  constructor
  case rises => exact rises
  case gathers => exact fun entry listed => exists_block_of_rising rises listed
  case complete =>
    intro place
    constructor
    · rintro ⟨holds, node, there⟩
      have listed := Tree.mem_beneath.mpr ⟨holds, there⟩
      exact ⟨_, List.mem_map_of_mem listed, place_shown proper listed⟩
    · rintro ⟨entry, member, rfl⟩
      obtain ⟨found, listed, rfl⟩ := List.mem_map.mp member
      rw [place_shown proper listed]
      obtain ⟨holds, there⟩ := Tree.mem_beneath.mp listed
      exact ⟨holds, found.2, there⟩
  case once =>
    rw [List.map_map]
    have places : (tree.beneath root).map (FoundEntry.place root ∘ shown root) =
        (tree.beneath root).map Prod.fst :=
      List.map_congr_left fun found listed => place_shown proper listed
    rw [places, ← List.nodup_reverse, ← List.map_reverse]
    exact (inward_beneath tree root).nodup
  case spelled =>
    intro entry member
    obtain ⟨found, listed, rfl⟩ := List.mem_map.mp member
    rw [stepNames_shown proper listed]
    rfl
  case kinds =>
    intro entry member
    obtain ⟨found, listed, rfl⟩ := List.mem_map.mp member
    rw [place_shown proper listed]
    exact Tree.isDirectory_iff (Tree.mem_beneath.mp listed).2
  case descends =>
    intro entry member inner member' within apart
    obtain ⟨found, listed, rfl⟩ := List.mem_map.mp member
    obtain ⟨other, listed', rfl⟩ := List.mem_map.mp member'
    obtain ⟨holds, there⟩ := Tree.mem_beneath.mp listed
    obtain ⟨holds', there'⟩ := Tree.mem_beneath.mp listed'
    rw [stepNames_shown proper listed, stepNames_shown proper listed',
      namesTo_prefix_iff holds.suffix holds'.suffix] at within
    have elsewhere : found.1 ≠ other.1 := by
      intro same
      rw [same, there'] at there
      exact apart (congrArg (shown root) (Prod.ext same (Option.some.inj there).symm))
    exact (Tree.isDirectory_iff there).mpr
      ((holds'.leads holds.suffix within elsewhere).hasDirectory holds.ne_root)

/-- Where a listing succeeds, nothing was too deep. -/
theorem not_tooDeep_of_contents {host scanned : Host} {entries : List FoundEntry} {place : Location}
    (real : host.disk.tree.directoryAt? host.disk.workingDirectory path = .ok (some root))
    (ran : contents path host = .ok entries scanned) (stands : host.disk.tree.Stands root place) :
    ¬ TooDeep path root place := by
  obtain ⟨holds, node, there⟩ := stands
  exact ((contents_lists real).of_ok ran).1 (place, node) (Tree.mem_beneath.mpr ⟨holds, there⟩)

/-- A listing depends on the nodes of the tree alone. -/
theorem contents_reread (path : Path) (reread : Tree) :
    Mirrors (fun now there => now.disk.tree.SameNodes reread ∧ there = now.reread reread)
      (contents path) (contents path) := by
  have reports (level : UInt8) (message : String) :
      Mirrors (ε := Failure)
        (fun now there => now.disk.tree.SameNodes reread ∧ there = now.reread reread)
        (Host.debug .fileList level message) (Host.debug .fileList level message) := by
    refine .change ?_
    rintro now _ ⟨same, rfl⟩
    exact ⟨same, rfl⟩
  have looks : Mirrors (ε := Failure)
      (fun now there => now.disk.tree.SameNodes reread ∧ there = now.reread reread)
      (attempt (Host.onDisk (findRoot path))) (attempt (Host.onDisk (findRoot path))) := by
    rintro now _ ⟨same, rfl⟩
    have found : rootOn (now.reread reread) path = rootOn now path := by
      simp only [rootOn, Host.reread, same.directoryAt?]
    rw [attempt_findRoot, attempt_findRoot, found]
    exact .ok _ ⟨same, rfl⟩
  refine .bind looks fun looked => ?_
  rcases looked with fault | _ | directory
  · exact .cond (.pure []) (.throw _)
  · exact .pure []
  · refine .bind (reports _ _) fun _ => .get ?_
    rintro now _ ⟨same, rfl⟩
    have listing : (now.reread reread).disk.tree.beneath directory =
        now.disk.tree.beneath directory := same.beneath directory
    rw [listing]
    refine .bind (.mapM (fun found => ?_) _) fun entries => .bind (reports _ _) fun _ => .pure entries
    exact .cond (.refuse _) (.bind (reports _ _) fun _ => .pure _)

/-- A root that is read as `b`, `a-b` and `a`. The last is a directory with a file, the first a
link to it. -/
def unsortedTree : Tree :=
  ((((Tree.empty.set [[100]] (.directory ⟨0o755, 0⟩)).set [[98], [97], [100]]
    (.file ⟨0o644, 0⟩ [1])).set [[97], [100]] (.directory ⟨0o755, 0⟩)).set [[97, 45, 98], [100]]
    (.file ⟨0o644, 0⟩ [])).set [[98], [100]] (.link ⟨[97]⟩)

def unsorted : Host := ⟨{ tree := unsortedTree }, {}⟩

theorem beneath_unsorted : (unsortedTree.beneath [[100]]).map (shown [[100]]) =
    [⟨⟨[97]⟩, true⟩, ⟨⟨[97, 47, 98]⟩, false⟩, ⟨⟨[97, 45, 98]⟩, false⟩, ⟨⟨[98]⟩, false⟩] := by
  have outer : unsortedTree.sortedNames [[100]] = [[97], [97, 45, 98], [98]] := by
    have names : unsortedTree.namesIn [[100]] = [[98], [97, 45, 98], [97]] := by decide
    have first : ¬ [98] ≤ ([97, 45, 98] : Name) := by decide
    have second : ¬ [97, 45, 98] ≤ ([97] : Name) := by decide
    rw [Tree.sortedNames, names]
    simp [List.mergeSort, first, second]
  have inner : unsortedTree.sortedNames [[97], [100]] = [[98]] := by
    have names : unsortedTree.namesIn [[97], [100]] = [[98]] := by decide
    rw [Tree.sortedNames, names, List.mergeSort_singleton]
  rw [Tree.beneath_eq, outer]
  simp only [List.flatMap_cons, List.flatMap_nil]
  unfold Tree.listingOf
  rw [Tree.beneath_eq, inner]
  decide

/-- The directory `d`, by as many detours as the system takes. -/
def longWay : Path := ⟨(List.replicate 2046 [dot, slash]).flatten ++ [100]⟩

def oneFileTree : Tree :=
  (Tree.empty.set [[100]] (.directory ⟨0o755, 0⟩)).set [[97, 98, 99], [100]] (.file ⟨0o644, 0⟩ [1])

def oneFile : Host := ⟨{ tree := oneFileTree }, {}⟩

end Destination

end TreeSync

import TreeSync.Disk.Calls
import TreeSync.Proofs.Outcomes

namespace TreeSync

/-! What recorded changes do to a tree, and what they leave alone. -/

section Changes

variable {tree before after : Tree} {root place location directory : Location} {time : Int64}

/-- The node without the time of a directory, which moves with its entries. -/
def Node.unstamped : Node → Node
  | .directory attributes => .directory { attributes with mtime := 0 }
  | other => other

/-- What stands at a place, whenever the entries of a directory there last changed. -/
def Tree.sight (tree : Tree) (place : Location) : Option Node :=
  (tree.get? place).map Node.unstamped

theorem Tree.sight_eq_file {attributes : Attributes} {content : Bytes} :
    tree.sight place = some (.file attributes content) ↔
      tree.get? place = some (.file attributes content) := by
  unfold sight
  constructor
  · intro seen
    obtain ⟨node, found, same⟩ := Option.map_eq_some_iff.mp seen
    cases node <;> cases same
    exact found
  · intro found
    rw [found]
    rfl

theorem Tree.sight_eq_none : tree.sight place = none ↔ tree.get? place = none :=
  Option.map_eq_none_iff

def Tree.HasDirectory (tree : Tree) (place : Location) : Prop :=
  ∃ attributes, tree.get? place = some (.directory attributes)

theorem Tree.not_hasDirectory_of_free (free : tree.get? place = none) :
    ¬ tree.HasDirectory place := by
  intro stands
  obtain ⟨attributes, found⟩ := stands
  rw [free] at found
  cases found

theorem Tree.hasDirectory_iff_sight :
    tree.HasDirectory place ↔ ∃ attributes, tree.sight place = some (.directory attributes) := by
  unfold HasDirectory sight
  constructor
  · intro met
    obtain ⟨attributes, found⟩ := met
    exact ⟨_, by rw [found]; rfl⟩
  · intro met
    obtain ⟨attributes, seen⟩ := met
    obtain ⟨node, found, same⟩ := Option.map_eq_some_iff.mp seen
    cases node <;> cases same
    exact ⟨_, found⟩

theorem Tree.HasDirectory.of_sight (same : after.sight place = before.sight place)
    (stands : before.HasDirectory place) : after.HasDirectory place := by
  rw [hasDirectory_iff_sight] at stands ⊢
  rwa [same]

theorem Node.unstamped_touch (node : Node) : (node.touch time).unstamped = node.unstamped := by
  cases node <;> rfl

theorem Tree.get?_touch (other : Location) :
    (tree.touch directory time).get? other =
      if other = directory then (tree.get? other).map (Node.touch time) else tree.get? other :=
  Tree.get?_update _ _ _ _

theorem Tree.sight_touch : (tree.touch directory time).sight place = tree.sight place := by
  unfold sight
  rw [get?_touch]
  split
  · rw [Option.map_map]
    congr 1
    exact funext Node.unstamped_touch
  · rfl

theorem Tree.sight_set (node : Node) :
    (tree.set location node).sight place =
      if place = location then some node.unstamped else tree.sight place := by
  unfold sight
  rw [get?_set]
  split <;> rfl

theorem Tree.sight_erase :
    (tree.erase location).sight place = if place = location then none else tree.sight place := by
  unfold sight
  rw [get?_erase]
  split <;> rfl

theorem Tree.sight_update {change : Node → Node} (other : place ≠ location) :
    (tree.update location change).sight place = tree.sight place := by
  unfold sight
  rw [get?_update, if_neg other]

namespace Change

/-- The places whose nodes a change may alter. -/
def touched : Change → List Location
  | .madeDirectory location _ | .madeFile location _ => [location, location.tail]
  | .removedFile location | .removedDirectory location => [location, location.tail]
  | .renamed source target => [source, source.tail, target, target.tail]
  | .wroteFile location _ | .setPermissions location _ | .setTime location _ => [location]

/-- The places where a change may alter more than the time of a directory. -/
def altered : Change → List Location
  | .madeDirectory location _ | .madeFile location _ => [location]
  | .removedFile location | .removedDirectory location => [location]
  | .renamed source target => [source, target]
  | .wroteFile location _ | .setPermissions location _ | .setTime location _ => [location]

theorem apply_renamed {source target : Location} {node : Node}
    (found : tree.get? source = some node) :
    (renamed source target).apply time tree =
      if source = target then tree
      else (((tree.erase source).set target node).touch source.tail time).touch target.tail time := by
  simp only [apply, found]

theorem get?_apply_of_not_touched {change : Change} (apart : place ∉ change.touched) :
    (change.apply time tree).get? place = tree.get? place := by
  cases change with
  | madeDirectory location permissions | madeFile location permissions =>
      simp only [touched, List.mem_cons, List.not_mem_nil, or_false, not_or] at apart
      rw [apply, Tree.get?_touch, if_neg apart.2, Tree.get?_set, if_neg apart.1]
  | removedFile location | removedDirectory location =>
      simp only [touched, List.mem_cons, List.not_mem_nil, or_false, not_or] at apart
      rw [apply, Tree.get?_touch, if_neg apart.2, Tree.get?_erase, if_neg apart.1]
  | wroteFile location _ | setPermissions location _ | setTime location _ =>
      simp only [touched, List.mem_singleton] at apart
      rw [apply, Tree.get?_update, if_neg apart]
  | renamed source target =>
      simp only [touched, List.mem_cons, List.not_mem_nil, or_false, not_or] at apart
      obtain ⟨notSource, notLeft, notTarget, notEntered⟩ := apart
      cases found : tree.get? source with
      | none => simp only [apply, found]
      | some node =>
          rw [apply_renamed found]
          split
          · rfl
          · rw [Tree.get?_touch, if_neg notEntered, Tree.get?_touch, if_neg notLeft,
              Tree.get?_set, if_neg notTarget, Tree.get?_erase, if_neg notSource]

theorem sight_madeDirectory (permissions : UInt32) :
    ((madeDirectory location permissions).apply time tree).sight place =
      if place = location then some (.directory ⟨permissions, 0⟩) else tree.sight place := by
  rw [apply, Tree.sight_touch, Tree.sight_set]
  rfl

theorem sight_madeFile (permissions : UInt32) :
    ((madeFile location permissions).apply time tree).sight place =
      if place = location then some (.file ⟨permissions, time⟩ []) else tree.sight place := by
  rw [apply, Tree.sight_touch, Tree.sight_set]
  rfl

theorem get?_madeFile (location : Location) (permissions : UInt32) :
    ((madeFile location permissions).apply time tree).get? location =
      some (.file ⟨permissions, time⟩ []) := by
  rw [← Tree.sight_eq_file, sight_madeFile, if_pos rfl]

theorem sight_removedFile :
    ((removedFile location).apply time tree).sight place =
      if place = location then none else tree.sight place := by
  rw [apply, Tree.sight_touch, Tree.sight_erase]

theorem get?_removedFile (location : Location) :
    ((removedFile location).apply time tree).get? location = none := by
  rw [← Tree.sight_eq_none, sight_removedFile, if_pos rfl]

theorem sight_renamed {source target : Location} {node : Node}
    (found : tree.sight source = some node) :
    ((renamed source target).apply time tree).sight place =
      if place = target then some node else if place = source then none else tree.sight place := by
  obtain ⟨moved, there, rfl⟩ := Option.map_eq_some_iff.mp found
  rw [apply_renamed there]
  by_cases same : source = target
  · subst same
    rw [if_pos rfl]
    split
    · next here => rw [here, found]
    · rfl
  · rw [if_neg same, Tree.sight_touch, Tree.sight_touch, Tree.sight_set, Tree.sight_erase]

theorem sight_apply_of_not_altered {change : Change} (apart : place ∉ change.altered) :
    (change.apply time tree).sight place = tree.sight place := by
  cases change with
  | madeDirectory location permissions =>
      rw [sight_madeDirectory, if_neg (by simpa [altered] using apart)]
  | madeFile location permissions =>
      rw [sight_madeFile, if_neg (by simpa [altered] using apart)]
  | removedFile location | removedDirectory location =>
      rw [apply, Tree.sight_touch, Tree.sight_erase, if_neg (by simpa [altered] using apart)]
  | wroteFile location _ | setPermissions location _ | setTime location _ =>
      rw [apply, Tree.sight_update (by simpa [altered] using apart)]
  | renamed source target =>
      simp only [altered, List.mem_cons, List.not_mem_nil, or_false, not_or] at apart
      cases found : tree.sight source with
      | none =>
          have missing := Tree.sight_eq_none.mp found
          simp only [apply, missing]
      | some node => rw [sight_renamed found, if_neg apart.2, if_neg apart.1]

theorem keepsDirectories {change : Change}
    (nothing : ∀ altered ∈ change.altered, ¬ tree.HasDirectory altered)
    (stands : tree.HasDirectory place) : (change.apply time tree).HasDirectory place :=
  stands.of_sight (sight_apply_of_not_altered fun altered => nothing place altered stands)

end Change

end Changes

/-- Changes made one after the other, each of them allowed in the tree it was made in. -/
inductive Tree.Replays (allowed : Tree → Change → Prop) (time : Int64) :
    Tree → List Change → Tree → Prop
  | done {tree : Tree} : Replays allowed time tree [] tree
  | step {before after : Tree} {change : Change} {rest : List Change}
      (fine : allowed before change) (later : Replays allowed time (change.apply time before) rest after) :
      Replays allowed time before (change :: rest) after

namespace Tree.Replays

variable {allowed : Tree → Change → Prop} {time : Int64} {before middle after : Tree}
  {first second : List Change}

theorem append (earlier : Replays allowed time before first middle)
    (later : Replays allowed time middle second after) :
    Replays allowed time before (first ++ second) after := by
  induction earlier with
  | done => exact later
  | step fine _ ih => exact .step fine (ih later)

theorem mono {wider : Tree → Change → Prop} (replays : Replays allowed time before first after)
    (weaker : ∀ tree change, allowed tree change → wider tree change) :
    Replays wider time before first after := by
  induction replays with
  | done => exact .done
  | step fine _ ih => exact .step (weaker _ _ fine) ih

theorem each {property : Change → Prop} (replays : Replays allowed time before first after)
    (fine : ∀ tree change, allowed tree change → property change) :
    ∀ change ∈ first, property change := by
  induction replays with
  | done => nofun
  | step allows _ ih => exact List.forall_mem_cons.mpr ⟨fine _ _ allows, ih⟩

end Tree.Replays

/-- A disk after some calls that made allowed changes only. -/
structure Disk.Evolves (allowed : Tree → Change → Prop) (before after : Disk) : Prop where
  replays : ∃ changes, after.changes = before.changes ++ changes ∧
    Tree.Replays allowed before.clock before.tree changes after.tree
  workingDirectory : after.workingDirectory = before.workingDirectory
  umask : after.umask = before.umask
  clock : after.clock = before.clock
  entropy : after.entropy = before.entropy
  refusals : after.refusals = before.refusals
  draws : before.draws ≤ after.draws

namespace Disk.Evolves

variable {allowed : Tree → Change → Prop} {first second third disk : Disk}

theorem refl (disk : Disk) : Evolves allowed disk disk :=
  ⟨⟨[], (List.append_nil _).symm, .done⟩, rfl, rfl, rfl, rfl, rfl, Nat.le_refl _⟩

theorem trans (earlier : Evolves allowed first second) (later : Evolves allowed second third) :
    Evolves allowed first third := by
  obtain ⟨present, recorded, replayed⟩ := earlier.replays
  obtain ⟨more, recorded', replayed'⟩ := later.replays
  rw [earlier.clock] at replayed'
  exact
    { replays := ⟨present ++ more, by rw [recorded', recorded, List.append_assoc],
        replayed.append replayed'⟩
      workingDirectory := later.workingDirectory.trans earlier.workingDirectory
      umask := later.umask.trans earlier.umask
      clock := later.clock.trans earlier.clock
      entropy := later.entropy.trans earlier.entropy
      refusals := later.refusals.trans earlier.refusals
      draws := Nat.le_trans earlier.draws later.draws }

theorem accumulates : Action.Accumulates (Evolves allowed) :=
  ⟨refl, trans⟩

theorem of_eq (same : first = second) : Evolves allowed first second :=
  same ▸ refl first

theorem of_keeps {α : Type} {step : EStateM Fault Disk α} (keeps : Action.Keeps Eq step) :
    Action.Keeps (Evolves allowed) step :=
  keeps.mono (fun _ _ same => of_eq same) (fun _ _ => trivial)

theorem perform {change : Change} (fine : allowed disk.tree change) :
    Evolves allowed disk (disk.perform change) :=
  ⟨⟨[change], rfl, .step fine .done⟩, rfl, rfl, rfl, rfl, rfl, Nat.le_refl _⟩

/-- Where no change is allowed, none was made. -/
theorem still (evolves : Evolves (fun _ _ => False) first second) : second.tree = first.tree := by
  obtain ⟨changes, -, replays⟩ := evolves.replays
  generalize first.tree = tree at replays ⊢
  generalize second.tree = last at replays ⊢
  cases replays with
  | done => rfl
  | step fine => exact fine.elim

theorem mono {wider : Tree → Change → Prop} (evolves : Evolves allowed first second)
    (weaker : ∀ tree change, allowed tree change → wider tree change) :
    Evolves wider first second := by
  obtain ⟨changes, recorded, replayed⟩ := evolves.replays
  exact { evolves with replays := ⟨changes, recorded, replayed.mono weaker⟩ }

end Disk.Evolves

/-! Places that are reached from a directory without following a link. -/

/-- Whether directories lead from `root` to a directory. -/
inductive Tree.Leads (tree : Tree) (root : Location) : Location → Prop
  | here : Leads tree root root
  | down {directory : Location} {name : Name} (above : Leads tree root directory)
      (stands : tree.HasDirectory (name :: directory)) : Leads tree root (name :: directory)

/-- Whether a place is an entry of a directory that `root` leads to. -/
def Tree.Holds (tree : Tree) (root place : Location) : Prop :=
  ∃ name directory, place = name :: directory ∧ tree.Leads root directory

/-- A change that keeps to what is reached from `root`. -/
def Change.Within (root : Location) (tree : Tree) : Change → Prop
  | .madeDirectory location _ | .madeFile location _ => tree.Holds root location
  | .removedFile location | .removedDirectory location => tree.Holds root location
  | .renamed source target => tree.Holds root source ∧ tree.Holds root target
  | .wroteFile location _ => tree.Holds root location
  | .setPermissions location _ | .setTime location _ =>
      tree.Leads root location ∨ tree.Holds root location

section Reach

variable {tree before after : Tree} {root place location : Location} {time : Int64}

theorem Tree.Leads.suffix (leads : tree.Leads root place) : root <:+ place := by
  induction leads with
  | here => exact List.suffix_refl root
  | down above stands ih => exact ih.trans (List.suffix_cons _ _)

theorem Tree.Leads.mono (leads : before.Leads root place)
    (kept : ∀ other, before.HasDirectory other → after.HasDirectory other) :
    after.Leads root place := by
  induction leads with
  | here => exact .here
  | down above stands ih => exact .down ih (kept _ stands)

theorem Tree.Leads.trans (first : tree.Leads root location) (second : tree.Leads location place) :
    tree.Leads root place := by
  induction second with
  | here => exact first
  | down above stands ih => exact .down ih stands

theorem Tree.Holds.suffix (holds : tree.Holds root place) : root <:+ place := by
  obtain ⟨name, directory, rfl, leads⟩ := holds
  exact leads.suffix.trans (List.suffix_cons _ _)

theorem Tree.Holds.suffix_tail (holds : tree.Holds root place) : root <:+ place.tail := by
  obtain ⟨name, directory, rfl, leads⟩ := holds
  exact leads.suffix

theorem Tree.Holds.ne_root (holds : tree.Holds root place) : place ≠ root := by
  obtain ⟨name, directory, rfl, leads⟩ := holds
  intro same
  have shorter := leads.suffix.length_le
  rw [← same, List.length_cons] at shorter
  omega

theorem Tree.Holds.mono (holds : before.Holds root place)
    (kept : ∀ other, before.HasDirectory other → after.HasDirectory other) :
    after.Holds root place := by
  obtain ⟨name, directory, rfl, leads⟩ := holds
  exact ⟨name, directory, rfl, leads.mono kept⟩

namespace Change.Within

variable {change : Change}

theorem suffix_touched (fine : change.Within root tree) (touches : place ∈ change.touched) :
    root <:+ place := by
  cases change with
  | madeDirectory location _ | madeFile location _ | removedFile location
    | removedDirectory location =>
      simp only [touched, List.mem_cons, List.not_mem_nil, or_false] at touches
      rcases touches with rfl | rfl
      · exact fine.suffix
      · exact fine.suffix_tail
  | renamed source target =>
      simp only [touched, List.mem_cons, List.not_mem_nil, or_false] at touches
      rcases touches with rfl | rfl | rfl | rfl
      · exact fine.1.suffix
      · exact fine.1.suffix_tail
      · exact fine.2.suffix
      · exact fine.2.suffix_tail
  | wroteFile location _ =>
      simp only [touched, List.mem_singleton] at touches
      exact touches ▸ fine.suffix
  | setPermissions location _ | setTime location _ =>
      simp only [touched, List.mem_singleton] at touches
      subst touches
      rcases fine with leads | holds
      · exact leads.suffix
      · exact holds.suffix

theorem get?_outside (fine : change.Within root tree) (outside : ¬ root <:+ place) :
    (change.apply time tree).get? place = tree.get? place :=
  get?_apply_of_not_touched fun touches => outside (fine.suffix_touched touches)

/-- The root itself may be changed, but it stays in its place. -/
theorem isDirectory_root (fine : change.Within root tree) :
    ((change.apply time tree).get? root).map Node.isDirectory =
      (tree.get? root).map Node.isDirectory := by
  have touch (node : Node) : (node.touch time).isDirectory = node.isDirectory := by
    cases node <;> rfl
  -- an entry that comes or goes may give the root another time, but no other kind
  have kept (location : Location) (apart : root ≠ location) (tree : Tree) :
      ((tree.touch location.tail time).get? root).map Node.isDirectory =
        (tree.get? root).map Node.isDirectory := by
    rw [Tree.get?_touch]
    split
    · rw [Option.map_map]
      congr 1
      exact funext touch
    · rfl
  cases change with
  | madeDirectory location _ | madeFile location _ =>
      rw [apply, kept _ (Ne.symm fine.ne_root), Tree.get?_set, if_neg (Ne.symm fine.ne_root)]
  | removedFile location | removedDirectory location =>
      rw [apply, kept _ (Ne.symm fine.ne_root), Tree.get?_erase, if_neg (Ne.symm fine.ne_root)]
  | wroteFile location _ =>
      rw [apply, Tree.get?_update, if_neg (Ne.symm fine.ne_root)]
  | setPermissions location _ | setTime location _ =>
      rw [apply, Tree.get?_update]
      split
      · rw [Option.map_map]
        congr 1
        exact funext fun node => Node.isDirectory_mapAttributes _ node
      · rfl
  | renamed source target =>
      cases found : tree.get? source with
      | none => simp only [apply, found]
      | some node =>
          rw [apply_renamed found]
          split
          · rfl
          · rw [kept _ (Ne.symm fine.2.ne_root), kept _ (Ne.symm fine.1.ne_root), Tree.get?_set,
              if_neg (Ne.symm fine.2.ne_root), Tree.get?_erase, if_neg (Ne.symm fine.1.ne_root)]

end Change.Within

end Reach

end TreeSync

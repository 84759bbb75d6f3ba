import TreeSync.Destination.Fixup
import TreeSync.Destination.Pruning
import TreeSync.Destination.Root
import TreeSync.Proofs.Disk.Effects

namespace TreeSync

/-! The passes over the destination keep to what is reached from the root.

None of them makes a file, writes to one or moves it. -/

open TreeSync.Action

/-- A change that neither makes a file nor writes to one or moves it. -/
def Change.Quiet : Change → Prop
  | .madeFile _ _ | .wroteFile _ _ | .renamed _ _ => False
  | _ => True

def Change.MakesDirectory : Change → Prop
  | .madeDirectory _ _ => True
  | _ => False

theorem Change.MakesDirectory.quiet {change : Change} (makes : change.MakesDirectory) :
    change.Quiet := by
  cases change with
  | madeDirectory => trivial
  | madeFile | wroteFile | renamed | removedFile | removedDirectory | setPermissions | setTime =>
      exact makes.elim

/-- Whether a file with that content stands at a place, whatever its attributes are. -/
def Tree.FileWith (tree : Tree) (place : Location) (content : Bytes) : Prop :=
  ∃ attributes, tree.get? place = some (.file attributes content)

theorem Tree.FileWith.of_sight {before after : Tree} {place : Location} {content : Bytes}
    (same : after.sight place = before.sight place) (stands : before.FileWith place content) :
    after.FileWith place content := by
  obtain ⟨attributes, found⟩ := stands
  rw [← Tree.sight_eq_file, ← same, Tree.sight_eq_file] at found
  exact ⟨attributes, found⟩

/-- Every file was there before, with the same content. -/
def Disk.AddsNoFile (before after : Disk) : Prop :=
  ∀ place content, after.tree.FileWith place content → before.tree.FileWith place content

theorem Disk.AddsNoFile.trans {first second third : Disk} (earlier : AddsNoFile first second)
    (later : AddsNoFile second third) : AddsNoFile first third :=
  fun place content stands => earlier place content (later place content stands)

theorem Change.Quiet.fileWith {change : Change} {time : Int64} {tree : Tree} {place : Location}
    {content : Bytes} (quiet : change.Quiet)
    (stands : (change.apply time tree).FileWith place content) : tree.FileWith place content := by
  obtain ⟨attributes, found⟩ := stands
  have updated (location : Location) (new : Attributes → Attributes)
      (found : (tree.update location (Node.mapAttributes new)).get? place =
        some (.file attributes content)) : tree.FileWith place content := by
    rw [Tree.get?_update] at found
    split at found
    · obtain ⟨node, there, same⟩ := Option.map_eq_some_iff.mp found
      cases node <;> cases same
      exact ⟨_, there⟩
    · exact ⟨attributes, found⟩
  cases change with
  | madeFile | wroteFile | renamed => exact quiet.elim
  | madeDirectory location permissions =>
      rw [← Tree.sight_eq_file, sight_madeDirectory] at found
      split at found
      · cases found
      · exact ⟨attributes, Tree.sight_eq_file.mp found⟩
  | removedFile location | removedDirectory location =>
      rw [← Tree.sight_eq_file, apply, Tree.sight_touch, Tree.sight_erase] at found
      split at found
      · cases found
      · exact ⟨attributes, Tree.sight_eq_file.mp found⟩
  | setPermissions location permissions => exact updated location _ found
  | setTime location mtime => exact updated location _ found

theorem Disk.Evolves.addsNoFile {allowed : Tree → Change → Prop} {before after : Disk}
    (evolves : Evolves allowed before after)
    (quiet : ∀ tree change, allowed tree change → change.Quiet) : AddsNoFile before after := by
  intro place content stands
  obtain ⟨changes, -, replays⟩ := evolves.replays
  generalize before.tree = tree at replays ⊢
  generalize after.tree = last at replays stands
  induction replays with
  | done => exact stands
  | step fine _ ih => exact (quiet _ _ fine).fileWith (ih stands)

/-- A quiet change that keeps to what is reached from `root`. -/
def Change.Tidies (root : Location) (tree : Tree) (change : Change) : Prop :=
  change.Quiet ∧ change.Within root tree

/-- A change of nothing but attributes. -/
def Change.OfAttributes : Change → Prop
  | .setPermissions _ _ | .setTime _ _ => True
  | _ => False

/-- A change of attributes that keeps to what is reached from `root`. -/
def Change.Adorns (root : Location) (tree : Tree) (change : Change) : Prop :=
  change.OfAttributes ∧ change.Within root tree

theorem Change.Adorns.tidies {root : Location} {tree : Tree} {change : Change}
    (adorns : change.Adorns root tree) : change.Tidies root tree := by
  obtain ⟨attributes, within⟩ := adorns
  cases change with
  | setPermissions | setTime => exact ⟨trivial, within⟩
  | madeDirectory | madeFile | wroteFile | renamed | removedFile | removedDirectory =>
      exact attributes.elim

/-- The node without its attributes. -/
def Node.outline : Node → Node :=
  mapAttributes fun _ => ⟨0, 0⟩

/-- What stands at a place, whatever its attributes are. -/
def Tree.outline (tree : Tree) (place : Location) : Option Node :=
  (tree.get? place).map Node.outline

theorem Tree.outline_eq_none {tree : Tree} {place : Location} :
    tree.outline place = none ↔ tree.get? place = none :=
  Option.map_eq_none_iff

theorem Tree.outline_eq_link {tree : Tree} {place : Location} {target : Path} :
    tree.outline place = some (.link target) ↔ tree.get? place = some (.link target) := by
  unfold outline
  constructor
  · intro seen
    obtain ⟨node, found, same⟩ := Option.map_eq_some_iff.mp seen
    cases node <;> cases same
    exact found
  · intro found
    rw [found]
    rfl

theorem Tree.fileWith_iff_outline {tree : Tree} {place : Location} {content : Bytes} :
    tree.FileWith place content ↔ tree.outline place = some (.file ⟨0, 0⟩ content) := by
  unfold FileWith outline
  constructor
  · intro stands
    obtain ⟨attributes, found⟩ := stands
    rw [found]
    rfl
  · intro seen
    obtain ⟨node, found, same⟩ := Option.map_eq_some_iff.mp seen
    cases node <;> cases same
    exact ⟨_, found⟩

theorem Tree.hasDirectory_iff_outline {tree : Tree} {place : Location} :
    tree.HasDirectory place ↔ tree.outline place = some (.directory ⟨0, 0⟩) := by
  unfold HasDirectory outline
  constructor
  · rintro ⟨attributes, found⟩
    rw [found]
    rfl
  · intro seen
    obtain ⟨node, found, same⟩ := Option.map_eq_some_iff.mp seen
    cases node <;> cases same
    exact ⟨_, found⟩

theorem Change.OfAttributes.outline {change : Change} {time : Int64} {tree : Tree}
    {place : Location} (attributes : change.OfAttributes) :
    (change.apply time tree).outline place = tree.outline place := by
  cases change with
  | setPermissions location _ | setTime location _ =>
      unfold Tree.outline
      rw [apply, Tree.get?_update]
      split
      · rw [Option.map_map]
        congr 1
        funext node
        cases node <;> rfl
      · rfl
  | madeDirectory | madeFile | wroteFile | renamed | removedFile | removedDirectory =>
      exact attributes.elim

/-- What gets other attributes neither comes nor goes, and remains what it is. -/
theorem Disk.Evolves.outline {allowed : Tree → Change → Prop} {before after : Disk}
    {place : Location} (evolves : Evolves allowed before after)
    (attributes : ∀ tree change, allowed tree change → change.OfAttributes) :
    after.tree.outline place = before.tree.outline place := by
  obtain ⟨changes, -, replays⟩ := evolves.replays
  generalize before.tree = tree at replays ⊢
  generalize after.tree = last at replays ⊢
  induction replays with
  | done => rfl
  | step fine _ ih => exact ih.trans (attributes _ _ fine).outline

def Host.SameDisk (before after : Host) : Prop :=
  before.disk = after.disk

theorem Host.SameDisk.accumulates : Accumulates Host.SameDisk :=
  ⟨fun _ => rfl, Eq.trans⟩

def Host.Tidied (root : Location) (before after : Host) : Prop :=
  Disk.Evolves (Change.Tidies root) before.disk after.disk

theorem Host.Tidied.accumulates (root : Location) : Accumulates (Host.Tidied root) :=
  ⟨fun host => .refl host.disk, .trans⟩

namespace Destination

section Making

variable {path : Path}

/-- A disk on which nothing was done but making directories and the like. -/
def Quietly (before after : Disk) : Prop :=
  Disk.Evolves (fun _ change => change.Quiet) before after

theorem makeOne_makes (path : Path) :
    Keeps (Disk.Evolves fun _ change => change.MakesDirectory) (makeOne path) := by
  unfold makeOne
  split
  · exact .throw Disk.Evolves.accumulates
  · refine .get fun disk => ?_
    refine .bind Disk.Evolves.accumulates (Disk.Evolves.of_keeps (Disk.look_keeps _)) fun target _ => ?_
    intro before
    refine (Disk.makeAt_meets target).mono ?_ fun _ _ same => .of_eq same
    intro _ _ made
    obtain ⟨parent, name, _, _, _, rfl⟩ := made
    exact ⟨.perform trivial, trivial⟩

/-- What holds of making each directory holds of making the whole path. -/
theorem makePath_keeps {relation : Disk → Disk → Prop} (accumulates : Accumulates relation)
    (makes : ∀ path, Keeps relation (makeOne path)) (path : Path) :
    Keeps relation (makePath path) := by
  have finds (path : Path) (fault : Fault) : Keeps relation (orExisting path fault) := by
    refine .get fun disk => ?_
    split
    · exact .pure accumulates trivial
    · exact .throw accumulates
  induction path using makePath.induct with
  | case1 path empty =>
      rw [makePath, if_pos empty]
      exact .pure accumulates trivial
  | case2 path some ih =>
      rw [makePath, if_neg some]
      refine .bind accumulates (.attempt (makes path)) fun made _ => ?_
      split
      · exact .pure accumulates trivial
      · split
        · split
          · exact .throw accumulates
          · next parent above =>
            refine .bind accumulates (ih parent above) fun _ _ => ?_
            refine .bind accumulates (.attempt (makes path)) fun made _ => ?_
            split
            · exact .pure accumulates trivial
            · exact finds path _
        · exact finds path _

theorem makePath_makes (path : Path) :
    Keeps (Disk.Evolves fun _ change => change.MakesDirectory) (makePath path) :=
  makePath_keeps Disk.Evolves.accumulates makeOne_makes path

theorem makePath_quietly (path : Path) : Keeps Quietly (makePath path) := by
  refine (makePath_makes path).mono (fun _ _ made => ?_) fun _ _ => trivial
  exact made.mono fun _ _ => Change.MakesDirectory.quiet

end Making

variable {ε : Type} {root : Location}

theorem removeEntry_tidies (entry : FoundEntry) :
    Keeps (Disk.Evolves (Change.Tidies root)) (removeEntry root entry) := by
  intro disk
  refine (Disk.parentBeneath_meets entry.path).followedBy (fun _ _ same => .of_eq same) ?_
  intro seat _ met
  obtain ⟨parent, name⟩ := seat
  obtain ⟨rfl, seats⟩ := met
  have reaches {place : Location} {last : Name}
      (resolved : disk.tree.resolve parent ⟨name⟩ = .ok (.entry place last)) :
      disk.tree.Holds root (last :: place) := by
    rcases seats.name with rfl | plain
    · rw [Tree.resolve_self] at resolved
      cases resolved
    · rw [Tree.resolve_plain plain (Tree.check_of_resolve resolved)] at resolved
      cases resolved
      exact ⟨name, parent, rfl, seats.leads⟩
  refine Meets.cond (fun _ => ?_) fun _ => ?_
  · refine (Disk.removeDirectory_meets _).mono ?_ (fun _ _ same => .of_eq same)
    intro _ _ removed
    obtain ⟨place, last, resolved, rfl⟩ := removed
    exact ⟨.perform ⟨trivial, reaches resolved⟩, trivial⟩
  · refine (Disk.removeFile_meets _).mono ?_ (fun _ _ same => .of_eq same)
    intro _ _ removed
    obtain ⟨place, last, resolved, rfl⟩ := removed
    exact ⟨.perform ⟨trivial, reaches resolved⟩, trivial⟩

theorem reportRemoval_keeps (removals : Removals) (entry : FoundEntry) :
    Keeps Host.SameDisk (reportRemoval (ε := ε) removals entry) :=
  fun _ => ⟨rfl, trivial⟩

theorem prune_tidies (removals : Removals) (entry : FoundEntry) :
    Keeps (Host.Tidied root) (prune root removals entry) := by
  have removes : Keeps (Host.Tidied root) (Host.onDisk (removeEntry root entry)) :=
    .within (removeEntry_tidies entry) fun _ _ evolves => evolves
  exact .bind (Host.Tidied.accumulates root) (.explaining removes) fun _ _ =>
    (reportRemoval_keeps removals entry).mono (fun _ _ same => .of_eq same) fun _ _ => trivial

theorem pruneAll_tidies (found : List FoundEntry) (listed : List ListEntry) :
    Keeps (Host.Tidied root) (pruneAll root found listed) := by
  have accumulates := Host.Tidied.accumulates root
  refine .bind accumulates (.foldlM accumulates prune_tidies _ _) fun removals _ => ?_
  exact .bind accumulates (.change fun host => .refl host.disk) fun _ _ =>
    .pure accumulates trivial

theorem planRemovals_keeps (found : List FoundEntry) (listed : List ListEntry) :
    Keeps Host.SameDisk
      (planRemovals (ε := ε) found listed) :=
  .foldlM Host.SameDisk.accumulates reportRemoval_keeps _ _

/-- What looking for the root comes to on a host. -/
def rootOn (host : Host) (root : Path) : Except Fault (Option Location) :=
  if 0 ∈ root.bytes then .error .nulInPath
  else (host.disk.tree.directoryAt? host.disk.workingDirectory root).mapError .system

theorem attempt_findRoot (root : Path) (host : Host) :
    (attempt (Host.onDisk (findRoot root)) : EStateM Failure Host _) host =
      .ok (rootOn host root) host := by
  have looked : findRoot root host.disk =
      if 0 ∈ root.bytes then .error .nulInPath host.disk
      else Disk.look (·.directoryAt? host.disk.workingDirectory root) host.disk := by
    unfold findRoot
    split <;> rfl
  unfold attempt Host.onDisk within rootOn
  rw [looked]
  by_cases nul : 0 ∈ root.bytes
  · simp only [if_pos nul]
  · simp only [if_neg nul, Disk.look]
    cases host.disk.tree.directoryAt? host.disk.workingDirectory root <;> rfl

theorem contents_keeps (path : Path) :
    Keeps Host.SameDisk (contents path) := by
  have accumulates := Host.SameDisk.accumulates
  have finds : Keeps Eq (findRoot path) := by
    intro before
    exact Meets.cond (fun _ => Meets.throw rfl) fun _ => Meets.get (Disk.look_keeps _ before)
  have looks : Keeps Host.SameDisk (Host.onDisk (findRoot path)) :=
    .within finds fun _ _ same => same
  refine .bind accumulates (.attempt looks) fun found _ => ?_
  split
  · split
    · exact .pure accumulates trivial
    · exact .throw accumulates
  · exact .pure accumulates trivial
  · next directory =>
    refine .bind accumulates (.change fun _ => rfl) fun _ _ => .get fun host => ?_
    refine .bind accumulates (.mapM accumulates (fun node => ?_) _) fun entries _ => ?_
    · intro before
      refine Meets.cond (fun _ => Meets.throw rfl) fun _ => ?_
      exact Meets.changeThen (Meets.pure ⟨rfl, trivial⟩)
    · exact .bind accumulates (.change fun _ => rfl) fun _ _ => .pure accumulates trivial

end Destination

def RootedDisk.Adorned (before after : RootedDisk) : Prop :=
  after.root = before.root ∧ Disk.Evolves (Change.Adorns before.root) before.disk after.disk

theorem RootedDisk.Adorned.accumulates : Accumulates RootedDisk.Adorned where
  refl rooted := ⟨rfl, .refl rooted.disk⟩
  trans earlier later := by
    obtain ⟨same, evolves⟩ := earlier
    obtain ⟨same', evolves'⟩ := later
    rw [same] at same' evolves'
    exact ⟨same', evolves.trans evolves'⟩

theorem RootedDisk.change_adorns (path : Path) {apply : Location → EStateM Fault Disk Unit}
    (applies : ∀ {root place : Location} {disk : Disk}, disk.tree.Leads root place →
      Disk.Evolves (Change.Adorns root) disk (stateAfter (apply place) disk)) :
    Keeps RootedDisk.Adorned (change path apply) := by
  intro rooted
  unfold change
  change Meets (within RootedDisk.disk _ _) rooted _ _
  refine Meets.within ((Disk.openBeneath_meets path).followedBy ?_ ?_)
  · exact fun _ _ same => ⟨rfl, .of_eq same⟩
  · intro place _ met
    obtain ⟨rfl, _, leads⟩ := met
    refine (Meets.left (apply place)).mono ?_ ?_
    · intro _ _ same
      subst same
      exact ⟨⟨rfl, applies leads⟩, trivial⟩
    · intro _ _ same
      subst same
      exact ⟨rfl, applies leads⟩

namespace Destination

theorem fixUp_adorns (options : FixupOptions) (files : List ListEntry) (marks : NewDirectories) :
    Keeps (fun before after : Fixing RootedDisk => before.keeper.Adorned after.keeper)
      (fixUp options files marks) := by
  have accumulates : Accumulates fun before after : Fixing RootedDisk =>
      before.keeper.Adorned after.keeper :=
    RootedDisk.Adorned.accumulates.on Fixing.keeper
  have fixes (step : String) (path : Path) (report : String) {call : EStateM Fault RootedDisk Unit}
      (adorns : Keeps RootedDisk.Adorned call) :
      Keeps (fun before after : Fixing RootedDisk => before.keeper.Adorned after.keeper)
        (fixOne step path call report) :=
    .bind accumulates (.explaining (.within adorns fun _ _ held => held)) fun _ _ =>
      .change fun fixing => RootedDisk.Adorned.accumulates.refl fixing.keeper
  have times (entry : ListEntry) (done : Fixups) :
      Keeps (fun before after : Fixing RootedDisk => before.keeper.Adorned after.keeper)
        (fixTime options entry done) := by
    unfold fixTime
    split
    · refine .bind accumulates (fixes _ _ _ ?_) fun _ _ => .pure accumulates trivial
      refine RootedDisk.change_adorns entry.path fun leads => Meets.stateAfter ?_
      refine (Disk.setTime_meets _ _).mono (fun _ _ same => ?_) fun _ _ same => ?_
      · exact same ▸ .perform ⟨trivial, .inl leads⟩
      · exact same ▸ .refl _
    · exact .pure accumulates trivial
  have permissions (isNew : Bool) (entry : ListEntry) (done : Fixups) :
      Keeps (fun before after : Fixing RootedDisk => before.keeper.Adorned after.keeper)
        (fixPermissions options isNew entry done) := by
    unfold fixPermissions
    split
    · refine .bind accumulates (fixes _ _ _ ?_) fun _ _ => .pure accumulates trivial
      refine RootedDisk.change_adorns entry.path fun leads => Meets.stateAfter ?_
      refine (Disk.setPermissions_meets _).mono (fun _ _ same => ?_) fun _ _ same => ?_
      · exact same ▸ .perform ⟨trivial, .inl leads⟩
      · exact same ▸ .refl _
    · exact .pure accumulates trivial
  unfold fixUp
  split
  · refine .foldlM accumulates (fun done item => ?_) _ _
    obtain ⟨entry, index⟩ := item
    change Keeps _ (if entry.isDirectory = true then _ else _)
    split
    · exact .bind accumulates (times entry done) fun done _ => permissions _ entry done
    · exact .pure accumulates trivial
  · exact .pure accumulates trivial

end Destination

end TreeSync

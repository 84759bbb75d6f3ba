import TreeSync.Proofs.Transfer.Collecting
import TreeSync.Proofs.Transfer.Requesting

namespace TreeSync

/-! Two disks on which the same lookups succeed.

While files arrive, the uploader looks at a disk on which some of them stand already. A
step that succeeds there would have done the same on the disk without them, as long as
the step itself is about none of their places.
-/

open TreeSync.Action

/-- Whether a descent that gets through in one tree, or finds something missing there, does
so in the other. -/
structure Tree.Guides (now bare : Tree) : Prop where
  directory : ∀ place, now.HasDirectory place → bare.HasDirectory place
  missing : ∀ place, now.get? place = none → bare.get? place = none

/-- A tree that shows files in some places, where the other shows no directory, and
everywhere else what the other shows. -/
structure Tree.Overlays (now : Tree) (laid : Location → Prop) (bare : Tree) : Prop where
  elsewhere : ∀ place, ¬ laid place → now.sight place = bare.sight place
  file : ∀ place, laid place → now.HasFile place
  under : ∀ place, laid place → ¬ bare.HasDirectory place

namespace Tree.Overlays

variable {laid : Location → Prop} {bare now : Tree} {place : Location}

theorem not_laid_of_directory (overlays : Overlays now laid bare) (stands : now.HasDirectory place) :
    ¬ laid place :=
  fun there => (overlays.file place there).not_hasDirectory stands

theorem not_laid_of_free (overlays : Overlays now laid bare) (free : now.get? place = none) :
    ¬ laid place := by
  intro there
  obtain ⟨attributes, content, found⟩ := overlays.file place there
  rw [free] at found
  cases found

theorem guides (overlays : Overlays now laid bare) : now.Guides bare where
  directory place stands := by
    have same := overlays.elsewhere place (overlays.not_laid_of_directory stands)
    exact stands.of_sight same.symm
  missing place free := by
    have same := overlays.elsewhere place (overlays.not_laid_of_free free)
    rwa [← Tree.sight_eq_none, ← same, Tree.sight_eq_none]

/-- Other files may be laid, as long as each place shows what it did or what it has to show. -/
theorem relaid {laid' : Location → Prop} {after : Tree} (overlays : Overlays now laid bare)
    (covered : ∀ place, laid' place → (laid place ∧ after.sight place = now.sight place) ∨
      (after.HasFile place ∧ ¬ bare.HasDirectory place))
    (bared : ∀ place, ¬ laid' place → (¬ laid place ∧ after.sight place = now.sight place) ∨
      after.sight place = bare.sight place) : Overlays after laid' bare where
  elsewhere place apart := by
    rcases bared place apart with same | shown
    · exact same.2.trans (overlays.elsewhere place same.1)
    · exact shown
  file place there := by
    rcases covered place there with same | stands
    · exact .of_sight same.2 (overlays.file place same.1)
    · exact stands.1
  under place there := by
    rcases covered place there with same | stands
    · exact overlays.under place same.1
    · exact stands.2

/-- A directory that is made where nothing stands is made under no file. -/
theorem madeDirectory {location : Location} (overlays : Overlays now laid bare)
    (free : now.get? location = none) (permissions : UInt32) (time bareTime : Int64) :
    ((Change.madeDirectory location permissions).apply time now).Overlays laid
      ((Change.madeDirectory location permissions).apply bareTime bare) := by
  have other (place : Location) (there : laid place) : place ≠ location := by
    intro same
    exact overlays.not_laid_of_free (same ▸ free) there
  constructor
  · intro place apart
    rw [Change.sight_madeDirectory, Change.sight_madeDirectory, overlays.elsewhere place apart]
  · intro place there
    obtain ⟨attributes, content, found⟩ := overlays.file place there
    refine ⟨attributes, content, ?_⟩
    rwa [← Tree.sight_eq_file, Change.sight_madeDirectory, if_neg (other place there),
      Tree.sight_eq_file]
  · intro place there stands
    refine overlays.under place there (stands.of_sight ?_)
    rw [Change.sight_madeDirectory, if_neg (other place there)]

end Tree.Overlays

namespace Disk

/-- Whether a lookup that succeeds on one disk, or fails there because something is missing,
ends in the same way on the other. -/
structure Sees {α : Type} (step : EStateM Fault Disk α) (now bare : Disk) : Prop where
  done : ∀ value after, step now = .ok value after → after = now ∧ step bare = .ok value bare
  missing : ∀ fault after, step now = .error fault after → fault.kind = .notFound →
    after = now ∧ step bare = .error fault bare

namespace Sees

variable {α β : Type} {now bare : Disk}

theorem of_ok {step : EStateM Fault Disk α} {value : α} (here : step now = .ok value now)
    (there : step bare = .ok value bare) : Sees step now bare where
  done _ _ ran := by
    rw [here] at ran
    cases ran
    exact ⟨rfl, there⟩
  missing _ _ ran := by
    rw [here] at ran
    cases ran

theorem of_error {step : EStateM Fault Disk α} {fault : Fault}
    (here : step now = .error fault now) (there : step bare = .error fault bare) :
    Sees step now bare where
  done _ _ ran := by
    rw [here] at ran
    cases ran
  missing _ _ ran _ := by
    rw [here] at ran
    cases ran
    exact ⟨rfl, there⟩

theorem of_failure {step : EStateM Fault Disk α} {fault : Fault} {after : Disk}
    (here : step now = .error fault after) (other : fault.kind ≠ .notFound) :
    Sees step now bare where
  done _ _ ran := by
    rw [here] at ran
    cases ran
  missing _ _ ran kind := by
    rw [here] at ran
    cases ran
    exact absurd kind other

theorem pure (value : α) : Sees (Pure.pure value) now bare :=
  .of_ok rfl rfl

theorem throw (fault : Fault) : Sees (MonadExcept.throw fault : EStateM Fault Disk α) now bare :=
  .of_error rfl rfl

theorem bind {step : EStateM Fault Disk β} {rest : β → EStateM Fault Disk α}
    (first : Sees step now bare) (next : ∀ value, Sees (rest value) now bare) :
    Sees (step >>= rest) now bare := by
  have splits (final : EStateM.Result Fault Disk α) (ran : (step >>= rest) now = final) :
      (∃ fault after, step now = .error fault after ∧ final = .error fault after) ∨
        ∃ value, step now = .ok value now ∧ step bare = .ok value bare ∧
          rest value now = final := by
    cases head : step now with
    | error fault after =>
        rw [bind_error head] at ran
        exact .inl ⟨fault, after, rfl, ran.symm⟩
    | ok value after =>
        rw [bind_ok head] at ran
        obtain ⟨same, there⟩ := first.done value after head
        subst same
        exact .inr ⟨value, rfl, there, ran⟩
  constructor
  · intro value after ran
    rcases splits _ ran with failed | went
    · obtain ⟨_, _, _, wrong⟩ := failed
      cases wrong
    · obtain ⟨middle, _, there, later⟩ := went
      rw [bind_ok there]
      exact (next middle).done value after later
  · intro fault after ran kind
    rcases splits _ ran with failed | went
    · obtain ⟨_, _, head, same⟩ := failed
      cases same
      obtain ⟨same, there⟩ := first.missing fault after head kind
      exact ⟨same, bind_error there⟩
    · obtain ⟨middle, _, there, later⟩ := went
      rw [bind_ok there]
      exact (next middle).missing fault after later kind

theorem beneath {step : EStateM Fault Disk α} (path : Path) (sees : Sees step now bare) :
    Sees (explaining (.beneath path) step) now bare := by
  constructor
  · intro value after ran
    obtain ⟨same, there⟩ := sees.done _ _ (of_explaining_ok ran)
    exact ⟨same, by rw [explaining, there]⟩
  · intro fault after ran kind
    unfold explaining at ran ⊢
    cases head : step now with
    | ok value middle =>
        rw [head] at ran
        cases ran
    | error inner middle =>
        rw [head] at ran
        cases ran
        obtain ⟨same, there⟩ := sees.missing _ _ head kind
        exact ⟨same, by rw [there]⟩

end Sees

variable {now bare : Disk} {root directory : Location} {name : Name}

theorem entryOf_eq (directory : Location) (name : Name) (disk : Disk) :
    entryOf directory name disk =
      if 0 ∈ name then .error (.system .invalid) disk
      else if Name.maxLength < name.length then .error (.system .nameTooLong) disk
      else .ok (disk.tree.get? (name :: directory)) disk := by
  by_cases nul : 0 ∈ name
  · have refused : checkName name disk = .error (.system .invalid) disk := by
      unfold checkName
      rw [if_pos nul]
      rfl
    rw [if_pos nul]
    exact bind_error refused
  · have passed : checkName name disk = .ok () disk := by
      unfold checkName
      rw [if_neg nul]
      rfl
    rw [if_neg nul]
    refine (bind_ok passed).trans ?_
    by_cases long : Name.maxLength < name.length <;> simp [look, Tree.childAt, long]

theorem openDirectory_eq (directory : Location) (name : Name) (disk : Disk) :
    openDirectory directory name disk =
      if 0 ∈ name then .error (.system .invalid) disk
      else if Name.maxLength < name.length then .error (.system .nameTooLong) disk
      else
        match disk.tree.get? (name :: directory) with
        | some (.directory _) => .ok (name :: directory) disk
        | some _ => .error (.system .notDirectory) disk
        | none => .error (.system .noEntry) disk := by
  have looked := entryOf_eq directory name disk
  by_cases nul : 0 ∈ name
  · rw [if_pos nul] at looked ⊢
    exact bind_error looked
  by_cases long : Name.maxLength < name.length
  · rw [if_neg nul, if_pos long] at looked ⊢
    exact bind_error looked
  rw [if_neg nul, if_neg long] at looked ⊢
  refine (bind_ok looked).trans ?_
  cases disk.tree.get? (name :: directory) with
  | none => rfl
  | some node => cases node <;> rfl

theorem openDirectory_sees (guides : now.tree.Guides bare.tree) :
    Sees (openDirectory directory name) now bare := by
  have here := openDirectory_eq directory name now
  have there := openDirectory_eq directory name bare
  by_cases nul : 0 ∈ name
  · rw [if_pos nul] at here there
    exact .of_error here there
  by_cases long : Name.maxLength < name.length
  · rw [if_neg nul, if_pos long] at here there
    exact .of_error here there
  rw [if_neg nul, if_neg long] at here there
  split at here
  · next attributes found =>
    obtain ⟨attributes, found'⟩ := guides.directory _ ⟨attributes, found⟩
    rw [found'] at there
    exact .of_ok here there
  · exact .of_failure here (by decide)
  · next free =>
    rw [guides.missing _ free] at there
    exact .of_error here there

theorem descend_sees (guides : now.tree.Guides bare.tree) (names : List Name) :
    Sees (descend directory names) now bare := by
  induction names generalizing directory with
  | nil => exact .pure _
  | cons name rest ih => exact .bind (openDirectory_sees guides) fun _ => ih

theorem descent_sees (path : Path) : Sees (descent path) now bare := by
  unfold descent
  split
  · exact .pure _
  · exact .throw _

theorem parentBeneath_sees (guides : now.tree.Guides bare.tree) (path : Path) :
    Sees (parentBeneath root path) now bare := by
  refine .bind (descent_sees path) fun names => ?_
  split
  · exact .pure _
  · exact .bind (descend_sees guides _) fun _ => .pure _

theorem reach_sees (guides : now.tree.Guides bare.tree) (path : Path) :
    Sees (reach root path) now bare :=
  .beneath path (parentBeneath_sees guides path)

/-- The place that a name stands for in a directory, which goes by its own name too. -/
def seatOf (directory : Location) (name : Name) : Location :=
  if name = selfName then directory else name :: directory

/-- Why a name cannot be looked up, whatever the directory holds. -/
def refusal? (name : Name) : Option Errno :=
  if name = selfName then none
  else if 0 ∈ name then some .invalid
  else if Name.maxLength < name.length then some .nameTooLong
  else none

theorem refusal?_ne_noEntry {errno : Errno} (refused : refusal? name = some errno) :
    errno ≠ .noEntry := by
  unfold refusal? at refused
  split at refused
  · cases refused
  · split at refused
    · cases refused
      decide
    · split at refused
      · cases refused
        decide
      · cases refused

theorem nodeAt_eq (directory : Location) (name : Name) (disk : Disk) :
    nodeAt directory name disk =
      match refusal? name, disk.tree.get? (seatOf directory name) with
      | some errno, _ => .error (.system errno) disk
      | none, some node => .ok node disk
      | none, none => .error (.system .noEntry) disk := by
  unfold nodeAt refusal? seatOf
  by_cases itself : name = selfName
  · have got : (MonadState.get : EStateM Fault Disk Disk) disk = .ok disk disk := rfl
    simp only [if_pos itself]
    rw [bind_ok got]
    cases disk.tree.get? directory <;> rfl
  have looked := entryOf_eq directory name disk
  simp only [if_neg itself]
  by_cases nul : 0 ∈ name
  · rw [if_pos nul] at looked
    rw [if_pos nul, bind_error looked]
  by_cases long : Name.maxLength < name.length
  · rw [if_neg nul, if_pos long] at looked
    rw [if_neg nul, if_pos long, bind_error looked]
  rw [if_neg nul, if_neg long] at looked
  rw [if_neg nul, if_neg long, bind_ok looked]
  cases disk.tree.get? (name :: directory) <;> rfl

end Disk

theorem Tree.Seats.seatOf {tree : Tree} {root parent : Location} {path : Path} {name : Name}
    (seats : tree.Seats root path parent name) :
    path.placeBeneath root = some (Disk.seatOf parent name) := by
  cases seats with
  | itself place => exact place
  | entry leads plain place =>
      rw [Disk.seatOf, if_neg plain.notSelf]
      exact place

namespace Standing

variable {root parent : Location} {path : Path} {name : Name} {fault : Fault}

theorem ofNode_unstamped (node : Node) : ofNode node.unstamped = ofNode node := by
  cases node <;> rfl

/-- What an entry is found to be where this shows. -/
def ofSight : Option Node → Standing
  | none => .missing
  | some node => ofNode node

theorem find_missing {disk after : Disk} (reached : Disk.reach root path disk = .error fault after)
    (kind : fault.kind = .notFound) : find root path disk = .ok .missing after := by
  rw [find, bind_ok (attempt_error reached)]
  simp only [if_pos kind]
  rfl

theorem find_stopped {disk after : Disk} (reached : Disk.reach root path disk = .error fault after)
    (other : fault.kind ≠ .notFound) : find root path disk = .error fault after := by
  rw [find, bind_ok (attempt_error reached)]
  simp only [if_neg other]
  rfl

theorem find_reached {disk after : Disk}
    (reached : Disk.reach root path disk = .ok (parent, name) after) :
    find root path disk =
      match Disk.refusal? name with
      | some errno => .error (.system errno) after
      | none => .ok (ofSight (after.tree.sight (Disk.seatOf parent name))) after := by
  have looked := Disk.nodeAt_eq parent name after
  rw [find, bind_ok (attempt_ok reached)]
  cases refused : Disk.refusal? name with
  | some errno =>
      have other : errno ≠ .noEntry := Disk.refusal?_ne_noEntry refused
      rw [refused] at looked
      dsimp only
      rw [bind_ok (attempt_error looked)]
      simp only [Fault.system.injEq, if_neg other]
      rfl
  | none =>
      rw [refused] at looked
      unfold Tree.sight
      cases held : after.tree.get? (Disk.seatOf parent name) with
      | none =>
          rw [held] at looked
          dsimp only
          rw [bind_ok (attempt_error looked)]
          rfl
      | some node =>
          rw [held] at looked
          dsimp only [Option.map_some, ofSight]
          rw [bind_ok (attempt_ok looked), ofNode_unstamped]
          rfl

/-- What an entry is found to be does not depend on the files laid over other places. -/
theorem find_overlaid {laid : Location → Prop} {now bare after : Disk} {standing : Standing}
    (overlays : now.tree.Overlays laid bare.tree)
    (apart : ∀ place, path.placeBeneath root = some place → ¬ laid place)
    (found : find root path now = .ok standing after) :
    after = now ∧ find root path bare = .ok standing bare := by
  have sees : Disk.Sees (Disk.reach root path) now bare := Disk.reach_sees overlays.guides path
  cases reached : Disk.reach root path now with
  | error fault middle =>
      by_cases kind : fault.kind = .notFound
      · obtain ⟨rfl, there⟩ := sees.missing fault middle reached kind
        rw [find_missing reached kind] at found
        cases found
        exact ⟨rfl, find_missing there kind⟩
      · rw [find_stopped reached kind] at found
        cases found
  | ok seat middle =>
      obtain ⟨parent, name⟩ := seat
      obtain ⟨rfl, there⟩ := sees.done _ middle reached
      obtain ⟨-, seats⟩ := (Disk.reach_meets path).of_ok reached
      have shown := overlays.elsewhere _ (apart _ seats.seatOf)
      rw [find_reached reached, shown] at found
      rw [find_reached there]
      cases refused : Disk.refusal? name with
      | some errno =>
          rw [refused] at found
          cases found
      | none =>
          rw [refused] at found
          cases found
          exact ⟨rfl, rfl⟩

end Standing

namespace Disk

variable {laid : Location → Prop} {now bare after : Disk} {directory : Location} {name : Name}
  {permissions : UInt32}

/-- A directory is made where the name can be looked up and nothing stands. -/
theorem makeDirectory_eq (directory : Location) (permissions : UInt32) (disk : Disk)
    (other : name ≠ selfName) :
    makeDirectory directory name permissions disk =
      match refusal? name, disk.tree.get? (name :: directory) with
      | some errno, _ => .error (.system errno) disk
      | none, some _ => .error (.system .exists) disk
      | none, none => .ok () (disk.perform (.madeDirectory (name :: directory)
          (permissions &&& ~~~disk.umask ||| disk.inheritedMark directory))) := by
  unfold refusal?
  by_cases nul : 0 ∈ name
  · have refused : checkName name disk = .error (.system .invalid) disk := by
      unfold checkName
      rw [if_pos nul]
      rfl
    rw [if_neg other, if_pos nul]
    exact bind_error refused
  have passed : checkName name disk = .ok () disk := by
    unfold checkName
    rw [if_neg nul]
    rfl
  rw [if_neg other, if_neg nul]
  refine (bind_ok passed).trans ?_
  rw [if_neg other]
  by_cases long : Name.maxLength < name.length
  · have refused : look (·.childAt directory name) disk = .error (.system .nameTooLong) disk := by
      simp [look, Tree.childAt, long]
    rw [if_pos long]
    exact bind_error refused
  · have looked : look (·.childAt directory name) disk =
        .ok (disk.tree.get? (name :: directory)) disk := by
      simp [look, Tree.childAt, long]
    rw [if_neg long]
    refine (bind_ok looked).trans ?_
    cases disk.tree.get? (name :: directory) <;> rfl

theorem inheritedMark_of_sight {disk other : Disk}
    (same : disk.tree.sight directory = other.tree.sight directory) :
    disk.inheritedMark directory = other.inheritedMark directory := by
  unfold Tree.sight at same
  unfold inheritedMark
  cases here : disk.tree.get? directory with
  | none =>
      rw [here] at same
      rw [Option.map_eq_none_iff.mp same.symm]
  | some node =>
      rw [here] at same
      obtain ⟨node', there, alike⟩ := Option.map_eq_some_iff.mp same.symm
      rw [there]
      cases node <;> cases node' <;> simp_all [Node.unstamped]

theorem inheritedMark_of_none (stands : ¬ now.tree.HasDirectory directory) :
    now.inheritedMark directory = 0 := by
  unfold inheritedMark
  split
  · next attributes found => exact absurd ⟨attributes, found⟩ stands
  · rfl

theorem inheritedMark_overlaid (overlays : now.tree.Overlays laid bare.tree) :
    now.inheritedMark directory = bare.inheritedMark directory := by
  by_cases there : laid directory
  · rw [inheritedMark_of_none (overlays.file directory there).not_hasDirectory,
      inheritedMark_of_none (overlays.under directory there)]
  · exact inheritedMark_of_sight (overlays.elsewhere directory there)

/-- A directory is made on both disks or on neither. -/
theorem makeDirectory_overlaid (overlays : now.tree.Overlays laid bare.tree)
    (umask : now.umask = bare.umask)
    (made : makeDirectory directory name permissions now = .ok () after) :
    ∃ bareAfter, makeDirectory directory name permissions bare = .ok () bareAfter ∧
      after.tree.Overlays laid bareAfter.tree ∧ after.umask = bareAfter.umask := by
  obtain ⟨other, free, rfl⟩ := makeDirectory_meets.of_ok made
  have makes := makeDirectory_eq directory permissions now other
  have bareMakes := makeDirectory_eq directory permissions bare other
  rw [made, free] at makes
  rw [overlays.guides.missing _ free] at bareMakes
  cases refused : refusal? name with
  | some errno =>
      rw [refused] at makes
      cases makes
  | none =>
      rw [refused] at bareMakes
      refine ⟨_, bareMakes, ?_, umask⟩
      rw [umask, inheritedMark_overlaid overlays]
      exact overlays.madeDirectory free _ _ _

end Disk

end TreeSync

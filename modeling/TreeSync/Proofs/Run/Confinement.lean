import TreeSync.Proofs.Run.Moves

namespace TreeSync

/-! An exchange changes nothing outside its root.

Each change is made to an entry of a directory that was just reached from the root, or
to a temporary file whose directory still is, since the exchange removes no directory.
-/

open TreeSync.Action FileCollector

theorem Change.WorksOn.altered {place : Location} {change : Change} (works : change.WorksOn place) :
    change.altered = [place] := by
  cases works <;> rfl

theorem Change.WorksOn.within {tree : Tree} {root place : Location} {change : Change}
    (works : change.WorksOn place) (holds : tree.Holds root place) : change.Within root tree := by
  cases works with
  | wrote => exact holds
  | gavePermissions => exact .inr holds
  | gaveTime => exact .inr holds

theorem Disk.performAll_confined {root place : Location} {changes : List Change} {disk : Disk}
    (works : ∀ change ∈ changes, change.WorksOn place) (stands : disk.tree.HasFile place)
    (holds : disk.tree.Holds root place) :
    Evolves (Change.Within root) disk (disk.performAll changes) ∧
      ∀ other, disk.tree.HasDirectory other → (disk.performAll changes).tree.HasDirectory other := by
  induction changes generalizing disk with
  | nil => exact ⟨.refl disk, fun _ stands => stands⟩
  | cons change rest ih =>
      have first := works change List.mem_cons_self
      have kept (other : Location) (directory : disk.tree.HasDirectory other) :
          (disk.perform change).tree.HasDirectory other := by
        refine Change.keepsDirectories (fun altered listed => ?_) directory
        rw [first.altered, List.mem_singleton] at listed
        rw [listed]
        exact stands.not_hasDirectory
      obtain ⟨evolves, later⟩ := ih (fun change listed => works change (List.mem_cons_of_mem _ listed))
        (first.hasFile stands) (holds.mono kept)
      exact ⟨(Evolves.perform (first.within holds)).trans evolves,
        fun other directory => later other (kept other directory)⟩

/-- A change within the open root. -/
def Task.Confines (task : Task) (tree : Tree) (change : Change) : Prop :=
  ∃ root, task.root = some root ∧ change.Within root tree

namespace ArrivingFile.Belongs

variable {arriving : ArrivingFile} {task : Task} {before after : Tree} {root : Location}
  {entry : ListEntry}

theorem holds (belongs : arriving.Belongs task before root entry) :
    before.Holds root arriving.temporary.file := by
  obtain ⟨name, named⟩ := belongs.stands.named
  exact ⟨name, arriving.temporary.directory, named.file, belongs.seats.leads⟩

theorem kept (belongs : arriving.Belongs task before root entry)
    (directories : ∀ other, before.HasDirectory other → after.HasDirectory other)
    (file : after.HasFile arriving.temporary.file) : arriving.Belongs task after root entry :=
  { belongs with
    stands := { belongs.stands with file }
    seats := belongs.seats.mono directories }

end ArrivingFile.Belongs

namespace Exchange

variable {κ : Type} [Connection κ] {task : Task} {first before after now : WholeFiles κ}

omit [Connection κ] in
theorem Sound.of_same (sound : Sound task before) (pending : after.pending = before.pending)
    (disk : after.disk = before.disk) : Sound task after := by
  unfold Sound
  rw [pending, disk]
  exact sound

omit [Connection κ] in
theorem Sound.of_idle (idle : after.pending = none) : Sound task after := by
  intro arriving held
  rw [idle] at held
  cases held

omit [Connection κ] in
theorem evolves_of_prepares (sound : Sound task before) (pending : after.pending = before.pending)
    (prepares : task.Prepares before.disk after.disk) :
    Disk.Evolves task.Confines before.disk after.disk ∧ Sound task after := by
  generalize changed : after.disk = disk at prepares
  cases prepares with
  | nothing => exact ⟨.refl _, sound.of_same pending changed⟩
  | @directory root parent name entry permissions opened listed kind leads plain place free =>
      refine ⟨.perform ⟨root, opened, name, parent, rfl, leads⟩, ?_⟩
      intro arriving held
      rw [pending] at held
      obtain ⟨root', entry', belongs⟩ := sound arriving held
      refine ⟨root', entry', belongs.kept ?_ ?_⟩
      · intro other stands
        rw [changed]
        refine Change.keepsDirectories (fun altered listed => ?_) stands
        rw [List.mem_singleton.mp listed]
        exact Tree.not_hasDirectory_of_free free
      · rw [changed]
        obtain ⟨attributes, content, found⟩ := belongs.stands.file
        refine Tree.HasFile.of_sight ?_ belongs.stands.file
        refine Change.sight_apply_of_not_altered fun listed => ?_
        rw [List.mem_singleton.mp listed, free] at found
        cases found

/-- A new temporary file stands next to the place of an entry. -/
theorem confines_made {disk : Disk} {root parent : Location} {name : Name} {path : Path}
    {turn : Nat} {temporary : Temporary} (opened : task.root = some root)
    (seats : disk.tree.Seats root path parent name)
    (fresh : Temporary.Fresh disk parent name turn temporary) :
    Disk.Evolves task.Confines disk (temporary.made turn disk) := by
  obtain ⟨drawn, rfl, named, -⟩ := fresh
  refine (Disk.Evolves.drawnTo (Nat.le_trans drawn (Nat.le_succ turn))).trans (.perform ?_)
  exact ⟨root, opened, _, _, named.file, seats.leads⟩

omit [Connection κ] in
theorem evolves_of_loses (sound : Sound task before)
    (loses : Loses task before.lendDownload after.lendDownload) :
    Disk.Evolves task.Confines before.disk after.disk ∧ Sound task after := by
  cases loses with
  | idle _ pending _ later disk =>
      refine ⟨?_, .of_idle pending⟩
      rw [show after.disk = before.disk.drawnTo _ from disk]
      exact .drawnTo later
  | stranded _ pending _ strands =>
      obtain ⟨opened, -, -, seats, stranded⟩ := strands
      refine ⟨?_, .of_idle pending⟩
      rw [show after.disk = _ from stranded.made]
      exact confines_made opened seats stranded.fresh
  | @gaveUp arriving changes held pending _ works disk =>
      obtain ⟨root, entry, belongs⟩ := sound arriving held
      obtain ⟨evolves, kept⟩ := Disk.performAll_confined works belongs.stands.file belongs.holds
      refine ⟨?_, .of_idle pending⟩
      rw [show after.disk = _ from disk]
      have fine : (Change.removedFile arriving.temporary.file).Within root
          (before.disk.performAll changes).tree := belongs.holds.mono kept
      exact (evolves.trans (.perform fine)).mono fun _ _ fine => ⟨root, belongs.opened, fine⟩

theorem evolves_of_collects {outcome : DownloadOutcome} (sound : Sound task before)
    (collects : Collects task before.lendDownload after.lendDownload outcome) :
    Disk.Evolves task.Confines before.disk after.disk ∧ Sound task after := by
  cases collects with
  | ended _ pending _ disk _ =>
      exact ⟨.of_eq (Eq.symm disk), .of_idle pending⟩
  | @began arriving entry root parent turn _ _ _ idle pending _ opened listed kind seats fresh _ disk _ _ =>
      have changed : after.disk = arriving.temporary.made turn before.disk := disk
      constructor
      · rw [changed]
        exact confines_made opened seats fresh
      · intro other held
        rw [show after.pending = some arriving from pending] at held
        cases held
        obtain rfl := fresh.directory
        refine ⟨root, entry, ⟨⟨_, fresh.named⟩, ?_, seats.name⟩, opened, listed, kind, ?_⟩
        · rw [changed]
          exact ⟨_, [], Change.get?_madeFile _ _⟩
        · rw [changed]
          exact seats.mono fun _ => fresh.keepsDirectories
  | @grew arriving content held pending _ disk _ _ _ =>
      obtain ⟨root, entry, belongs⟩ := sound arriving held
      have changed : after.disk = before.disk.perform _ := disk
      have works : (Change.wroteFile arriving.temporary.file content).WorksOn
          arriving.temporary.file := .wrote content
      obtain ⟨evolves, kept⟩ := Disk.performAll_confined (List.forall_mem_singleton.mpr works)
        belongs.stands.file belongs.holds
      constructor
      · rw [changed]
        exact evolves.mono fun _ _ fine => ⟨root, belongs.opened, fine⟩
      · intro other held
        rw [show after.pending = _ from pending] at held
        cases held
        rw [changed]
        have same := belongs.kept kept (works.hasFile belongs.stands.file)
        exact ⟨root, entry, ⟨same.stands.named, same.stands.file, same.stands.target⟩,
          same.opened, same.listed, same.kind, same.seats⟩
  | @committed arriving entry held pending _ _ _ plain free disk _ =>
      obtain ⟨root, entry', belongs⟩ := sound arriving held
      have works := finishing_works before.downloader entry task.umask arriving.temporary.file
      obtain ⟨evolves, kept⟩ := Disk.performAll_confined works belongs.stands.file belongs.holds
      refine ⟨?_, .of_idle pending⟩
      rw [show after.disk = _ from disk]
      have fine : (Change.renamed arriving.temporary.file
          (arriving.name :: arriving.temporary.directory)).Within root
            (before.disk.performAll (before.downloader.finishing entry task.umask _)).tree :=
        ⟨belongs.holds.mono kept, _, _, rfl, belongs.seats.leads.mono kept⟩
      exact (evolves.trans (.perform fine)).mono fun _ _ fine => ⟨root, belongs.opened, fine⟩

theorem Moves.evolves (sound : Sound task before) (moves : Moves task before after) :
    Disk.Evolves task.Confines before.disk after.disk ∧ Sound task after := by
  cases moves with
  | prepared pending _ prepares => exact evolves_of_prepares sound pending prepares
  | collected collects => exact evolves_of_collects sound collects
  | lost loses => exact evolves_of_loses sound loses

theorem Visits.evolves (visited : Visits task first now) (idle : first.pending = none) :
    Disk.Evolves task.Confines first.disk now.disk ∧ Sound task now := by
  refine visited.invariant
    (fun now => Disk.Evolves task.Confines first.disk now.disk ∧ Sound task now)
    ⟨.refl _, .of_idle idle⟩ (fun _ held => held.2) ?_
  intro before after held moves
  obtain ⟨evolves, sound⟩ := moves.evolves held.2
  exact ⟨held.1.trans evolves, sound⟩

omit [Connection κ] in
theorem abandonPending_disk (sound : Sound task now) :
    (∃ arriving, now.pending = some arriving ∧
      (abandonPending now).disk = now.disk.perform (.removedFile arriving.temporary.file)) ∨
    now.pending = none ∧ (abandonPending now).disk = now.disk := by
  cases held : now.pending with
  | none =>
      exact .inr ⟨rfl, congrArg Exchange.disk (abandonPending_idle held)⟩
  | some arriving =>
      obtain ⟨root, entry, belongs⟩ := sound arriving held
      obtain ⟨name, named⟩ := belongs.stands.named
      obtain ⟨attributes, content, found⟩ := belongs.stands.file
      refine .inl ⟨arriving, rfl, ?_⟩
      unfold abandonPending
      rw [held]
      exact Temporary.discard_standing named found

theorem run_evolves (patience : Nat) (idle : first.pending = none) :
    Disk.Evolves task.Confines first.disk (stateAfter (run task patience) first).disk := by
  obtain ⟨last, visited, ended⟩ := run_visits task first patience
  obtain ⟨evolves, sound⟩ := visited.evolves idle
  rw [ended]
  rcases abandonPending_disk sound with ⟨arriving, held, removed⟩ | ⟨_, same⟩
  · obtain ⟨root, entry, belongs⟩ := sound arriving held
    rw [removed]
    exact evolves.trans (.perform ⟨root, belongs.opened, belongs.holds⟩)
  · rw [same]
    exact evolves

end Exchange

end TreeSync

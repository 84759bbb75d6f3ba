import TreeSync.Proofs.Disk.Descent

namespace TreeSync.Disk

/-! What each call does to a disk.

A call that fails changes nothing, but for a write that was refused when it had got
some way. One that succeeds performs the change that is named here, in a tree that
was fit for it.
-/

open TreeSync.Action

variable {disk : Disk} {directory : Location} {name : Name} {permissions : UInt32}

theorem makeAt_meets (target : Target) :
    Meets (makeAt target permissions) disk
      (fun _ after => ∃ parent name, target = .entry parent name ∧
        name.length ≤ Name.maxLength ∧ disk.tree.get? (name :: parent) = none ∧
        after = disk.perform (.madeDirectory (name :: parent)
          (permissions &&& ~~~disk.umask ||| disk.inheritedMark parent)))
      (fun _ after => disk = after) := by
  cases target with
  | whole place => exact refuse_meets
  | entry parent name =>
      refine (look_meets _).bind ?_
      intro found _ met
      obtain ⟨rfl, looked⟩ := met
      obtain ⟨short, there⟩ := Tree.childAt_ok looked
      cases found with
      | some node => exact refuse_meets
      | none => exact Meets.change ⟨parent, name, rfl, short, there.symm, rfl⟩

theorem makeDirectory_meets :
    Meets (makeDirectory directory name permissions) disk
      (fun _ after => name ≠ selfName ∧ disk.tree.get? (name :: directory) = none ∧
        after = disk.perform (.madeDirectory (name :: directory)
          (permissions &&& ~~~disk.umask ||| disk.inheritedMark directory)))
      (fun _ after => disk = after) := by
  refine checkName_meets.bind ?_
  intro _ _ met
  obtain ⟨rfl, _⟩ := met
  refine (makeAt_meets _).mono ?_ (fun _ _ same => same)
  intro _ _ met
  obtain ⟨parent, entry, target, _, free, rfl⟩ := met
  split at target
  · cases target
  · next other =>
    cases target
    exact ⟨other, free, rfl⟩

theorem createFile_meets (path : Path) :
    Meets (createFile directory path permissions) disk
      (fun file after => ∃ place name, disk.tree.resolve directory path = .ok (.entry place name) ∧
        file = name :: place ∧ name.length ≤ Name.maxLength ∧ disk.tree.get? file = none ∧
        after = disk.perform (.madeFile file (permissions &&& ~~~disk.umask)))
      (fun _ after => disk = after) := by
  refine (look_meets _).bind ?_
  intro target _ met
  obtain ⟨rfl, resolved⟩ := met
  cases target with
  | whole place => exact refuse_meets
  | entry place name =>
      refine (look_meets _).bind ?_
      intro found _ met
      obtain ⟨rfl, looked⟩ := met
      obtain ⟨short, there⟩ := Tree.childAt_ok looked
      cases found with
      | some node => exact refuse_meets
      | none =>
          exact Meets.changeThen (Meets.pure ⟨place, name, resolved, rfl, short, there.symm, rfl⟩)

theorem granted_meets (call : HandleCall) :
    Meets (granted call) disk (fun _ after => disk = after ∧ disk.refusalOf call = none)
      (fun fault after => disk = after ∧
        ∃ refusal, disk.refusalOf call = some refusal ∧ fault = .system refusal.errno) := by
  refine Meets.get ?_
  cases asked : disk.refusalOf call with
  | none => exact Meets.pure ⟨rfl, rfl⟩
  | some refusal => exact ⟨rfl, refusal, rfl, rfl⟩

theorem granted_ok {call : HandleCall} (free : disk.refusalOf call = none) :
    granted call disk = .ok () disk :=
  (bind_ok rfl).trans (by rw [free]; rfl)

theorem appendFile_ok {file : Location} {bytes : Bytes}
    (free : disk.refusalOf (.write file bytes) = none) :
    appendFile file bytes disk = .ok () (disk.perform (.wroteFile file bytes)) :=
  (bind_ok rfl).trans (by rw [free]; rfl)

theorem setPermissions_ok {location : Location}
    (free : disk.refusalOf (.setPermissions location permissions) = none) :
    setPermissions location permissions disk =
      .ok () (disk.perform (.setPermissions location (permissions &&& 0o7777))) :=
  (bind_ok (granted_ok free)).trans rfl

theorem setTime_ok {location : Location} {mtime : Int64}
    (free : disk.refusalOf (.setTime location mtime) = none) :
    setTime location mtime disk = .ok () (disk.perform (.setTime location mtime)) :=
  (bind_ok (granted_ok free)).trans rfl

/-- Whether the system refuses none of the calls on what is held open. -/
def Unhindered (disk : Disk) : Prop :=
  ∀ changes call, disk.refusals changes call = none

/-- Whether the system refuses no change of attributes. -/
structure Adornable (disk : Disk) : Prop where
  permissions : ∀ changes location permissions,
    disk.refusals changes (.setPermissions location permissions) = none
  times : ∀ changes location mtime, disk.refusals changes (.setTime location mtime) = none

theorem Adornable.of_refusals {after : Disk} (grants : disk.Adornable)
    (same : after.refusals = disk.refusals) : after.Adornable :=
  ⟨same ▸ grants.permissions, same ▸ grants.times⟩

theorem appendFile_meets (file : Location) (bytes : Bytes) :
    Meets (appendFile file bytes) disk
      (fun _ after => after = disk.perform (.wroteFile file bytes))
      (fun _ after => ∃ front, after = disk.perform (.wroteFile file front)) := by
  refine Meets.get ?_
  cases disk.refusalOf (.write file bytes) with
  | none => exact Meets.change rfl
  | some refusal => exact Meets.changeThen ⟨_, rfl⟩

theorem setPermissions_meets (location : Location) :
    Meets (setPermissions location permissions) disk
      (fun _ after => after = disk.perform (.setPermissions location (permissions &&& 0o7777)))
      (fun _ after => disk = after) := by
  refine (granted_meets _).followedBy (fun _ _ met => met.1) fun _ _ met => ?_
  obtain ⟨rfl, -⟩ := met
  exact Meets.change rfl

theorem setTime_meets (location : Location) (mtime : Int64) :
    Meets (setTime location mtime) disk
      (fun _ after => after = disk.perform (.setTime location mtime))
      (fun _ after => disk = after) := by
  refine (granted_meets _).followedBy (fun _ _ met => met.1) fun _ _ met => ?_
  obtain ⟨rfl, -⟩ := met
  exact Meets.change rfl

theorem removeFile_meets (path : Path) :
    Meets (removeFile directory path) disk
      (fun _ after => ∃ place name, disk.tree.resolve directory path = .ok (.entry place name) ∧
        after = disk.perform (.removedFile (name :: place)))
      (fun _ after => disk = after) := by
  refine (look_meets _).bind ?_
  intro target _ met
  obtain ⟨rfl, resolved⟩ := met
  cases target with
  | whole place => exact refuse_meets
  | entry place name =>
      refine (look_meets _).bind ?_
      intro found _ met
      obtain ⟨rfl, looked⟩ := met
      split
      · exact refuse_meets
      · exact refuse_meets
      · exact Meets.change ⟨place, name, resolved, rfl⟩

theorem removeDirectory_meets (path : Path) :
    Meets (removeDirectory directory path) disk
      (fun _ after => ∃ place name, disk.tree.resolve directory path = .ok (.entry place name) ∧
        after = disk.perform (.removedDirectory (name :: place)))
      (fun _ after => disk = after) := by
  refine (look_meets _).bind ?_
  intro target _ met
  obtain ⟨rfl, resolved⟩ := met
  cases target with
  | whole place => exact refuse_meets
  | entry place name =>
      refine (look_meets _).bind ?_
      intro found _ met
      obtain ⟨rfl, looked⟩ := met
      split
      · exact refuse_meets
      · refine Meets.get ?_
        split
        · exact Meets.change ⟨place, name, resolved, rfl⟩
        · exact refuse_meets
      · exact refuse_meets

/-- A file takes the place of anything but another directory. -/
theorem renameFile_meets (source target : Path) :
    Meets (renameFile directory source target) disk
      (fun _ after => ∃ oldPlace oldName newPlace newName,
        disk.tree.resolve directory source = .ok (.entry oldPlace oldName) ∧
        disk.tree.resolve directory target = .ok (.entry newPlace newName) ∧
        (newName :: newPlace = oldName :: oldPlace ∨
          ¬ disk.tree.HasDirectory (newName :: newPlace)) ∧
        after = disk.perform (.renamed (oldName :: oldPlace) (newName :: newPlace)))
      (fun _ after => disk = after) := by
  refine (look_meets _).bind ?_
  intro origin _ met
  obtain ⟨rfl, from_⟩ := met
  refine (look_meets _).bind ?_
  intro destination _ met
  obtain ⟨rfl, to_⟩ := met
  split
  · next oldPlace oldName newPlace newName =>
    refine (look_meets _).bind ?_
    intro found _ met
    obtain ⟨rfl, _⟩ := met
    cases found with
    | none => exact refuse_meets
    | some node =>
        refine (look_meets _).bind ?_
        intro occupant _ met
        obtain ⟨rfl, looked⟩ := met
        have there := (Tree.childAt_ok looked).2
        dsimp only
        split
        · exact refuse_meets
        · split
          · exact refuse_meets
          · split
            · next same => exact Meets.change ⟨_, _, _, _, from_, to_, .inl same, rfl⟩
            · split
              · exact refuse_meets
              · next file =>
                refine Meets.change ⟨_, _, _, _, from_, to_, .inr ?_, rfl⟩
                intro met
                obtain ⟨attributes, stands⟩ := met
                exact file attributes (there.trans stands)
  · exact refuse_meets

end TreeSync.Disk

import TreeSync.Proofs.Disk.Effects
import TreeSync.Proofs.Disk.TemporaryNames

namespace TreeSync

/-! What becomes of a temporary file.

It is made where nothing stood. From then on it is written to, and in the end it is
either moved to the place it is for or removed. One that nobody could be given to look
after stays as it was made.
-/

def Disk.drawnTo (disk : Disk) (draws : Nat) : Disk :=
  { disk with draws }

theorem Disk.Evolves.drawnTo {allowed : Tree → Change → Prop} {disk : Disk} {draws : Nat}
    (later : disk.draws ≤ draws) : Disk.Evolves allowed disk (disk.drawnTo draws) :=
  ⟨⟨[], (List.append_nil _).symm, .done⟩, rfl, rfl, rfl, rfl, rfl, later⟩

namespace Temporary

open TreeSync.Action

/-- A temporary file that goes by `name` in its directory. -/
structure Named (temporary : Temporary) (name : Name) : Prop where
  plain : name.Plain
  path : temporary.path = ⟨name⟩
  file : temporary.file = name :: temporary.directory
  checked : Path.check ⟨name⟩ = .ok ()
  short : name.length ≤ Name.maxLength

variable {temporary : Temporary} {name : Name} {directory : Location} {disk : Disk}

theorem Named.resolve (named : temporary.Named name) (tree : Tree) :
    tree.resolve temporary.directory temporary.path = .ok (.entry temporary.directory name) := by
  rw [named.path]
  exact Tree.resolve_plain named.plain named.checked

/-- What a new temporary file is, beside the disk it was made on. -/
structure Fresh (disk : Disk) (directory : Location) (name : Name) (turn : Nat)
    (temporary : Temporary) : Prop where
  drawn : disk.draws ≤ turn
  directory : temporary.directory = directory
  named : temporary.Named (nameFor name (disk.entropy turn))
  free : disk.tree.get? temporary.file = none

theorem draw_meets :
    Meets draw disk
      (fun random after => random = disk.entropy disk.draws ∧ after = disk.drawnTo (disk.draws + 1))
      (fun _ _ => False) :=
  ⟨rfl, rfl⟩

/-- The disk once a new temporary file was made on it, for which names were drawn up to `turn`. -/
def made (temporary : Temporary) (turn : Nat) (disk : Disk) : Disk :=
  (disk.drawnTo (turn + 1)).perform (.madeFile temporary.file (permissions &&& ~~~disk.umask))

/-- Whether a new temporary file is left to itself: it was made, but the system refused the
descriptor that it was to be given up by. -/
structure Stranded (disk : Disk) (directory : Location) (name : Name) (turn : Nat)
    (temporary : Temporary) (after : Disk) : Prop where
  fresh : Fresh disk directory name turn temporary
  made : after = temporary.made turn disk
  refused : after.refusalOf (.duplicate directory) ≠ none

/-- What a failure to make a temporary file leaves: nothing, but for a file left to itself. -/
inductive Missed (disk : Disk) (directory : Location) (name : Name) (after : Disk) : Prop
  | nothing {draws : Nat} (later : disk.draws ≤ draws) (drawn : after = disk.drawnTo draws)
  | stranded {turn : Nat} {temporary : Temporary}
      (stranded : Stranded disk directory name turn temporary after)

theorem Missed.drawn {draws : Nat} {after : Disk} (later : disk.draws ≤ draws)
    (missed : Missed (disk.drawnTo draws) directory name after) :
    Missed disk directory name after := by
  cases missed with
  | nothing further same => exact .nothing (Nat.le_trans later further) same
  | stranded stranded =>
      obtain ⟨⟨further, place, named, free⟩, same, refused⟩ := stranded
      exact .stranded ⟨⟨Nat.le_trans later further, place, named, free⟩, same, refused⟩

theorem createWithin_meets (noSlash : slash ∉ name) (attempts : Nat) :
    Meets (createWithin directory (template ⟨name⟩) attempts) disk
      (fun temporary after => ∃ turn, Fresh disk directory name turn temporary ∧
        after = temporary.made turn disk)
      (fun _ after => Missed disk directory name after) := by
  induction attempts generalizing disk with
  | zero => exact Meets.throw (.nothing (Nat.le_refl _) rfl)
  | succ attempts ih =>
      refine draw_meets.followedBy (fun _ _ no => no.elim) ?_
      intro random _ drawn
      obtain ⟨rfl, rfl⟩ := drawn
      have next : disk.draws ≤ disk.draws + 1 := Nat.le_succ _
      have plain := plain_nameFor noSlash (disk.entropy disk.draws)
      have path : filled (template ⟨name⟩) (disk.entropy disk.draws) =
          ⟨nameFor name (disk.entropy disk.draws)⟩ := rfl
      rw [path]
      refine Meets.attempt (Disk.createFile_meets _) ?_ ?_
      · intro file _ made
        obtain ⟨place, found, resolved, rfl, short, free, rfl⟩ := made
        have checked := Tree.check_of_resolve resolved
        rw [Tree.resolve_plain plain checked] at resolved
        cases resolved
        have fresh : Fresh disk directory name disk.draws ⟨directory, _, _⟩ :=
          ⟨Nat.le_refl _, rfl, ⟨plain, rfl, rfl, checked, short⟩, free⟩
        refine (Disk.granted_meets _).followedBy ?_ ?_
        · rintro _ _ ⟨rfl, refusal, refused, -⟩
          exact .stranded ⟨fresh, rfl, by simp [refused]⟩
        · rintro _ _ ⟨rfl, -⟩
          exact Meets.pure ⟨disk.draws, fresh, rfl⟩
      · intro fault _ same
        subst same
        dsimp only
        -- a name that is taken costs its draw and nothing else
        split
        · refine ih.mono ?_ fun _ _ missed => missed.drawn next
          intro temporary _ made
          obtain ⟨turn, fresh, rfl⟩ := made
          exact ⟨turn, { fresh with drawn := Nat.le_trans next fresh.drawn }, rfl⟩
        · exact Meets.throw (.nothing next rfl)

theorem create_meets (noSlash : slash ∉ name) :
    Meets (create directory ⟨name⟩) disk
      (fun temporary after => ∃ turn, Fresh disk directory name turn temporary ∧
        after = temporary.made turn disk)
      (fun _ after => Missed disk directory name after) :=
  createWithin_meets noSlash maxAttempts

theorem discard_standing {attributes : Attributes} {content : Bytes}
    (named : temporary.Named name)
    (stands : disk.tree.get? temporary.file = some (.file attributes content)) :
    temporary.discard disk = disk.perform (.removedFile temporary.file) := by
  have there := stands
  rw [named.file] at there
  have looked := disk.tree.childAt_short temporary.directory named.short
  have removed : Disk.removeFile temporary.directory temporary.path disk =
      .ok () (disk.perform (.removedFile temporary.file)) := by
    unfold Disk.removeFile Disk.look
    simp only [bind, EStateM.bind, named.resolve, looked, there, named.file]
    rfl
  unfold discard stateAfter
  rw [removed]

theorem discard_missing (named : temporary.Named name)
    (missing : disk.tree.get? temporary.file = none) : temporary.discard disk = disk := by
  have there := missing
  rw [named.file] at there
  have looked := disk.tree.childAt_short temporary.directory named.short
  have refused : Disk.removeFile temporary.directory temporary.path disk =
      .error (.system .noEntry) disk := by
    unfold Disk.removeFile Disk.look
    simp only [bind, EStateM.bind, named.resolve, looked, there]
    rfl
  unfold discard stateAfter
  rw [refused]

theorem persist_meets {attributes : Attributes} {content : Bytes} {target : Name}
    (named : temporary.Named name)
    (stands : disk.tree.get? temporary.file = some (.file attributes content))
    (entry : target = selfName ∨ target.Plain) :
    Meets (temporary.persist ⟨target⟩) disk
      (fun _ after => target.Plain ∧
        (target :: temporary.directory = temporary.file ∨
          ¬ disk.tree.HasDirectory (target :: temporary.directory)) ∧
        after = disk.perform (.renamed temporary.file (target :: temporary.directory)))
      (fun _ after => after = disk.perform (.removedFile temporary.file)) := by
  refine Meets.onFailure ((Disk.renameFile_meets _ _).mono ?_ ?_)
  · intro _ _ moved
    obtain ⟨oldPlace, oldName, newPlace, newName, source, destination, free, rfl⟩ := moved
    rw [named.resolve] at source
    cases source
    rcases entry with rfl | plain
    · rw [Tree.resolve_self] at destination
      cases destination
    · rw [Tree.resolve_plain plain (Tree.check_of_resolve destination)] at destination
      cases destination
      rw [← named.file] at free
      rw [named.file]
      exact ⟨plain, by rwa [named.file] at free, rfl⟩
  · intro _ _ same
    subst same
    exact discard_standing named stands

end Temporary

end TreeSync

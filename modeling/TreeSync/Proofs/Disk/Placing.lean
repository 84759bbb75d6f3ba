import TreeSync.Proofs.Disk.Reaching
import TreeSync.Proofs.Disk.Temporaries
import TreeSync.Proofs.Path.Spelling

namespace TreeSync

/-! Putting a file in its place by way of a temporary one.

The name of a temporary file is one that the system takes whenever the name it is for is one.
So it can be made unless every name that is drawn is taken, and it can be moved to where it
belongs unless a directory stands there.
-/

open TreeSync.Action

theorem Path.fileName?_plain {name : Name} (plain : name.Plain) : fileName? ⟨name⟩ = some name := by
  have whole := components_ofNames (List.forall_mem_singleton.mpr plain)
  have spelled : ofNames [name] = ⟨name⟩ := by simp [ofNames, List.intercalate]
  rw [spelled, List.map_singleton] at whole
  unfold fileName?
  rw [whole]
  rfl

namespace Temporary

variable {name : Name}

theorem size_le_of_sublist {chars more : List Char} (part : chars.Sublist more) :
    Utf8.size chars ≤ Utf8.size more := by
  induction part with
  | slnil => exact Nat.le_refl _
  | cons char _ ih => exact Nat.le_trans ih (Nat.le_add_left _ _)
  | cons_cons char _ ih => exact Nat.add_le_add_left ih _

theorem size_fitting (room : Nat) (chars : List Char) : Utf8.size (fitting room chars) ≤ room := by
  induction chars generalizing room with
  | nil => exact Nat.zero_le _
  | cons char rest ih =>
      rw [fitting]
      split
      · next fits =>
        have later := ih (room - char.utf8Size)
        rw [Utf8.size]
        omega
      · exact Nat.zero_le _

theorem size_fitted (base : List Char) :
    Utf8.size (fitted base) ≤ Name.maxLength - (placeholder.length + 1) := by
  unfold fitted
  dsimp only
  split
  · assumption
  · refine Nat.le_trans (size_le_of_sublist ?_) (size_fitting _ base)
    exact List.reverse_sublist.mp (by simpa using List.dropWhile_sublist _)

theorem length_leafFor (destination : Path) (random : RandomBytes) :
    (leafFor destination random).length ≤ Name.maxLength := by
  have fits := size_fitted (hidden (stem destination))
  rw [leafFor_eq, List.length_append, Utf8.length_encode, List.length_cons, length_suffix]
  have room : Name.maxLength - (placeholder.length + 1) + 7 = Name.maxLength := rfl
  omega

theorem stem_plain (plain : name.Plain) : stem ⟨name⟩ = Utf8.lossyChars name := by
  rw [stem, Path.fileName?_plain plain]

theorem nul_not_mem_stem {destination : Path} (clean : ∀ name ∈ destination.fileName?, 0 ∉ name) :
    '\x00' ∉ stem destination := by
  unfold stem
  split
  · next name named => exact Utf8.ascii_not_mem_lossyChars (by decide) rfl (clean name named)
  · decide

theorem nul_not_mem_hidden {chars : List Char} (clean : '\x00' ∉ chars) : '\x00' ∉ hidden chars := by
  unfold hidden
  split
  · exact clean
  · simp only [List.mem_cons, not_or]
    exact ⟨by decide, clean⟩

/-- The system takes the name of a temporary file, however long the one is that it is for. -/
theorem sound_leafFor {destination : Path} (clean : ∀ name ∈ destination.fileName?, 0 ∉ name)
    (random : RandomBytes) : (leafFor destination random).Sound where
  toPlain := plain_leafFor destination random
  short := length_leafFor destination random
  clean := by
    have front : '\x00' ∉ fitted (hidden (stem destination)) ++ ['.'] := by
      simp only [List.mem_append, List.mem_singleton, not_or]
      refine ⟨fun listed => ?_, by decide⟩
      exact nul_not_mem_hidden (nul_not_mem_stem clean) (mem_of_mem_fitted listed)
    simp only [leafFor, List.mem_append, not_or]
    exact ⟨Utf8.ascii_not_mem_encode (by decide) (rfl : '\x00'.toNat = 0) front,
      not_mem_suffix (by decide) random⟩

theorem sound_nameFor (sound : name.Sound) (random : RandomBytes) :
    (nameFor name random).Sound := by
  rw [nameFor_eq sound.noSlash]
  refine sound_leafFor (fun other named => ?_) random
  rw [Path.fileName?_plain sound.toPlain, Option.mem_some_iff] at named
  exact named ▸ sound.clean

end Temporary

namespace Disk

variable {disk : Disk} {directory : Location} {name source target : Name} {node : Node}

theorem createFile_sound (sound : name.Sound) (permissions : UInt32) :
    createFile directory ⟨name⟩ permissions disk =
      match disk.tree.get? (name :: directory) with
      | some _ => .error (.system .exists) disk
      | none => .ok (name :: directory)
          (disk.perform (.madeFile (name :: directory) (permissions &&& ~~~disk.umask))) := by
  have looked : look (·.childAt directory name) disk =
      .ok (disk.tree.get? (name :: directory)) disk := look_ok (Tree.childAt_short _ _ sound.short)
  refine (bind_ok (resolve_sound sound)).trans ((bind_ok looked).trans ?_)
  cases disk.tree.get? (name :: directory) <;> rfl

/-- A file can be moved to any place of its directory where no directory stands. -/
theorem renameFile_sound (sound : source.Sound) (sound' : target.Sound)
    (found : disk.tree.get? (source :: directory) = some node)
    (free : ¬ disk.tree.HasDirectory (target :: directory)) :
    renameFile directory ⟨source⟩ ⟨target⟩ disk =
      .ok () (disk.perform (.renamed (source :: directory) (target :: directory))) := by
  have occupied : look (·.childAt directory target) disk =
      .ok (disk.tree.get? (target :: directory)) disk := look_ok (Tree.childAt_short _ _ sound'.short)
  refine (bind_ok (resolve_sound sound)).trans ((bind_ok (resolve_sound sound')).trans ?_)
  refine (bind_ok (childAt_sound sound found)).trans ((bind_ok occupied).trans ?_)
  have ends : Path.endsInSlash ⟨target⟩ = false := by
    unfold Path.endsInSlash
    refine Bool.eq_false_iff.mpr fun last => sound'.noSlash ?_
    exact List.mem_of_getLast? (beq_iff_eq.mp last)
  have above : ¬ target :: directory <:+ directory := fun inside => by
    have longer := inside.length_le
    rw [List.length_cons] at longer
    omega
  dsimp only
  rw [if_neg (by simp [ends]), if_neg above]
  split
  · rfl
  · cases there : disk.tree.get? (target :: directory) with
    | none => rfl
    | some occupant =>
        cases occupant with
        | directory attributes => exact absurd ⟨attributes, there⟩ free
        | file | link | fifo => rfl

end Disk

namespace Temporary

variable {disk : Disk} {directory : Location} {name target : Name} {temporary : Temporary}

/-- Whether one of the names that are drawn next is not taken. -/
def Available (disk : Disk) (directory : Location) (name : Name) (attempts : Nat) : Prop :=
  ∃ turn, disk.draws ≤ turn ∧ turn < disk.draws + attempts ∧
    disk.tree.get? (nameFor name (disk.entropy turn) :: directory) = none

theorem createWithin_sound (sound : name.Sound) (free : disk.Unhindered) {attempts : Nat}
    (available : Available disk directory name attempts) :
    ∃ temporary after, createWithin directory (template ⟨name⟩) attempts disk =
      .ok temporary after := by
  induction attempts generalizing disk with
  | zero =>
      obtain ⟨turn, early, late, -⟩ := available
      omega
  | succ attempts ih =>
      obtain ⟨turn, early, late, vacant⟩ := available
      have drawn : draw disk = .ok (disk.entropy disk.draws) (disk.drawnTo (disk.draws + 1)) := rfl
      have still : (disk.drawnTo (disk.draws + 1)).Unhindered := free
      have path : filled (template ⟨name⟩) (disk.entropy disk.draws) =
          ⟨nameFor name (disk.entropy disk.draws)⟩ := rfl
      have created : Disk.createFile directory ⟨nameFor name (disk.entropy disk.draws)⟩ permissions
          (disk.drawnTo (disk.draws + 1)) = _ :=
        Disk.createFile_sound (sound_nameFor sound _) permissions
      have unchanged : (disk.drawnTo (disk.draws + 1)).tree = disk.tree := rfl
      rw [unchanged] at created
      cases there : disk.tree.get? (nameFor name (disk.entropy disk.draws) :: directory) with
      | none =>
          rw [there] at created
          let made : Disk := (disk.drawnTo (disk.draws + 1)).perform (.madeFile
            (nameFor name (disk.entropy disk.draws) :: directory) (permissions &&& ~~~disk.umask))
          have duplicated : Disk.duplicate directory made = .ok () made :=
            Disk.granted_ok (still _ _)
          exact ⟨_, _, (bind_ok drawn).trans ((bind_ok (attempt_ok created)).trans
            ((bind_ok duplicated).trans rfl))⟩
      | some node =>
          rw [there] at created
          have other : turn ≠ disk.draws := fun same => by
            rw [same, there] at vacant
            cases vacant
          have later : Available (disk.drawnTo (disk.draws + 1)) directory name attempts := by
            refine ⟨turn, ?_, ?_, vacant⟩ <;> simp only [Disk.drawnTo] <;> omega
          obtain ⟨temporary, after, ran⟩ := ih still later
          refine ⟨temporary, after, (bind_ok drawn).trans ((bind_ok (attempt_error created)).trans ?_)⟩
          exact (congrFun (if_pos rfl) _).trans ran

/-- A temporary file is made, unless all the names that may be tried are taken. -/
theorem create_sound (sound : name.Sound) (free : disk.Unhindered)
    (available : Available disk directory name maxAttempts) :
    Meets (create directory ⟨name⟩) disk
      (fun temporary after => ∃ turn, Fresh disk directory name turn temporary ∧
        after = temporary.made turn disk)
      (fun _ _ => False) := by
  obtain ⟨temporary, after, ran⟩ := createWithin_sound sound free available
  have made := (create_meets sound.noSlash).of_ok ran
  unfold Meets create
  rw [ran]
  exact made

theorem persist_sound {attributes : Attributes} {content : Bytes} (sound : name.Sound)
    (named : temporary.Named name) (sound' : target.Sound)
    (stands : disk.tree.get? temporary.file = some (.file attributes content))
    (free : ¬ disk.tree.HasDirectory (target :: temporary.directory)) :
    temporary.persist ⟨target⟩ disk =
      .ok () (disk.perform (.renamed temporary.file (target :: temporary.directory))) := by
  rw [named.file] at stands ⊢
  have moved := Disk.renameFile_sound sound sound' stands free
  unfold persist onFailure
  rw [named.path, moved]

end Temporary

end TreeSync

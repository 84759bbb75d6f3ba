import TreeSync.Proofs.Disk.Effects
import TreeSync.Proofs.Disk.Walking

namespace TreeSync

/-! Calls that cannot fail.

On a name that a directory can hold, a call looks at nothing but the tree. So what
stands at a place decides how the call ends.
-/

/-- A name that the system takes: one that a directory can hold. -/
structure Name.Sound (name : Name) : Prop extends Name.Plain name where
  short : name.length ≤ Name.maxLength
  clean : 0 ∉ name

instance (name : Name) : Decidable name.Sound :=
  decidable_of_iff (name ≠ [] ∧ slash ∉ name ∧ name ≠ selfName ∧ name ≠ parentName ∧
      name.length ≤ Name.maxLength ∧ 0 ∉ name)
    ⟨fun ⟨nonempty, noSlash, notSelf, notParent, short, clean⟩ =>
        ⟨⟨nonempty, noSlash, notSelf, notParent⟩, short, clean⟩,
      fun sound => ⟨sound.nonempty, sound.noSlash, sound.notSelf, sound.notParent, sound.short,
        sound.clean⟩⟩

theorem Name.Sound.check {name : Name} (sound : name.Sound) : Path.check ⟨name⟩ = .ok () := by
  have short := sound.short
  have fits : ¬ Path.maxLength < name.length := by
    simp only [Name.maxLength, Path.maxLength] at *
    omega
  simp [Path.check, sound.clean, sound.nonempty, fits]

/-- Whether every name in the tree is one that the system takes. -/
def Tree.Proper (tree : Tree) : Prop :=
  ∀ place node, tree.get? place = some node → ∀ name ∈ place, name.Sound

theorem Tree.proper_of_entries {tree : Tree}
    (sound : ∀ entry ∈ tree.entries, ∀ name ∈ entry.1, name.Sound) : tree.Proper :=
  fun _ _ found => sound _ (mem_entries_of_get? found)

namespace Disk

variable {disk : Disk} {directory root : Location} {name : Name} {node : Node}

theorem look_ok {α : Type} {lookup : Tree → Except Errno α} {found : α}
    (looked : lookup disk.tree = .ok found) : look lookup disk = .ok found disk := by
  unfold look
  rw [looked]

theorem entryOf_sound (sound : name.Sound) :
    entryOf directory name disk = .ok (disk.tree.get? (name :: directory)) disk := by
  have checked : checkName name disk = .ok () disk := by
    rw [checkName, if_neg sound.clean]
    rfl
  exact (Action.bind_ok checked).trans (look_ok (Tree.childAt_short _ _ sound.short))

theorem openDirectory_sound (sound : name.Sound) (stands : disk.tree.HasDirectory (name :: directory)) :
    openDirectory directory name disk = .ok (name :: directory) disk := by
  obtain ⟨attributes, found⟩ := stands
  refine (Action.bind_ok (entryOf_sound sound)).trans ?_
  rw [found]
  rfl

theorem descend_sound {names : List Name} (sound : ∀ name ∈ names, name.Sound)
    (leads : disk.tree.Leads directory (names.reverse ++ directory)) :
    descend directory names disk = .ok (names.reverse ++ directory) disk := by
  induction names generalizing directory with
  | nil => rfl
  | cons name rest ih =>
      have spelled : (name :: rest).reverse ++ directory = rest.reverse ++ name :: directory := by simp
      rw [spelled] at leads ⊢
      obtain ⟨first, further⟩ := leads.split (List.suffix_cons name directory)
        (List.suffix_append _ _)
      have stands := first.hasDirectory (by simp)
      refine (Action.bind_ok (openDirectory_sound (sound name List.mem_cons_self) stands)).trans ?_
      exact ih (fun other listed => sound other (List.mem_cons_of_mem _ listed)) further

theorem parentBeneath_sound {path : Path} {names : List Name}
    (down : path.descent = .ok (names ++ [name])) (sound : ∀ name ∈ names, name.Sound)
    (leads : disk.tree.Leads root (names.reverse ++ root)) :
    parentBeneath root path disk = .ok (names.reverse ++ root, name) disk := by
  have taken : descent path disk = .ok (names ++ [name]) disk := by
    rw [descent, down]
    rfl
  refine (Action.bind_ok taken).trans ?_
  simp only [List.getLast?_concat, List.dropLast_concat]
  exact (Action.bind_ok (descend_sound sound leads)).trans rfl

theorem resolve_sound (sound : name.Sound) :
    look (·.resolve directory ⟨name⟩) disk = .ok (.entry directory name) disk :=
  look_ok (Tree.resolve_plain sound.toPlain sound.check)

theorem childAt_sound (sound : name.Sound) (found : disk.tree.get? (name :: directory) = some node) :
    look (·.childAt directory name) disk = .ok (some node) disk :=
  look_ok ((Tree.childAt_short _ _ sound.short).trans (congrArg Except.ok found))

theorem removeFile_sound (sound : name.Sound)
    (found : disk.tree.get? (name :: directory) = some node) (other : node.isDirectory = false) :
    removeFile directory ⟨name⟩ disk = .ok () (disk.perform (.removedFile (name :: directory))) := by
  refine (Action.bind_ok (resolve_sound sound)).trans ?_
  refine (Action.bind_ok (childAt_sound sound found)).trans ?_
  cases node with
  | directory attributes => cases other
  | file | link | fifo => rfl

theorem removeDirectory_sound (sound : name.Sound)
    (stands : disk.tree.HasDirectory (name :: directory)) :
    removeDirectory directory ⟨name⟩ disk =
      if (disk.tree.namesIn (name :: directory)).isEmpty then
        .ok () (disk.perform (.removedDirectory (name :: directory)))
      else .error (.system .notEmpty) disk := by
  obtain ⟨attributes, found⟩ := stands
  refine (Action.bind_ok (resolve_sound sound)).trans ?_
  refine (Action.bind_ok (childAt_sound sound found)).trans ?_
  change (if (disk.tree.namesIn (name :: directory)).isEmpty = true then
    (modify (perform (.removedDirectory (name :: directory))) : EStateM Fault Disk Unit)
    else refuse .notEmpty) disk = _
  split <;> rfl

end Disk

end TreeSync

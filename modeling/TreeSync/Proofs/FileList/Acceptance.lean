import TreeSync.Proofs.FileList.RoundTrip
import TreeSync.Proofs.Path.Spelling

namespace TreeSync

/-! What an accepted name leads to.

The check that a list reader makes, the descent beneath the root, the test for the root and
the normal spelling each read a path in their own way. All of them are settled by the
stretches between its slashes: an accepted path leads down through those that are neither
empty nor `.`, and it leads nowhere only if it is `.` itself.
-/

open TreeSync.Action

theorem segmentsOf_eq_splitOn (bytes : Bytes) : segmentsOf bytes = bytes.splitOn slash := by
  induction bytes with
  | nil => rfl
  | cons byte rest ih =>
      rw [segmentsOf, List.splitOn, List.splitOnP_cons_eq_if_modifyHead, ← List.splitOn, ← ih]
      by_cases same : byte = slash
      · simp [same]
      · cases split : segmentsOf rest with
        | nil => exact absurd split (Path.segmentsOf_ne_nil rest)
        | cons first more => simp [same]

namespace Path

variable {path : Path}

/-- The stretches of a path that lead somewhere. -/
def names (path : Path) : List Name :=
  (path.bytes.splitOn slash).filter fun segment => segment ≠ [] ∧ segment ≠ selfName

/-- What a path has to be like for a reader to take it. The root is spelled in one way only. -/
structure Confined (path : Path) : Prop where
  noNul : 0 ∉ path.bytes
  relative : path.bytes.head? ≠ some slash
  noParent : parentName ∉ path.bytes.splitOn slash
  named : path.bytes = selfName ∨
    ∃ segment ∈ path.bytes.splitOn slash, segment ≠ [] ∧ segment ≠ selfName

theorem names_eq_nil_iff :
    path.names = [] ↔
      ¬ ∃ segment ∈ path.bytes.splitOn slash, segment ≠ [] ∧ segment ≠ selfName := by
  simp [names]

theorem mem_components_iff_of_step {step : Component} (other : step ≠ .root)
    (other' : step ≠ .current) :
    step ∈ path.components ↔
      ∃ segment ∈ path.bytes.splitOn slash, Component.ofSegment? segment = some step := by
  have anchored : step ∉ path.anchor := by
    unfold anchor
    split
    · simpa using other
    · split
      · simpa using other'
      · exact List.not_mem_nil
  rw [components, List.mem_append, or_iff_right anchored, List.mem_filterMap, segments,
    segmentsOf_eq_splitOn]

theorem parent_mem_components_iff :
    .parent ∈ path.components ↔ parentName ∈ path.bytes.splitOn slash := by
  rw [mem_components_iff_of_step (by simp) (by simp)]
  constructor
  · rintro ⟨segment, listed, stepped⟩
    unfold Component.ofSegment? at stepped
    split at stepped
    · cases stepped
    · split at stepped
      · next up => exact up ▸ listed
      · cases stepped
  · exact fun listed => ⟨parentName, listed, rfl⟩

/-- Where no stretch is `..`, the steps of a relative path are its names. -/
theorem steps_eq_names (relative : path.isAbsolute = false)
    (noParent : parentName ∉ path.bytes.splitOn slash) :
    path.components.filter (· ≠ .current) = path.names.map .normal := by
  have anchored : path.anchor.filter (· ≠ .current) = [] := by
    simp only [anchor, relative, Bool.false_eq_true, if_false]
    split <;> rfl
  rw [components, List.filter_append, anchored, List.nil_append, segments, segmentsOf_eq_splitOn,
    names]
  generalize path.bytes.splitOn slash = segments at noParent
  induction segments with
  | nil => rfl
  | cons segment rest ih =>
      rw [List.mem_cons, not_or] at noParent
      have later := ih noParent.2
      by_cases stepping : segment ≠ [] ∧ segment ≠ selfName
      · rw [List.filterMap_cons_some (ofSegment?_normal stepping (Ne.symm noParent.1)),
          List.filter_cons_of_pos (by simp), List.filter_cons_of_pos (by simpa using stepping),
          List.map_cons, later]
      · have idle : Component.ofSegment? segment = none :=
          if_pos (by simpa [imp_iff_not_or] using stepping)
        rw [List.filterMap_cons_none idle, List.filter_cons_of_neg (by simpa using stepping), later]

theorem descent_eq_names (relative : path.isAbsolute = false)
    (noParent : parentName ∉ path.bytes.splitOn slash) : path.descent = .ok path.names :=
  descent_eq_ok_iff.mpr (descent?_eq_some_iff.mpr (steps_eq_names relative noParent))

theorem isAbsolute_eq_false_iff : path.isAbsolute = false ↔ path.bytes.head? ≠ some slash := by
  simp [isAbsolute]

theorem any_normal_iff (relative : path.isAbsolute = false)
    (noParent : parentName ∉ path.bytes.splitOn slash) :
    path.components.any (fun step => step matches .normal _) = true ↔ path.names ≠ [] := by
  have steps := steps_eq_names relative noParent
  constructor
  · rw [List.any_eq_true]
    rintro ⟨step, listed, normal⟩ none
    have kept : step ∈ path.components.filter (· ≠ .current) := by
      refine List.mem_filter.mpr ⟨listed, ?_⟩
      cases step <;> simp at normal ⊢
    rw [steps, none] at kept
    cases kept
  · intro present
    obtain ⟨name, listed⟩ := List.exists_mem_of_ne_nil _ present
    have kept : .normal name ∈ path.components.filter (· ≠ .current) :=
      steps ▸ List.mem_map_of_mem listed
    exact List.any_eq_true.mpr ⟨_, (List.mem_filter.mp kept).1, rfl⟩

/-- The check of a reader takes just these paths. -/
theorem acceptName_eq_ok_iff : acceptName path = .ok () ↔ path.Confined := by
  unfold acceptName
  split
  · next nul => exact ⟨by rintro ⟨⟩, fun confined => absurd nul confined.noNul⟩
  · next noNul =>
    split
    · next absolute =>
      refine ⟨by rintro ⟨⟩, fun confined => absurd ?_ confined.relative⟩
      simpa [isAbsolute] using absolute
    · next other =>
      have relative : path.isAbsolute = false := by simpa using other
      have start := isAbsolute_eq_false_iff.mp relative
      split
      · next itself =>
        refine ⟨fun _ => ⟨noNul, start, ?_, .inl itself⟩, fun _ => rfl⟩
        rw [itself]
        decide
      · next notItself =>
        split
        · next up =>
          refine ⟨by rintro ⟨⟩, fun confined => absurd ?_ confined.noParent⟩
          exact parent_mem_components_iff.mp up
        · next notUp =>
          have noParent := mt parent_mem_components_iff.mpr notUp
          have reaches := any_normal_iff relative noParent
          rw [Ne, names_eq_nil_iff, not_not] at reaches
          split
          · next normal =>
            exact ⟨fun _ => ⟨noNul, start, noParent, .inr (reaches.mp normal)⟩, fun _ => rfl⟩
          · next idle =>
            refine ⟨by rintro ⟨⟩, fun confined => ?_⟩
            exact absurd (reaches.mpr (confined.named.resolve_left notItself)) idle

/-- How the parts of a run read a path, all by the same names. -/
structure Agrees (path : Path) : Prop where
  descent : path.descent = .ok path.names
  normalized : path.normalized = .ofNames path.names
  isRoot : ∀ entry : ListEntry, entry.path = path → (entry.isRoot ↔ path.names = [])

theorem names_eq_nil_iff_of_confined (confined : path.Confined) :
    path.names = [] ↔ path.bytes = selfName := by
  constructor
  · intro nothing
    exact confined.named.resolve_right (names_eq_nil_iff.mp nothing)
  · intro itself
    rw [names, itself]
    decide

theorem agrees_of_confined (confined : path.Confined) : path.Agrees := by
  have relative := isAbsolute_eq_false_iff.mpr confined.relative
  refine ⟨descent_eq_names relative confined.noParent,
    normalized_eq_of_steps (steps_eq_names relative confined.noParent), ?_⟩
  rintro entry rfl
  rw [names_eq_nil_iff_of_confined confined, ListEntry.isRoot, decide_eq_true_iff]

end Path

namespace Disk

variable {disk : Disk} {directory root : Location} {names : List Name} {path : Path}

/-- A failure that the disk gave rise to, and not the path. -/
def OfSystem {α : Type} (fault : Fault) (_ : α) : Prop :=
  ∃ errno, fault = .system errno

theorem entryOf_fails (name : Name) :
    Meets (entryOf directory name) disk (fun _ _ => True) OfSystem := by
  have checked : Meets (checkName name) disk (fun _ _ => True) OfSystem := by
    unfold checkName
    exact Meets.cond (fun _ => Meets.throw ⟨_, rfl⟩) fun _ => Meets.pure trivial
  refine checked.bind fun _ between _ => ?_
  refine Meets.intro (fun _ _ _ => trivial) fun fault after failed => ?_
  unfold look at failed
  split at failed
  · cases failed
  · cases failed
    exact ⟨_, rfl⟩

theorem openDirectory_fails (name : Name) :
    Meets (openDirectory directory name) disk (fun _ _ => True) OfSystem := by
  refine (entryOf_fails name).bind fun found after _ => ?_
  split
  · exact Meets.pure trivial
  · exact Meets.throw ⟨_, rfl⟩
  · exact Meets.throw ⟨_, rfl⟩

theorem descend_fails (names : List Name) :
    Meets (descend directory names) disk (fun _ _ => True) OfSystem := by
  induction names generalizing directory disk with
  | nil => exact Meets.pure trivial
  | cons name rest ih => exact (openDirectory_fails name).bind fun _ _ _ => ih

theorem descent_ok (down : path.descent = .ok names) : descent path disk = .ok names disk := by
  unfold descent
  rw [down]
  rfl

theorem openBeneath_fails (down : path.descent = .ok names) :
    Meets (openBeneath root path) disk (fun _ _ => True) OfSystem :=
  .congr (bind_ok (descent_ok down)) (descend_fails names)

theorem parentBeneath_fails (down : path.descent = .ok names) :
    Meets (parentBeneath root path) disk (fun _ _ => True) OfSystem := by
  refine .congr (bind_ok (descent_ok down)) ?_
  split
  · exact Meets.pure trivial
  · exact (descend_fails _).bind fun _ _ _ => Meets.pure trivial

end Disk

/-- What looking up a path beneath a root can come to: never that the path leads out. The root
itself is found for one spelling, and for any other an entry of a directory beneath it. -/
structure Path.Resolves (path : Path) : Prop where
  inside : ∀ root disk fault after, Disk.parentBeneath root path disk = .error fault after ∨
    Disk.openBeneath root path disk = .error fault after → ∃ errno, fault = .system errno
  itself : path.bytes = selfName → ∀ root disk,
    Disk.parentBeneath root path disk = .ok (root, selfName) disk ∧
      Disk.openBeneath root path disk = .ok root disk
  below : path.bytes ≠ selfName → ∀ root disk,
    (∀ parent name after, Disk.parentBeneath root path disk = .ok (parent, name) after →
      name.Plain ∧ root <:+ parent) ∧
    ∀ place after, Disk.openBeneath root path disk = .ok place after →
      root <:+ place ∧ place ≠ root

theorem Path.resolves_of_confined {path : Path} (confined : path.Confined) : path.Resolves := by
  have down := (agrees_of_confined confined).descent
  refine ⟨?_, ?_, ?_⟩
  · rintro root disk fault after (failed | failed)
    · exact (Disk.parentBeneath_fails down).of_error failed
    · exact (Disk.openBeneath_fails down).of_error failed
  · intro itself root disk
    rw [(names_eq_nil_iff_of_confined confined).mpr itself] at down
    exact ⟨bind_ok (Disk.descent_ok down), bind_ok (Disk.descent_ok down)⟩
  · intro other root disk
    have away : path.placeBeneath root ≠ some root := by
      rw [placeBeneath_of_descent root down]
      intro back
      have nothing := List.append_left_eq_self.mp (Option.some.inj back)
      exact other ((names_eq_nil_iff_of_confined confined).mp (List.reverse_eq_nil_iff.mp nothing))
    refine ⟨fun parent name after found => ?_, fun place after found => ?_⟩
    · obtain ⟨rfl, seat⟩ := (Disk.parentBeneath_meets path).of_ok found
      cases seat with
      | itself place => exact absurd place away
      | entry leads plain place => exact ⟨plain, leads.suffix⟩
    · obtain ⟨rfl, place, leads⟩ := (Disk.openBeneath_meets path).of_ok found
      refine ⟨leads.suffix, ?_⟩
      rintro rfl
      exact away place

namespace FileList

/-- The check of a reader, the descent, the normal spelling and the test for the root agree on
every path, and an entry that was read is always found beneath the root. -/
theorem accepted_agrees :
    (∀ path : Path, acceptName path = .ok () ↔ path.Confined) ∧
      (∀ path : Path, acceptName path = .ok () → path.Agrees) ∧
        ∀ {σ : Type} [ByteSource σ] {before after : Inflow σ} {entries : List ListEntry},
          read before = .ok entries after → ∀ entry ∈ entries, entry.path.Resolves := by
  refine ⟨fun path => Path.acceptName_eq_ok_iff, fun path accepted => ?_, ?_⟩
  · exact Path.agrees_of_confined (Path.acceptName_eq_ok_iff.mp accepted)
  · intro σ _ before after entries ran entry listed
    have accepted := (read_carriable ran entry listed).accepted
    exact Path.resolves_of_confined (Path.acceptName_eq_ok_iff.mp accepted)

/-- The name `./a//b/.` -/
def dottedName : Path := ⟨[46, 47, 97, 47, 47, 98, 47, 46]⟩

/-- A list with this name and the root. -/
def dottedBytes : Bytes :=
  [8, 0, 0, 0, 46, 47, 97, 47, 47, 98, 47, 46, 164, 129, 0, 0, 5, 0, 0, 0, 3, 0, 0, 0,
    1, 0, 0, 0, 46, 237, 65, 0, 0, 5, 0, 0, 0, 0, 0, 0, 0, 0, 0, 0, 0]

theorem accepted_agrees_of_dotted :
    acceptName dottedName = .ok () ∧ dottedName.Agrees ∧ dottedName.names = [[97], [98]] ∧
      ∃ entries after, read (Inflow.plainly dottedBytes) = .ok entries after ∧
        entries.map ListEntry.path = [dottedName, ⟨selfName⟩] ∧
          ∀ entry ∈ entries, entry.path.Resolves := by
  have accepted : acceptName dottedName = .ok () := rfl
  have ends : endsIn (read (Inflow.plainly dottedBytes))
      (fun files _ => decide (files.map ListEntry.path = [dottedName, ⟨selfName⟩])) = true := by
    decide +kernel
  obtain ⟨files, after, ran, same⟩ := of_endsIn ends
  exact ⟨accepted, accepted_agrees.2.1 _ accepted, by decide, files, after, ran,
    of_decide_eq_true same, accepted_agrees.2.2 ran⟩

end FileList

end TreeSync

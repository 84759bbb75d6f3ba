import TreeSync.Disk.Beneath
import TreeSync.Proofs.Disk.Replay

namespace TreeSync

/-! Where a path beneath the root leads.

A descent takes plain names only, so the place it ends in is spelled out by the path
alone. The tree decides no more than whether the descent gets there.
-/

/-- A name that a directory can list besides itself and its parent. -/
structure Name.Plain (name : Name) : Prop where
  nonempty : name ≠ []
  noSlash : slash ∉ name
  notSelf : name ≠ selfName
  notParent : name ≠ parentName

theorem segmentsOf_of_noSlash {bytes : Bytes} (noSlash : slash ∉ bytes) :
    segmentsOf bytes = [bytes] := by
  induction bytes with
  | nil => rfl
  | cons byte rest ih =>
      simp only [List.mem_cons, not_or] at noSlash
      rw [segmentsOf, if_neg (Ne.symm noSlash.1), ih noSlash.2]

theorem noSlash_of_mem_segmentsOf {bytes : Bytes} {segment : Name}
    (listed : segment ∈ segmentsOf bytes) : slash ∉ segment := by
  induction bytes generalizing segment with
  | nil =>
      rw [segmentsOf, List.mem_singleton] at listed
      simp [listed]
  | cons byte rest ih =>
      rw [segmentsOf] at listed
      split at listed
      · rcases List.mem_cons.mp listed with rfl | later
        · simp
        · exact ih later
      · next different =>
        cases segments : segmentsOf rest with
        | nil => exact absurd segments (Path.segmentsOf_ne_nil rest)
        | cons first more =>
            rw [segments] at listed ih
            rcases List.mem_cons.mp listed with rfl | later
            · have tail := ih List.mem_cons_self
              simp only [List.mem_cons, not_or]
              exact ⟨Ne.symm different, tail⟩
            · exact ih (List.mem_cons_of_mem _ later)

theorem Path.plain_of_mem_components {path : Path} {name : Name}
    (listed : .normal name ∈ path.components) : name.Plain := by
  rw [components, List.mem_append] at listed
  rcases listed with anchored | stepped
  · unfold anchor at anchored
    split at anchored
    · simp at anchored
    · split at anchored <;> simp at anchored
  · obtain ⟨segment, inside, stepped⟩ := List.mem_filterMap.mp stepped
    unfold Component.ofSegment? at stepped
    split at stepped
    · cases stepped
    · next named =>
      split at stepped
      · cases stepped
      · next notParent =>
        cases stepped
        rw [not_or] at named
        exact ⟨named.1, noSlash_of_mem_segmentsOf inside, named.2, notParent⟩

theorem normal_mem_of_descent? {steps : List Component} {names : List Name} {name : Name}
    (down : descent? steps = some names) (listed : name ∈ names) : .normal name ∈ steps := by
  induction steps generalizing names with
  | nil =>
      cases down
      cases listed
  | cons step rest ih =>
      cases step with
      | current => exact List.mem_cons_of_mem _ (ih down listed)
      | normal first =>
          obtain ⟨more, further, rfl⟩ := Option.map_eq_some_iff.mp down
          rcases List.mem_cons.mp listed with rfl | later
          · exact List.mem_cons_self
          · exact List.mem_cons_of_mem _ (ih further later)
      | root => cases down
      | parent => cases down

theorem Path.plain_of_mem_descent {path : Path} {names : List Name} {name : Name}
    (down : path.descent = .ok names) (listed : name ∈ names) : name.Plain := by
  unfold descent at down
  split at down
  · next found =>
    cases down
    exact plain_of_mem_components (normal_mem_of_descent? found listed)
  · cases down

/-- The place that the path names beneath `root`, if it stays there. -/
def Path.placeBeneath (root : Location) (path : Path) : Option Location :=
  match path.descent with
  | .ok names => some (names.reverse ++ root)
  | .error _ => none

theorem Path.placeBeneath_of_descent {path : Path} {names : List Name} (root : Location)
    (down : path.descent = .ok names) : path.placeBeneath root = some (names.reverse ++ root) := by
  rw [placeBeneath, down]

/-- What the entry at `path` beneath `root` is in its directory. -/
inductive Tree.Seats (tree : Tree) (root : Location) (path : Path) : Location → Name → Prop
  | itself (place : path.placeBeneath root = some root) : Seats tree root path root selfName
  | entry {parent : Location} {name : Name} (leads : tree.Leads root parent) (plain : name.Plain)
      (place : path.placeBeneath root = some (name :: parent)) : Seats tree root path parent name

theorem Tree.Seats.leads {tree : Tree} {root parent : Location} {path : Path} {name : Name}
    (seats : tree.Seats root path parent name) : tree.Leads root parent := by
  cases seats with
  | itself => exact .here
  | entry leads => exact leads

theorem Tree.Seats.mono {before after : Tree} {root parent : Location} {path : Path} {name : Name}
    (seats : before.Seats root path parent name)
    (kept : ∀ place, before.HasDirectory place → after.HasDirectory place) :
    after.Seats root path parent name := by
  cases seats with
  | itself place => exact .itself place
  | entry leads plain place => exact .entry (leads.mono kept) plain place

theorem Tree.Seats.name {tree : Tree} {root parent : Location} {path : Path} {name : Name}
    (seats : tree.Seats root path parent name) : name = selfName ∨ name.Plain := by
  cases seats with
  | itself => exact .inl rfl
  | entry leads plain place => exact .inr plain

theorem Tree.Seats.noSlash {tree : Tree} {root parent : Location} {path : Path} {name : Name}
    (seats : tree.Seats root path parent name) : slash ∉ name := by
  rcases seats.name with rfl | plain
  · decide
  · exact plain.noSlash

theorem Tree.Seats.place {tree : Tree} {root parent : Location} {path : Path} {name : Name}
    (seats : tree.Seats root path parent name) (other : name ≠ selfName) :
    path.placeBeneath root = some (name :: parent) := by
  cases seats with
  | itself => exact absurd rfl other
  | entry leads plain place => exact place

namespace Tree

variable {tree : Tree} {directory : Location} {name : Name} {target : Target}

theorem enter_nil (links : Nat) : tree.enter links directory [] = .ok directory := by
  cases links <;> rfl

theorem resolve_plain (plain : name.Plain) (fine : Path.check ⟨name⟩ = .ok ()) :
    tree.resolve directory ⟨name⟩ = .ok (.entry directory name) := by
  have relative : Path.origin ⟨name⟩ directory = directory := by
    cases name with
    | nil => exact absurd rfl plain.nonempty
    | cons byte rest =>
        have different : byte ≠ slash := fun same => plain.noSlash (same ▸ List.mem_cons_self)
        simp [Path.origin, Path.isAbsolute, different]
  have single : Path.steps ⟨name⟩ = [name] := by
    simp [Path.steps, Path.segments, segmentsOf_of_noSlash plain.noSlash, plain.nonempty]
  unfold resolve
  rw [fine, relative, single]
  change tree.targetOf directory [name] = _
  simp only [targetOf, List.getLast?_singleton, List.dropLast_singleton, enter_nil,
    if_neg plain.notSelf, if_neg plain.notParent]

theorem resolve_self : tree.resolve directory ⟨selfName⟩ = .ok (.whole directory) := by
  change tree.targetOf directory [selfName] = _
  simp only [targetOf, List.getLast?_singleton, List.dropLast_singleton, enter_nil, if_true]

theorem check_of_resolve {path : Path} (resolved : tree.resolve directory path = .ok target) :
    path.check = .ok () := by
  unfold resolve at resolved
  cases checked : path.check with
  | ok => rfl
  | error errno =>
      rw [checked] at resolved
      cases resolved

theorem childAt_ok {found : Option Node} (looked : tree.childAt directory name = .ok found) :
    name.length ≤ Name.maxLength ∧ found = tree.get? (name :: directory) := by
  unfold childAt at looked
  split at looked
  · cases looked
  · next short =>
    cases looked
    exact ⟨Nat.le_of_not_lt short, rfl⟩

theorem childAt_short (tree : Tree) (directory : Location) (short : name.length ≤ Name.maxLength) :
    tree.childAt directory name = .ok (tree.get? (name :: directory)) :=
  if_neg (Nat.not_lt.mpr short)

end Tree

namespace Disk

open TreeSync.Action

variable {disk : Disk} {directory root : Location} {name : Name}

theorem refuse_meets {α : Type} {errno : Errno} {done : α → Disk → Prop} :
    Meets (refuse errno) disk done (fun _ after => disk = after) :=
  Meets.throw rfl

theorem look_meets {α : Type} (lookup : Tree → Except Errno α) :
    Meets (look lookup) disk (fun found after => disk = after ∧ lookup disk.tree = .ok found)
      (fun _ after => disk = after) := by
  unfold Meets look
  cases found : lookup disk.tree with
  | ok value => exact ⟨rfl, rfl⟩
  | error errno => rfl

theorem look_keeps {α : Type} (lookup : Tree → Except Errno α) : Keeps Eq (look lookup) :=
  fun _ => (look_meets lookup).mono (fun _ _ met => ⟨met.1, trivial⟩) (fun _ _ same => same)

theorem checkName_meets :
    Meets (checkName name) disk (fun _ after => disk = after ∧ 0 ∉ name)
      (fun _ after => disk = after) := by
  unfold checkName
  split
  · exact refuse_meets
  · next clean => exact Meets.pure ⟨rfl, clean⟩

theorem entryOf_meets :
    Meets (entryOf directory name) disk
      (fun found after => disk = after ∧ found = disk.tree.get? (name :: directory))
      (fun _ after => disk = after) := by
  refine checkName_meets.bind ?_
  intro _ _ met
  obtain ⟨rfl, clean⟩ := met
  refine (look_meets _).mono ?_ (fun _ _ same => same)
  intro found after met
  obtain ⟨rfl, looked⟩ := met
  exact ⟨rfl, (Tree.childAt_ok looked).2⟩

theorem nodeAt_meets :
    Meets (nodeAt directory name) disk
      (fun node after => disk = after ∧ (name ≠ selfName → disk.tree.get? (name :: directory) = some node))
      (fun _ after => disk = after) := by
  unfold nodeAt
  split
  · next itself =>
    refine Meets.get ?_
    split
    · exact Meets.pure ⟨rfl, fun other => absurd itself other⟩
    · exact refuse_meets
  · refine entryOf_meets.bind ?_
    intro found after met
    obtain ⟨rfl, there⟩ := met
    split
    · exact Meets.pure ⟨rfl, fun _ => there.symm⟩
    · exact refuse_meets

theorem openDirectory_meets :
    Meets (openDirectory directory name) disk
      (fun place after => disk = after ∧ place = name :: directory ∧ disk.tree.HasDirectory place)
      (fun _ after => disk = after) := by
  refine entryOf_meets.bind ?_
  intro found after met
  obtain ⟨rfl, there⟩ := met
  split
  · exact Meets.pure ⟨rfl, rfl, _, there.symm⟩
  · exact refuse_meets
  · exact refuse_meets

theorem descend_meets (names : List Name) :
    Meets (descend directory names) disk
      (fun place after => disk = after ∧ place = names.reverse ++ directory ∧
        disk.tree.Leads directory place)
      (fun _ after => disk = after) := by
  induction names generalizing directory with
  | nil => exact Meets.pure ⟨rfl, rfl, .here⟩
  | cons name rest ih =>
      refine openDirectory_meets.bind ?_
      intro _ _ met
      obtain ⟨rfl, rfl, stands⟩ := met
      refine ih.mono ?_ (fun _ _ same => same)
      intro _ _ met
      obtain ⟨rfl, rfl, leads⟩ := met
      have first : disk.tree.Leads directory (name :: directory) := .down .here stands
      exact ⟨rfl, by simp, first.trans leads⟩

theorem descent_meets (path : Path) :
    Meets (descent path) disk (fun names after => disk = after ∧ path.descent = .ok names)
      (fun _ after => disk = after) := by
  unfold descent
  split
  · next names down => exact Meets.pure ⟨rfl, down⟩
  · exact Meets.throw rfl

theorem openBeneath_meets (path : Path) :
    Meets (openBeneath root path) disk
      (fun place after => disk = after ∧ path.placeBeneath root = some place ∧
        disk.tree.Leads root place)
      (fun _ after => disk = after) := by
  refine (descent_meets path).bind ?_
  intro names _ met
  obtain ⟨rfl, down⟩ := met
  refine (descend_meets names).mono ?_ (fun _ _ same => same)
  intro _ _ met
  obtain ⟨rfl, rfl, leads⟩ := met
  exact ⟨rfl, Path.placeBeneath_of_descent root down, leads⟩

theorem parentBeneath_meets (path : Path) :
    Meets (parentBeneath root path) disk
      (fun seat after => disk = after ∧ disk.tree.Seats root path seat.1 seat.2)
      (fun _ after => disk = after) := by
  refine (descent_meets path).bind ?_
  intro names _ met
  obtain ⟨rfl, down⟩ := met
  cases last : names.getLast? with
  | none =>
      have empty := List.getLast?_eq_none_iff.mp last
      subst empty
      exact Meets.pure ⟨rfl, .itself (Path.placeBeneath_of_descent root down)⟩
  | some name =>
      refine (descend_meets _).bind ?_
      intro _ _ met
      obtain ⟨rfl, rfl, leads⟩ := met
      refine Meets.pure ⟨rfl, .entry leads ?_ ?_⟩
      · exact Path.plain_of_mem_descent down (List.mem_of_getLast? last)
      · rw [Path.placeBeneath_of_descent root down]
        obtain ⟨above, rfl⟩ := List.getLast?_eq_some_iff.mp last
        simp

end Disk

end TreeSync

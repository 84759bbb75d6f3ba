import TreeSync.Proofs.Disk.Reaching
import TreeSync.Proofs.Transfer.Requesting

namespace TreeSync

/-! What a path shows beneath the root.

A descent takes each name as it comes, so it gets to a node exactly when every name on the
way is one that the system takes and a directory stands wherever it has to go on.
-/

open TreeSync.Action

/-- Whether each name of the path is one that the system takes. -/
def Path.Passable (path : Path) : Prop :=
  ∃ names, path.descent = .ok names ∧ ∀ name ∈ names, name.Sound

/-- The same for the names above the last one; the last one is given. -/
def Path.PassableTo (path : Path) (last : Name) : Prop :=
  ∃ names, path.descent = .ok names ∧ (∀ name ∈ names.dropLast, name.Sound) ∧
    names.getLast?.getD selfName = last

/-- Whether a descent from `root` gets to the node at `path`. -/
structure Tree.Shows (tree : Tree) (root : Location) (path : Path) (node : Node) : Prop where
  passable : path.Passable
  seats : ∃ parent name, tree.Seats root path parent name
  found : ∃ place, path.placeBeneath root = some place ∧ tree.get? place = some node

theorem Name.Plain.sound {name : Name} (plain : name.Plain)
    (passes : 0 ∉ name ∧ name.length ≤ Name.maxLength) : name.Sound :=
  ⟨plain, passes.2, passes.1⟩

theorem Path.PassableTo.passable {path : Path} {last : Name} (passes : path.PassableTo last)
    (sound : last.Sound) : path.Passable := by
  obtain ⟨names, down, above, rfl⟩ := passes
  refine ⟨names, down, ?_⟩
  rcases names.eq_nil_or_concat with rfl | ⟨init, name, spelled⟩
  · nofun
  · rw [List.concat_eq_append] at spelled
    subst spelled
    rw [List.dropLast_concat] at above
    simp only [List.getLast?_concat, Option.getD_some] at sound
    exact List.forall_mem_append.mpr ⟨above, List.forall_mem_singleton.mpr sound⟩

theorem Tree.Shows.mono {before after : Tree} {root : Location} {path : Path} {node other : Node}
    (shows : before.Shows root path node)
    (kept : ∀ place, before.HasDirectory place → after.HasDirectory place)
    (found : ∀ place, path.placeBeneath root = some place → before.get? place = some node →
      after.get? place = some other) : after.Shows root path other := by
  obtain ⟨passable, ⟨parent, name, seats⟩, place, placed, there⟩ := shows
  exact ⟨passable, ⟨parent, name, seats.mono kept⟩, place, placed, found place placed there⟩

theorem Tree.Shows.at {tree : Tree} {root place : Location} {path : Path} {node : Node}
    (shows : tree.Shows root path node) (placed : path.placeBeneath root = some place) :
    tree.get? place = some node := by
  obtain ⟨_, _, other, placed', found⟩ := shows
  cases placed.symm.trans placed'
  exact found

namespace Disk

variable {disk : Disk} {root directory : Location} {name : Name} {path : Path}

/-- A name that was looked at is one that the system takes. -/
theorem entryOf_passes :
    Meets (entryOf directory name) disk
      (fun found after => disk = after ∧ (0 ∉ name ∧ name.length ≤ Name.maxLength) ∧
        found = disk.tree.get? (name :: directory))
      (fun _ after => disk = after) := by
  refine checkName_meets.bind ?_
  rintro _ _ ⟨rfl, clean⟩
  refine (look_meets _).mono ?_ fun _ _ same => same
  rintro found after ⟨rfl, looked⟩
  obtain ⟨short, there⟩ := Tree.childAt_ok looked
  exact ⟨rfl, ⟨clean, short⟩, there⟩

theorem openDirectory_passes :
    Meets (openDirectory directory name) disk
      (fun place after => disk = after ∧ place = name :: directory ∧
        0 ∉ name ∧ name.length ≤ Name.maxLength)
      (fun _ after => disk = after) := by
  refine entryOf_passes.bind ?_
  rintro found after ⟨rfl, passes, -⟩
  split
  · exact Meets.pure ⟨rfl, rfl, passes⟩
  · exact refuse_meets
  · exact refuse_meets

theorem descend_passes (names : List Name) :
    Meets (descend directory names) disk
      (fun _ after => disk = after ∧ ∀ name ∈ names, 0 ∉ name ∧ name.length ≤ Name.maxLength)
      (fun _ after => disk = after) := by
  induction names generalizing directory with
  | nil => exact Meets.pure ⟨rfl, nofun⟩
  | cons name rest ih =>
      refine openDirectory_passes.bind ?_
      rintro _ _ ⟨rfl, rfl, passes⟩
      refine ih.mono ?_ fun _ _ same => same
      rintro _ _ ⟨rfl, later⟩
      exact ⟨rfl, List.forall_mem_cons.mpr ⟨passes, later⟩⟩

theorem openBeneath_passes :
    Meets (openBeneath root path) disk (fun _ after => disk = after ∧ path.Passable)
      (fun _ after => disk = after) := by
  refine (descent_meets path).bind ?_
  rintro names _ ⟨rfl, down⟩
  refine (descend_passes names).mono ?_ fun _ _ same => same
  rintro _ _ ⟨rfl, passes⟩
  exact ⟨rfl, names, down, fun name listed =>
    (Path.plain_of_mem_descent down listed).sound (passes name listed)⟩

theorem parentBeneath_passes :
    Meets (parentBeneath root path) disk
      (fun seat after => disk = after ∧ path.PassableTo seat.2) (fun _ after => disk = after) := by
  refine (descent_meets path).bind ?_
  rintro names _ ⟨rfl, down⟩
  cases last : names.getLast? with
  | none =>
      have empty := List.getLast?_eq_none_iff.mp last
      subst empty
      exact Meets.pure ⟨rfl, [], down, nofun, rfl⟩
  | some name =>
      refine (descend_passes _).bind ?_
      rintro _ _ ⟨rfl, passes⟩
      refine Meets.pure ⟨rfl, names, down, fun other listed => ?_, by rw [last]; rfl⟩
      exact (Path.plain_of_mem_descent down (List.dropLast_subset _ listed)).sound
        (passes other listed)

theorem parentBeneath_finds :
    Meets (parentBeneath root path) disk
      (fun seat after => disk = after ∧ path.PassableTo seat.2 ∧
        disk.tree.Seats root path seat.1 seat.2)
      (fun _ after => disk = after) :=
  Meets.intro
    (fun _ _ ran => ⟨(parentBeneath_passes.of_ok ran).1, (parentBeneath_passes.of_ok ran).2,
      ((parentBeneath_meets path).of_ok ran).2⟩)
    fun _ _ ran => parentBeneath_passes.of_error ran

/-- A node that was found beneath the root is shown by the path it was found by. -/
theorem nodeAt_shows {parent : Location} (passes : path.PassableTo name)
    (seats : disk.tree.Seats root path parent name) :
    Meets (nodeAt parent name) disk
      (fun node after => disk = after ∧ disk.tree.Shows root path node)
      (fun _ after => disk = after) := by
  unfold nodeAt
  split
  · next itself =>
    refine Meets.get ?_
    split
    · next node found =>
      refine Meets.pure ⟨rfl, ?_, ⟨_, _, seats⟩, ?_⟩
      · obtain ⟨names, down, above, last⟩ := passes
        refine ⟨names, down, ?_⟩
        rcases names.eq_nil_or_concat with rfl | ⟨init, other, spelled⟩
        · nofun
        · rw [List.concat_eq_append] at spelled
          subst spelled
          have plain := Path.plain_of_mem_descent down (List.mem_append_right _ List.mem_cons_self)
          rw [List.getLast?_concat, Option.getD_some] at last
          exact absurd (last.trans itself) plain.notSelf
      · cases seats with
        | itself place => exact ⟨root, place, found⟩
        | entry _ plain _ => exact absurd itself plain.notSelf
    · exact refuse_meets
  · next other =>
    refine entryOf_passes.bind ?_
    rintro found after ⟨rfl, fits, there⟩
    split
    · refine Meets.pure ⟨rfl, ?_, ⟨_, _, seats⟩, _, seats.place other, there.symm⟩
      exact passes.passable ((seats.name.resolve_left other).sound fits)
    · exact refuse_meets

/-- A path that shows a node leads to it. -/
theorem parentBeneath_shows {node : Node} (shows : disk.tree.Shows root path node) :
    ∃ parent name, parentBeneath root path disk = .ok (parent, name) disk ∧
      nodeAt parent name disk = .ok node disk := by
  obtain ⟨⟨names, down, sound⟩, ⟨parent, name, seats⟩, place, placed, found⟩ := shows
  have spelled := (Path.placeBeneath_of_descent root down).symm.trans placed
  cases Option.some.inj spelled
  rcases names.eq_nil_or_concat with rfl | ⟨above, last, spelled⟩
  · have reached : parentBeneath root path disk = .ok (root, selfName) disk := by
      unfold parentBeneath descent
      rw [down]
      rfl
    refine ⟨root, selfName, reached, ?_⟩
    have there : disk.tree.get? root = some node := found
    have got : (get : EStateM Fault Disk Disk) disk = .ok disk disk := rfl
    unfold nodeAt
    rw [if_pos rfl]
    refine (bind_ok got).trans ?_
    rw [there]
    rfl
  · rw [List.concat_eq_append] at spelled
    subst spelled
    have fits := sound last (List.mem_append_right _ List.mem_cons_self)
    have leads : disk.tree.Leads root (above.reverse ++ root) := by
      cases seats with
      | itself place =>
          have short := congrArg List.length (Option.some.inj (place.symm.trans placed))
          simp at short
          omega
      | entry leads _ place =>
          have same := Option.some.inj (place.symm.trans placed)
          simp only [List.reverse_append, List.reverse_singleton, List.cons_append,
            List.cons.injEq] at same
          exact same.2 ▸ leads
    refine ⟨above.reverse ++ root, last, parentBeneath_sound down ?_ leads, ?_⟩
    · exact fun other listed => sound other (List.mem_append_left _ listed)
    · have there : disk.tree.get? (last :: (above.reverse ++ root)) = some node := by
        simpa using found
      unfold nodeAt
      rw [if_neg fits.notSelf]
      refine (bind_ok (entryOf_sound fits)).trans ?_
      rw [there]
      rfl

/-- A path that shows a directory opens it. -/
theorem openBeneath_shows {attributes : Attributes}
    (shows : disk.tree.Shows root path (.directory attributes)) :
    ∃ place, openBeneath root path disk = .ok place disk ∧
      path.placeBeneath root = some place ∧ disk.tree.get? place = some (.directory attributes) := by
  obtain ⟨⟨names, down, sound⟩, ⟨parent, name, seats⟩, place, placed, found⟩ := shows
  cases (Path.placeBeneath_of_descent root down).symm.trans placed
  refine ⟨_, ?_, placed, found⟩
  have leads : disk.tree.Leads root (names.reverse ++ root) := by
    cases seats with
    | itself place =>
        have here := Option.some.inj (place.symm.trans placed)
        exact here ▸ .here
    | entry leads _ place =>
        have here := Option.some.inj (place.symm.trans placed)
        exact here ▸ .down leads ⟨attributes, here ▸ found⟩
  have taken : descent path disk = .ok names disk := by
    unfold descent
    rw [down]
    rfl
  exact (bind_ok taken).trans (descend_sound sound leads)

end Disk

namespace Standing

variable {disk : Disk} {root : Location} {path : Path}

/-- What was found is missing, or it is shown by the path. -/
theorem find_shows :
    Meets (find root path) disk
      (fun standing after => disk = after ∧
        (standing = .missing ∨ ∃ node, standing = .ofNode node ∧ disk.tree.Shows root path node))
      (fun _ after => disk = after) := by
  have reaches : Meets (Disk.reach root path) disk
      (fun seat after => disk = after ∧ path.PassableTo seat.2 ∧
        disk.tree.Seats root path seat.1 seat.2) (fun _ after => disk = after) :=
    Meets.explaining Disk.parentBeneath_finds
  refine Meets.attempt reaches ?_ ?_
  · rintro seat _ ⟨rfl, passes, seats⟩
    refine Meets.attempt (Disk.nodeAt_shows passes seats) ?_ ?_
    · rintro node _ ⟨rfl, shows⟩
      exact Meets.pure ⟨rfl, .inr ⟨node, rfl, shows⟩⟩
    · rintro cause _ rfl
      exact Meets.cond (fun _ => Meets.pure ⟨rfl, .inl rfl⟩) fun _ => Meets.throw rfl
  · rintro cause _ rfl
    exact Meets.cond (fun _ => Meets.pure ⟨rfl, .inl rfl⟩) fun _ => Meets.throw rfl

theorem find_of_shows {node : Node} (shows : disk.tree.Shows root path node) :
    find root path disk = .ok (.ofNode node) disk := by
  obtain ⟨parent, name, reached, looked⟩ := Disk.parentBeneath_shows shows
  have reached : Disk.reach root path disk = .ok (parent, name) disk := by
    unfold Disk.reach explaining
    rw [reached]
  refine (bind_ok (attempt_ok reached)).trans ?_
  exact (bind_ok (attempt_ok looked)).trans rfl

end Standing

end TreeSync

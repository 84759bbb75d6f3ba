import TreeSync.Proofs.Disk.Descent

namespace TreeSync

/-! Where the steps of a path lead.

Steps that lead to a directory lead to one on the way, too, and more may follow them.
So whether a path opens as a directory and what its last step names tell of each other.
-/

namespace Tree

variable {tree : Tree} {start directory place : Location} {name : Name} {first second : List Name}
  {attributes : Attributes}

theorem walk_append {follow follow' : Location → List Name → Except Errno Location}
    (passes : ∀ other rest, follow other rest = .ok directory →
      follow' other (rest ++ second) = .ok place)
    (ends : tree.walk follow' directory second = .ok place)
    (reached : tree.walk follow start first = .ok directory) :
    tree.walk follow' start (first ++ second) = .ok place := by
  induction first generalizing start with
  | nil =>
      cases reached
      exact ends
  | cons name rest ih =>
      rw [List.cons_append, walk]
      rw [walk] at reached
      by_cases here : name = selfName
      · rw [if_pos here] at reached ⊢
        exact ih reached
      by_cases up : name = parentName
      · rw [if_neg here, if_pos up] at reached ⊢
        exact ih reached
      rw [if_neg here, if_neg up] at reached ⊢
      cases looked : tree.childAt start name with
      | error errno =>
          rw [looked] at reached
          cases reached
      | ok found =>
          rw [looked] at reached
          cases found with
          | none => cases reached
          | some node =>
              cases node with
              | directory attributes => exact ih reached
              | link target =>
                  have whole := passes _ _ reached
                  rwa [List.append_assoc] at whole
              | file attributes content => cases reached
              | fifo attributes => cases reached

/-- More steps may follow where those before them lead, if they take no link. -/
theorem enter_append {links : Nat} (ends : ∀ links, tree.enter links directory second = .ok place)
    (reached : tree.enter links start first = .ok directory) :
    tree.enter links start (first ++ second) = .ok place := by
  induction links generalizing start first with
  | zero =>
      refine walk_append (fun _ _ lost => ?_) (ends 0) reached
      cases lost
  | succ links ih => exact walk_append (fun _ _ further => ih further) (ends (links + 1)) reached

theorem enter_self (links : Nat) : tree.enter links directory [selfName] = .ok directory := by
  cases links <;> rfl

theorem enter_parent (links : Nat) : tree.enter links directory [parentName] = .ok directory.tail := by
  cases links <;> rfl

theorem enter_directory (links : Nat) (notSelf : name ≠ selfName) (notParent : name ≠ parentName)
    (looked : tree.childAt directory name = .ok (some (.directory attributes))) :
    tree.enter links directory [name] = .ok (name :: directory) := by
  cases links <;> simp only [enter, walk, if_neg notSelf, if_neg notParent, looked]

/-- Steps that lead somewhere lead somewhere on the way, too. -/
theorem walk_split {follow : Location → List Name → Except Errno Location}
    (passes : ∀ other rest, follow other (rest ++ second) = .ok place →
      ∃ middle links, follow other rest = .ok middle ∧ tree.enter links middle second = .ok place)
    (ends : ∀ middle, tree.walk follow middle second = .ok place →
      ∃ links, tree.enter links middle second = .ok place)
    (reached : tree.walk follow start (first ++ second) = .ok place) :
    ∃ middle links, tree.walk follow start first = .ok middle ∧
      tree.enter links middle second = .ok place := by
  induction first generalizing start with
  | nil =>
      obtain ⟨links, further⟩ := ends start reached
      exact ⟨start, links, rfl, further⟩
  | cons name rest ih =>
      rw [List.cons_append, walk] at reached
      rw [walk]
      by_cases here : name = selfName
      · rw [if_pos here] at reached ⊢
        exact ih reached
      by_cases up : name = parentName
      · rw [if_neg here, if_pos up] at reached ⊢
        exact ih reached
      rw [if_neg here, if_neg up] at reached ⊢
      cases looked : tree.childAt start name with
      | error errno =>
          rw [looked] at reached
          cases reached
      | ok found =>
          rw [looked] at reached
          cases found with
          | none => cases reached
          | some node =>
              cases node with
              | directory attributes => exact ih reached
              | link target =>
                  dsimp only at reached ⊢
                  rw [← List.append_assoc] at reached
                  exact passes _ _ reached
              | file attributes content => cases reached
              | fifo attributes => cases reached

theorem enter_split {links : Nat} (reached : tree.enter links start (first ++ second) = .ok place) :
    ∃ middle links', tree.enter links start first = .ok middle ∧
      tree.enter links' middle second = .ok place := by
  induction links generalizing start first with
  | zero =>
      refine walk_split (fun _ _ lost => ?_) (fun _ further => ⟨0, further⟩) reached
      cases lost
  | succ links ih =>
      exact walk_split (fun _ _ further => ih further) (fun _ further => ⟨links + 1, further⟩) reached

/-- The steps lead to the directory that they name by the last of them. -/
theorem enter_of_targetOf_whole {steps : List Name}
    (aimed : tree.targetOf start steps = .ok (.whole place)) :
    tree.enter maxLinks start steps = .ok place := by
  unfold targetOf at aimed
  split at aimed
  · next nothing =>
    cases aimed
    rw [List.getLast?_eq_none_iff.mp nothing, enter_nil]
  · next last ends =>
    obtain ⟨above, rfl⟩ := List.getLast?_eq_some_iff.mp ends
    rw [List.dropLast_concat] at aimed
    split at aimed
    · cases aimed
    · next directory reached =>
      split at aimed
      · next itself =>
        cases aimed
        exact enter_append (itself ▸ enter_self) reached
      · split at aimed
        · next up =>
          cases aimed
          exact enter_append (up ▸ enter_parent) reached
        · cases aimed

/-- The entry that a path names is one of the directory that the steps before it lead to. -/
theorem targetOf_entry {steps : List Name}
    (aimed : tree.targetOf start steps = .ok (.entry directory name)) :
    ∃ above, steps = above ++ [name] ∧ name ≠ selfName ∧ name ≠ parentName ∧
      tree.enter maxLinks start above = .ok directory := by
  unfold targetOf at aimed
  split at aimed
  · cases aimed
  · next last ends =>
    obtain ⟨above, rfl⟩ := List.getLast?_eq_some_iff.mp ends
    rw [List.dropLast_concat] at aimed
    split at aimed
    · cases aimed
    · next place reached =>
      split at aimed
      · cases aimed
      · next notSelf =>
        split at aimed
        · cases aimed
        · next notParent =>
          cases aimed
          exact ⟨above, rfl, notSelf, notParent, reached⟩

theorem enter_of_targetOf_entry {steps : List Name}
    (aimed : tree.targetOf start steps = .ok (.entry directory name))
    (looked : tree.childAt directory name = .ok (some (.directory attributes))) :
    tree.enter maxLinks start steps = .ok (name :: directory) := by
  obtain ⟨above, rfl, notSelf, notParent, reached⟩ := targetOf_entry aimed
  exact enter_append (fun links => enter_directory links notSelf notParent looked) reached

theorem targetOf_concat_self (tree : Tree) (start : Location) (steps : List Name) :
    tree.targetOf start (steps ++ [selfName]) = (tree.enter maxLinks start steps).map .whole := by
  simp only [targetOf, List.getLast?_concat, List.dropLast_concat]
  cases tree.enter maxLinks start steps <;> rfl

/-- A directory that is found without following a last link is the one that opens. -/
theorem resolveDirectory_of_directoryAt? {path : Path}
    (found : tree.directoryAt? start path = .ok (some place)) :
    tree.resolveDirectory start path = .ok place := by
  simp only [directoryAt?, resolveDirectory, bind, Except.bind] at found ⊢
  cases checked : path.check with
  | error errno => simp [checked] at found
  | ok =>
      simp only [checked] at found
      cases aimed : tree.targetOf (path.origin start) path.stepsInto with
      | error errno => simp [aimed] at found
      | ok target =>
          simp only [aimed] at found
          cases target with
          | whole directory =>
              cases found
              rw [Path.stepsInto] at aimed
              split at aimed
              · cases reached : tree.enter maxLinks (path.origin start) path.steps with
                | error errno => simp [targetOf_concat_self, reached, Except.map] at aimed
                | ok entered => simpa [targetOf_concat_self, reached, Except.map] using aimed
              · exact enter_of_targetOf_whole aimed
          | entry directory name =>
              cases looked : tree.childAt directory name with
              | error errno => simp [looked] at found
              | ok met =>
                  simp only [looked] at found
                  split at found
                  · cases found
                  · cases found
                    rw [Path.stepsInto] at aimed
                    split at aimed
                    · cases reached : tree.enter maxLinks (path.origin start) path.steps <;>
                        simp [targetOf_concat_self, reached, Except.map] at aimed
                    · exact enter_of_targetOf_entry aimed looked
                  · cases found

theorem check_of_resolveDirectory {path : Path} (opens : tree.resolveDirectory start path = .ok place) :
    path.check = .ok () ∧ tree.enter maxLinks (path.origin start) path.steps = .ok place := by
  simp only [resolveDirectory, bind, Except.bind] at opens
  cases checked : path.check with
  | error errno =>
      rw [checked] at opens
      cases opens
  | ok =>
      rw [checked] at opens
      exact ⟨rfl, opens⟩

/-- Whether the last step of a path names a link. -/
def EndsInLink (tree : Tree) (start : Location) (path : Path) : Prop :=
  ∃ directory name target,
    tree.targetOf (path.origin start) path.stepsInto = .ok (.entry directory name) ∧
      tree.get? (name :: directory) = some (.link target)

/-- What the last of some steps names, if they lead to a directory. -/
inductive Arrives (tree : Tree) (place : Location) : Target → Prop
  | whole : Arrives tree place (.whole place)
  | entry {directory : Location} {name : Name} {attributes : Attributes}
      (looked : tree.childAt directory name = .ok (some (.directory attributes)))
      (here : name :: directory = place) : Arrives tree place (.entry directory name)
  | link {directory : Location} {name : Name} {target : Path}
      (looked : tree.childAt directory name = .ok (some (.link target))) :
      Arrives tree place (.entry directory name)

theorem arrives_of_enter {links : Nat} (notSelf : name ≠ selfName) (notParent : name ≠ parentName)
    (reached : tree.enter links directory [name] = .ok place) :
    tree.Arrives place (.entry directory name) := by
  cases looked : tree.childAt directory name with
  | error errno => cases links <;> simp [enter, walk, notSelf, notParent, looked] at reached
  | ok found =>
      cases found with
      | none => cases links <;> simp [enter, walk, notSelf, notParent, looked] at reached
      | some node =>
          cases node with
          | directory attributes =>
              rw [enter_directory links notSelf notParent looked] at reached
              exact .entry looked (Except.ok.inj reached)
          | link target => exact .link looked
          | file | fifo => cases links <;> simp [enter, walk, notSelf, notParent, looked] at reached

theorem targetOf_of_enter {steps : List Name} (reached : tree.enter maxLinks start steps = .ok place) :
    ∃ target, tree.targetOf start steps = .ok target ∧ tree.Arrives place target := by
  unfold targetOf
  split
  · next nothing =>
    rw [List.getLast?_eq_none_iff.mp nothing, enter_nil] at reached
    cases reached
    exact ⟨_, rfl, .whole⟩
  · next last ends =>
    obtain ⟨above, rfl⟩ := List.getLast?_eq_some_iff.mp ends
    obtain ⟨middle, links, led, further⟩ := enter_split reached
    rw [List.dropLast_concat, led]
    dsimp only
    split
    · next itself =>
      rw [itself, enter_self] at further
      cases further
      exact ⟨_, rfl, .whole⟩
    · next notSelf =>
      split
      · next up =>
        rw [up, enter_parent] at further
        cases further
        exact ⟨_, rfl, .whole⟩
      · next notParent => exact ⟨_, rfl, arrives_of_enter notSelf notParent further⟩

/-- A directory that opens is found in its place, unless it is reached by a last link. -/
theorem directoryAt?_of_resolveDirectory {path : Path}
    (opens : tree.resolveDirectory start path = .ok place) :
    tree.directoryAt? start path = .ok (some place) ∧ ¬ tree.EndsInLink start path ∨
      tree.directoryAt? start path = .ok none ∧ tree.EndsInLink start path := by
  simp only [resolveDirectory, bind, Except.bind] at opens
  cases checked : path.check with
  | error errno => simp [checked] at opens
  | ok =>
      simp only [checked] at opens
      obtain ⟨target, aimed, arrives⟩ : ∃ target,
          tree.targetOf (path.origin start) path.stepsInto = .ok target ∧
            tree.Arrives place target := by
        unfold Path.stepsInto
        split
        · rw [targetOf_concat_self, opens]
          exact ⟨_, rfl, .whole⟩
        · exact targetOf_of_enter opens
      simp only [directoryAt?, EndsInLink, checked, aimed, bind, Except.bind]
      cases arrives with
      | whole => exact .inl ⟨rfl, by simp⟩
      | entry looked here =>
          have stands := (childAt_ok looked).2
          refine .inl ⟨by simp [looked, here, pure, Except.pure], ?_⟩
          rintro ⟨_, _, _, ⟨⟩, link⟩
          cases stands.trans link
      | link looked =>
          exact .inr ⟨by simp [looked, pure, Except.pure], _, _, _, rfl, (childAt_ok looked).2.symm⟩

end Tree

end TreeSync

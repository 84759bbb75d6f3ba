import TreeSync.Proofs.Destination.Rooting

namespace TreeSync.Destination

/-! A root that is made, opened and cleared once more.

Where the path of the root leads to a directory there is none to make, and where the list
names all that stands beneath it there is nothing to remove.
-/

open TreeSync.Action

variable {disk : Disk} {host : Host} {path : Path} {root : Location} {listed : List ListEntry}
  {found : List FoundEntry}

/-- There is something already where a path leads to a directory. -/
theorem makeOne_exists (opens : disk.tree.resolveDirectory disk.workingDirectory path = .ok root) :
    makeOne path disk = .error (.system .exists) disk := by
  obtain ⟨checked, reached⟩ := Tree.check_of_resolveDirectory opens
  have clean : 0 ∉ path.bytes := fun nul => by simp [Path.check, nul] at checked
  obtain ⟨target, aimed, arrives⟩ := Tree.targetOf_of_enter reached
  have resolved : Disk.look (·.resolve disk.workingDirectory path) disk = .ok target disk := by
    refine Disk.look_ok ?_
    simp only [Tree.resolve, checked, bind, Except.bind]
    exact aimed
  have got : (get : EStateM Fault Disk Disk) disk = .ok disk disk := rfl
  unfold makeOne
  rw [if_neg clean]
  refine (bind_ok got).trans ((bind_ok resolved).trans ?_)
  cases arrives with
  | whole => rfl
  | entry looked _ => exact (bind_ok (Disk.look_ok looked)).trans rfl
  | link looked => exact (bind_ok (Disk.look_ok looked)).trans rfl

theorem makePath_rests (opens : disk.tree.resolveDirectory disk.workingDirectory path = .ok root) :
    makePath path disk = .ok () disk := by
  have checked := (Tree.check_of_resolveDirectory opens).1
  have nonempty : path.bytes ≠ [] := fun nothing => by simp [Path.check, nothing] at checked
  have leads : disk.tree.leadsToDirectory disk.workingDirectory path = true := by
    unfold Tree.leadsToDirectory
    rw [opens]
    rfl
  have excused : orExisting path (.system .exists) disk = .ok () disk := by
    unfold orExisting
    change (if disk.tree.leadsToDirectory disk.workingDirectory path = true then
      (pure () : EStateM Fault Disk Unit) else throw (.system .exists)) disk = _
    rw [if_pos leads]
    rfl
  unfold makePath
  rw [if_neg nonempty]
  exact (bind_ok (attempt_error (makeOne_exists opens))).trans excused

theorem extraneous_of_named
    (named : ∀ entry ∈ found, ∃ other ∈ listed, other.path.normalized = entry.path.normalized) :
    extraneous found listed = [] := by
  unfold extraneous
  refine List.filter_eq_nil_iff.mpr fun entry member => ?_
  obtain ⟨shown, there, rfl⟩ := List.mem_map.mp member
  obtain ⟨other, listed, same⟩ := named shown (List.mem_reverse.mp there)
  simp only [decide_not, Bool.not_eq_true', decide_eq_false_iff_not, not_not]
  exact List.mem_map.mpr ⟨other, listed, same⟩

theorem pruneAll_rests (nothing : extraneous found listed = []) :
    Meets (pruneAll root found listed) host
      (fun removals after => removals = {} ∧ after.disk = host.disk) (fun _ _ => False) := by
  unfold pruneAll
  rw [nothing, List.foldlM_nil, pure_bind]
  exact Meets.changeThen (Meets.pure ⟨rfl, rfl⟩)

/-- What the list names is all that is found at an open root, unless that is asked about by a
path that is too long. -/
theorem contents_named
    (opens : host.disk.tree.resolveDirectory host.disk.workingDirectory path = .ok root)
    (named : ¬ host.disk.tree.EndsInLink host.disk.workingDirectory path →
      ∀ place, root <:+ place → place ≠ root → host.disk.tree.get? place ≠ none →
        ¬ TooDeep path root place ∧
          ∃ entry ∈ listed, entry.path.normalized = (root.pathTo place).normalized) :
    Meets (contents path) host
      (fun found after => after.disk = host.disk ∧ extraneous found listed = [])
      (fun _ _ => False) := by
  rcases Tree.directoryAt?_of_resolveDirectory opens with ⟨looked, real⟩ | ⟨looked, -⟩
  · refine (contents_shows looked).mono ?_ ?_
    · rintro _ after ⟨rfl, same⟩
      refine ⟨same, extraneous_of_named fun entry member => ?_⟩
      obtain ⟨⟨place, node⟩, there, rfl⟩ := List.mem_map.mp member
      obtain ⟨holds, stands⟩ := Tree.mem_beneath.mp there
      exact (named real place holds.suffix holds.ne_root (by rw [stands]; simp)).2
    · rintro _ _ ⟨⟨place, node⟩, there, deep⟩
      obtain ⟨holds, stands⟩ := Tree.mem_beneath.mp there
      exact (named real place holds.suffix holds.ne_root (by rw [stands]; simp)).1 deep
  · rw [Meets, contents, bind_ok (findRoot_ok looked)]
    exact ⟨rfl, rfl⟩

end TreeSync.Destination

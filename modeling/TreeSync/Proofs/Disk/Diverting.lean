import TreeSync.Proofs.Disk.Wayfinding

namespace TreeSync

/-! Paths through a tree that has changed.

As long as no link has come and none has given way to a directory, a path that leads somewhere
before and after leads to the same place. It may have got lost, but it cannot have been diverted.
-/

namespace Tree

variable {before after : Tree} {start place place' : Location} {steps : List Name} {path : Path}

/-- Whether links that are there now were there before, and no directory is where a link was. -/
structure Undiverted (before after : Tree) : Prop where
  links : ∀ place target, after.get? place = some (.link target) →
    before.get? place = some (.link target)
  turns : ∀ place target, before.get? place = some (.link target) → ¬ after.HasDirectory place

namespace Undiverted

theorem walk {follow follow' : Location → List Name → Except Errno Location}
    (undiverted : before.Undiverted after)
    (further : ∀ other rest, follow other rest = .ok place → follow' other rest = .ok place' →
      place' = place)
    (reached : before.walk follow start steps = .ok place)
    (reached' : after.walk follow' start steps = .ok place') : place' = place := by
  induction steps generalizing start with
  | nil =>
      cases reached
      cases reached'
      rfl
  | cons name rest ih =>
      rw [Tree.walk] at reached reached'
      by_cases here : name = selfName
      · rw [if_pos here] at reached reached'
        exact ih reached reached'
      by_cases up : name = parentName
      · rw [if_neg here, if_pos up] at reached reached'
        exact ih reached reached'
      rw [if_neg here, if_neg up] at reached reached'
      cases looked : before.childAt start name with
      | error errno =>
          rw [looked] at reached
          cases reached
      | ok found =>
      cases looked' : after.childAt start name with
      | error errno =>
          rw [looked'] at reached'
          cases reached'
      | ok found' =>
          rw [looked] at reached
          rw [looked'] at reached'
          have met := (childAt_ok looked).2
          have met' := (childAt_ok looked').2
          -- a step goes on at a directory or a link, and it met the same before
          cases found with
          | none => cases reached
          | some node =>
          cases found' with
          | none => cases reached'
          | some node' =>
          cases node' with
          | file | fifo => cases reached'
          | directory attributes' =>
              cases node with
              | directory attributes => exact ih reached reached'
              | link target => exact absurd ⟨_, met'.symm⟩ (undiverted.turns _ _ met.symm)
              | file | fifo => cases reached
          | link target' =>
              obtain rfl := Option.some.inj (met.trans (undiverted.links _ _ met'.symm))
              exact further _ _ reached reached'

theorem enter (undiverted : before.Undiverted after) {links : Nat}
    (reached : before.enter links start steps = .ok place)
    (reached' : after.enter links start steps = .ok place') : place' = place := by
  induction links generalizing start steps with
  | zero =>
      refine undiverted.walk (fun _ _ lost _ => ?_) reached reached'
      cases lost
  | succ links ih => exact undiverted.walk (fun _ _ led led' => ih led led') reached reached'

/-- A path that leads to a directory before and after leads to the same one. -/
theorem resolveDirectory (undiverted : before.Undiverted after)
    (opens : before.resolveDirectory start path = .ok place)
    (opens' : after.resolveDirectory start path = .ok place') : place' = place :=
  undiverted.enter (check_of_resolveDirectory opens).2 (check_of_resolveDirectory opens').2

/-- If it ended in a link, it still does. -/
theorem endsInLink (undiverted : before.Undiverted after)
    (opens' : after.resolveDirectory start path = .ok place')
    (linked : before.EndsInLink start path) : after.EndsInLink start path := by
  obtain ⟨directory, name, target, aimed, link⟩ := linked
  obtain ⟨above, split, notSelf, notParent, led⟩ := targetOf_entry aimed
  have bare : path.stepsInto = path.steps := by
    unfold Path.stepsInto at split ⊢
    by_cases slash : path.endsInSlash = true
    · rw [if_pos slash] at split
      have last := (List.append_inj' split rfl).2
      exact absurd (List.singleton_inj.mp last).symm notSelf
    · rw [if_neg slash]
  have reached' := (check_of_resolveDirectory opens').2
  rw [← bare, split] at reached'
  obtain ⟨middle, links, led', further⟩ := enter_split reached'
  obtain rfl := undiverted.enter led led'
  obtain ⟨target', aimed', arrives⟩ := targetOf_of_enter reached'
  rw [← split] at aimed'
  have here : after.Arrives place' (.entry middle name) :=
    arrives_of_enter notSelf notParent further
  cases here with
  | entry looked here => exact absurd ⟨_, (childAt_ok looked).2.symm⟩ (undiverted.turns _ _ link)
  | @link _ _ target'' looked =>
      refine ⟨middle, name, target'', ?_, (childAt_ok looked).2.symm⟩
      rw [split]
      simp only [targetOf, List.getLast?_concat, List.dropLast_concat, led', if_neg notSelf,
        if_neg notParent]

end Undiverted

end Tree

end TreeSync

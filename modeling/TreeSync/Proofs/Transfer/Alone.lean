import TreeSync.Proofs.Transfer.Asking
import TreeSync.Proofs.Transfer.Shadowing

namespace TreeSync

/-! The uploader at work on its own.

What it does alone, step after step, is settled by where it starts. So it is what runs can
be measured by that interleave the same steps in different ways with the arrival of files.
-/

open TreeSync.Action

/-- Whether `place` is where the entry at an index is to go. -/
def Task.Places (task : Task) (index : Nat) (place : Location) : Prop :=
  ∃ root entry, task.root = some root ∧ task.files[index]? = some entry ∧
    entry.path.placeBeneath root = some place

namespace FileRequester

variable {task : Task} {options : Options} {requests : List Nat} {steps more : Nat}
  {start now other : Uploading FileRequester BoundedSink}

/-- The uploader after so many steps, each of which succeeded with something left to do. -/
inductive Alone (task : Task) (start : Uploading FileRequester BoundedSink) :
    Nat → Uploading FileRequester BoundedSink → Prop
  | start : Alone task start 0 start
  | step {steps : Nat} {now after : Uploading FileRequester BoundedSink}
      (earlier : Alone task start steps now) (left : now.cursor.exhausted = false)
      (done : advance task now = .ok () after) : Alone task start (steps + 1) after

namespace Alone

theorem unique (alone : Alone task start steps now) (again : Alone task start steps other) :
    now = other := by
  induction alone generalizing other with
  | start =>
      cases again
      rfl
  | step _ _ done ih =>
      cases again with
      | step earlier' _ done' =>
          rw [ih earlier', done'] at done
          cases done
          rfl

/-- What is known of the uploader at the start is known of it after any number of steps. -/
theorem said (alone : Alone task start steps now) (strength : task.checksum = options.checksum)
    (known : Said BoundedSink.Holds options task [] start) :
    ∃ requests, Said BoundedSink.Holds options task requests now := by
  induction alone with
  | start => exact ⟨[], known⟩
  | step _ _ done ih =>
      obtain ⟨requests, known⟩ := ih
      exact ((advance_meets BoundedSink.accepts strength known).of_ok done).1

theorem cursor (alone : Alone task start steps now) (strength : task.checksum = options.checksum)
    (known : Said BoundedSink.Holds options task [] start) :
    now.cursor.next = start.cursor.next + steps ∧ now.cursor.total = start.cursor.total := by
  induction alone with
  | start => exact ⟨rfl, rfl⟩
  | @step steps now after earlier left done ih =>
      obtain ⟨requests, known⟩ := earlier.said strength known
      have moved := ((advance_meets BoundedSink.accepts strength known).of_ok done).2
      rw [moved, Cursor.next_advance left, Cursor.total_advance]
      exact ⟨by omega, ih.2⟩

/-- It comes to the end of the list in one state only. -/
theorem ended_unique (alone : Alone task start steps now) (again : Alone task start more other)
    (strength : task.checksum = options.checksum)
    (known : Said BoundedSink.Holds options task [] start)
    (ended : now.cursor.exhausted = true) (ended' : other.cursor.exhausted = true) :
    now = other := by
  obtain ⟨next, total⟩ := alone.cursor strength known
  obtain ⟨next', total'⟩ := again.cursor strength known
  have bound := now.cursor.next_le
  have bound' := other.cursor.next_le
  simp only [Cursor.exhausted, decide_eq_true_eq] at ended ended'
  have same : steps = more := by omega
  subst same
  exact alone.unique again

/-- It changes nothing but the places of entries. -/
theorem sight (alone : Alone task start steps now) {place : Location}
    (apart : ∀ index, ¬ task.Places index place) :
    now.host.disk.tree.sight place = start.host.disk.tree.sight place := by
  induction alone with
  | start => rfl
  | step _ _ done ih =>
      rw [← ih]
      generalize changed : (Uploading.host _).disk = disk
      have prepares := (advance_prepares task _).of_ok done
      rw [changed] at prepares
      cases prepares with
      | nothing => rfl
      | directory opened listed kind leads plain placed free =>
          refine Change.sight_apply_of_not_altered fun altered => ?_
          rw [List.mem_singleton.mp altered] at apart
          obtain ⟨index, inside⟩ := List.getElem?_of_mem listed
          exact apart index ⟨_, _, opened, inside, placed⟩

end Alone

end FileRequester

end TreeSync

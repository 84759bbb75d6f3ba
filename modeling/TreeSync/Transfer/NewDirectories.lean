namespace TreeSync

/-! Which directories of the list were made by this run. -/

structure NewDirectories where
  flags : List Bool
deriving DecidableEq

namespace NewDirectories

def none (total : Nat) : NewDirectories :=
  ⟨List.replicate total false⟩

/-- Marks an entry; an index past the end marks nothing. -/
def mark (marks : NewDirectories) (index : Nat) : NewDirectories :=
  ⟨marks.flags.set index true⟩

def isNew (marks : NewDirectories) (index : Nat) : Bool :=
  marks.flags[index]?.getD false

def count (marks : NewDirectories) : Nat :=
  marks.flags.count true

theorem isNew_mark (marks : NewDirectories) (index other : Nat) :
    (marks.mark index).isNew other =
      (marks.isNew other || (decide (other = index) && decide (other < marks.flags.length))) := by
  unfold isNew mark
  by_cases same : other = index
  · subst same
    by_cases inside : other < marks.flags.length
    · simp [inside]
    · simp [inside]
  · simp [Ne.symm same, same]

@[simp] theorem length_flags_mark (marks : NewDirectories) (index : Nat) :
    (marks.mark index).flags.length = marks.flags.length := by
  simp [mark]

end NewDirectories

end TreeSync

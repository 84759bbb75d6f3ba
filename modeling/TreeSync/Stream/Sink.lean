import TreeSync.Fault

namespace TreeSync

/-! Sinks for bytes, and what is sent to them.

An emission is what a writer sends: pieces, each handed over whole, then perhaps
a refusal to go on. Keeping it apart from the sink makes what is written a value.
-/

/-- A sink takes all the bytes it is given, or a first part of them and fails. -/
class ByteSink (κ : Type) where
  put : Bytes → EStateM Fault κ Unit

structure Emission where
  pieces : List Bytes := []
  refusal : Option Fault := none

namespace Emission

def write (piece : Bytes) : Emission := { pieces := [piece] }

def refuse (fault : Fault) : Emission := { refusal := some fault }

/-- Goes on with `next`, unless `first` ends in a refusal. -/
def andThen (first next : Emission) : Emission :=
  match first.refusal with
  | some _ => first
  | none => ⟨first.pieces ++ next.pieces, next.refusal⟩

def concat (emissions : List Emission) : Emission :=
  emissions.foldr andThen {}

/-- All that is written before the end or the refusal. -/
def bytes (emission : Emission) : Bytes :=
  emission.pieces.flatten

variable {first next : Emission} {emissions : List Emission}

theorem bytes_write (piece : Bytes) : (write piece).bytes = piece := by
  simp [write, bytes]

theorem refusal_andThen (whole : first.refusal = none) :
    (first.andThen next).refusal = next.refusal := by
  simp only [andThen, whole]

theorem bytes_andThen (whole : first.refusal = none) :
    (first.andThen next).bytes = first.bytes ++ next.bytes := by
  simp only [andThen, whole, bytes, List.flatten_append]

theorem refusal_andThen_iff :
    (first.andThen next).refusal = none ↔ first.refusal = none ∧ next.refusal = none := by
  unfold andThen
  cases refused : first.refusal with
  | none => simp
  | some fault => simp [refused]

theorem refusal_concat_iff :
    (concat emissions).refusal = none ↔ ∀ emission ∈ emissions, emission.refusal = none := by
  induction emissions with
  | nil => simp [concat]
  | cons first rest ih =>
      rw [concat, List.foldr_cons, ← concat, refusal_andThen_iff, ih, List.forall_mem_cons]

theorem bytes_concat (whole : (concat emissions).refusal = none) :
    (concat emissions).bytes = (emissions.map bytes).flatten := by
  induction emissions with
  | nil => rfl
  | cons first rest ih =>
      rw [concat, List.foldr_cons, ← concat] at whole ⊢
      obtain ⟨here, later⟩ := refusal_andThen_iff.mp whole
      rw [bytes_andThen here, ih later, List.map_cons, List.flatten_cons]

def send [ByteSink κ] (emission : Emission) : EStateM Fault κ Unit := do
  emission.pieces.forM ByteSink.put
  match emission.refusal with
  | some fault => throw fault
  | none => pure ()

end Emission

/-- A sink that keeps what it was given, and may only have room for so much. -/
structure BoundedSink where
  written : Bytes := []
  room : Option Nat := none

namespace BoundedSink

def put (bytes : Bytes) : EStateM Fault BoundedSink Unit := fun sink =>
  match sink.room with
  | none => .ok () { sink with written := sink.written ++ bytes }
  | some room =>
      if bytes.length ≤ room then
        .ok () ⟨sink.written ++ bytes, some (room - bytes.length)⟩
      else .error .connectionFull ⟨sink.written ++ bytes.take room, some 0⟩

instance : ByteSink BoundedSink := ⟨put⟩

end BoundedSink

end TreeSync

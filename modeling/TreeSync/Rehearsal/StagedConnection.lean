import TreeSync.Connection.Readiness

namespace TreeSync

/-! A connection whose peer follows a plan.

What the peer sends is cut into stages. A stage arrives once all earlier ones have
and enough has been written to the peer, which is how a peer that answers is played.
-/

/-- Bytes that arrive once so many have been written. -/
structure Stage where
  after : Nat
  data : Bytes
deriving DecidableEq

/-- What becomes of the connection when all stages have arrived. -/
inductive ConnectionEnd where
  | stays
  | half
  | closes
deriving DecidableEq, Repr

structure StagedConnection where
  /-- What has arrived and is not read yet. -/
  arrived : Bytes := []
  stages : List Stage
  ending : ConnectionEnd := .half
  sink : BoundedSink := {}

namespace StagedConnection

/-- The bytes of the stages that arrive, and the stages left over. -/
def arrivals (written : Nat) : List Stage → Bytes × List Stage
  | [] => ([], [])
  | stage :: rest =>
      if stage.after ≤ written then
        let later := arrivals written rest
        (stage.data ++ later.1, later.2)
      else ([], stage :: rest)

def refresh (connection : StagedConnection) : StagedConnection :=
  let (due, stages) := arrivals connection.sink.written.length connection.stages
  { connection with arrived := connection.arrived ++ due, stages }

def start (stages : List Stage) (ending : ConnectionEnd) (room : Option Nat) :
    StagedConnection :=
  refresh { stages, ending, sink := { room } }

def volume : List Stage → Nat
  | [] => 0
  | stage :: rest => stage.data.length + volume rest

def budget (connection : StagedConnection) : Nat :=
  connection.arrived.length + volume connection.stages

theorem volume_arrivals (written : Nat) (stages : List Stage) :
    (arrivals written stages).1.length + volume (arrivals written stages).2 = volume stages := by
  induction stages with
  | nil => rfl
  | cons stage rest ih =>
      unfold arrivals
      split
      · simp only [volume, List.length_append]
        omega
      · simp [volume]

theorem budget_refresh (connection : StagedConnection) :
    budget connection.refresh = budget connection := by
  have same := volume_arrivals connection.sink.written.length connection.stages
  simp only [budget, refresh, List.length_append]
  omega

def complete (connection : StagedConnection) : Bool :=
  connection.stages.isEmpty

def read (limit : Nat) : EStateM Fault StagedConnection Bytes := fun connection =>
  if connection.arrived ≠ [] then
    .ok (connection.arrived.take limit)
      { connection with arrived := connection.arrived.drop limit }
  else if connection.complete && connection.ending ≠ .stays then .ok [] connection
  else .error (.system .wouldBlock) connection

instance : ByteSource StagedConnection where
  read := read
  budget := budget
  read_length {limit before after bytes} done := by
    unfold read at done
    split at done
    · cases done
      simp only [List.length_take]
      omega
    · split at done
      · cases done
        simp
      · cases done
  read_budget {limit before after bytes} done := by
    unfold read at done
    split at done
    · cases done
      simp only [budget, List.length_take, List.length_drop]
      omega
    · split at done
      · cases done
        simp
      · cases done
  fault_budget {limit before after fault} failed := by
    unfold read at failed
    split at failed
    · cases failed
    · split at failed
      · cases failed
      · cases failed
        have final : (Fault.system .wouldBlock).isInterrupted = false := rfl
        simp [final]

def put (bytes : Bytes) : EStateM Fault StagedConnection Unit := fun connection =>
  match BoundedSink.put bytes connection.sink with
  | .ok () sink => .ok () { connection with sink }.refresh
  | .error fault sink => .error fault { connection with sink }.refresh

def signals (connection : StagedConnection) : Signals where
  readable := connection.arrived ≠ [] || (connection.complete && connection.ending = .half)
  hungUp := connection.complete && connection.ending = .closes

theorem budget_put (bytes : Bytes) (before : StagedConnection) :
    budget (Action.stateAfter (put bytes) before) = budget before := by
  unfold Action.stateAfter put
  split <;> · next written =>
    split at written <;> cases written
    exact budget_refresh _

instance : Connection StagedConnection where
  put := put
  poll _ beside := fun connection =>
    .ok (connection.signals, beside.map Descriptor.signals) connection
  poll_budget _ _ _ := Nat.le_refl _
  put_budget bytes before := Nat.le_of_eq (budget_put bytes before)

end StagedConnection

end TreeSync

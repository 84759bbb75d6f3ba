namespace TreeSync

/-! The stages of a run and the two milestones that move it on.

Each milestone is accepted in one stage only, so a run passes the stages in order and
passes none twice.
-/

inductive Phase where
  /-- Requests and file content are interleaved. -/
  | collecting
  /-- The end was announced; the peer has to agree. -/
  | awaitingAck
  /-- Nothing but the totals and the farewell is left. -/
  | done
deriving DecidableEq, Repr

inductive Milestone where
  | downloadComplete
  | peerAcknowledged
deriving DecidableEq, Repr

/-- A milestone that was reported in a phase which does not accept it. -/
structure OutOfTurn where
  phase : Phase
  milestone : Milestone
deriving DecidableEq, Repr

def Phase.number : Phase → Nat
  | .collecting => 0
  | .awaitingAck => 1
  | .done => 2

def Milestone.name : Milestone → String
  | .downloadComplete => "DownloadComplete"
  | .peerAcknowledged => "PeerAcknowledged"

def OutOfTurn.message (refused : OutOfTurn) : String :=
  s!"{refused.milestone.name} is not valid in phase {refused.phase.number}"

def Phase.after (phase : Phase) (milestone : Milestone) : Except OutOfTurn Phase :=
  match phase, milestone with
  | .collecting, .downloadComplete => .ok .awaitingAck
  | .awaitingAck, .peerAcknowledged => .ok .done
  | _, _ => .error ⟨phase, milestone⟩

end TreeSync

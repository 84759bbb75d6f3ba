import TreeSync.Action
import TreeSync.Diagnostics.Journal
import TreeSync.Run.Failure
import TreeSync.Stream.Sink
import TreeSync.Stream.Source

namespace TreeSync

/-! Connections, and waiting for them to become readable.

A wait looks at the inbound side and, while one is armed, at a second descriptor.
Whatever else a descriptor signals, an error on it or the peer hanging up ends the
run.
-/

inductive Timeout where
  | immediate
  | indefinite
deriving DecidableEq, Repr

def Timeout.name : Timeout → String
  | .immediate => "Immediate"
  | .indefinite => "Indefinite"

/-- A wait may not block while requests can still be made; an uploader that armed a
descriptor is waiting itself. -/
def Timeout.choose (requestsPending secondaryArmed : Bool) : Timeout :=
  if requestsPending && !secondaryArmed then .immediate else .indefinite

structure Signals where
  readable : Bool := false
  hungUp : Bool := false
  failed : Bool := false
deriving DecidableEq

inductive Descriptor where
  | idle
  | data
  /-- The peer will send nothing more. -/
  | half
  | halfData
  /-- The peer is gone. -/
  | closed
  | closedData
  | broken
deriving DecidableEq, Repr

def Descriptor.signals : Descriptor → Signals
  | .idle => {}
  | .data | .half | .halfData => { readable := true }
  | .closed | .closedData => { readable := true, hungUp := true }
  | .broken => { failed := true }

/-- A two-way connection. A wait reports what the inbound side and the descriptor
beside it show; neither waiting nor writing brings more to read than was to come. -/
class Connection (κ : Type) extends ByteSource κ, ByteSink κ where
  poll : Timeout → Option Descriptor → EStateM Fault κ (Signals × Option Signals)
  poll_budget : ∀ (timeout : Timeout) (beside : Option Descriptor) (before : κ),
    ByteSource.budget (Action.stateAfter (poll timeout beside) before) ≤ ByteSource.budget before
  put_budget : ∀ (bytes : Bytes) (before : κ),
    ByteSource.budget (Action.stateAfter (ByteSink.put bytes) before) ≤ ByteSource.budget before

structure Readiness where
  inbound : Bool := false
  secondary : Bool := false
deriving DecidableEq, Repr

/-- Whether a descriptor is readable, unless it shows that the run is over. -/
def Signals.judge (signals : Signals) : Except Violation Bool :=
  if signals.failed then .error .badDescriptor
  else if signals.hungUp then .error .hangUp
  else .ok signals.readable

/-- Judges the inbound side first. -/
def Readiness.ofSignals (inbound : Signals) (secondary : Option Signals) :
    Except Violation Readiness := do
  let inbound ← inbound.judge
  match secondary with
  | none => return { inbound }
  | some signals => return { inbound, secondary := ← signals.judge }

def Journal.wakeUp (journal : Journal) (timeout : Timeout) (inbound : Signals)
    (secondary : Option Signals) : Except Failure (Readiness × Journal) :=
  match Readiness.ofSignals inbound secondary with
  | .error violation => .error (.protocol "poll" violation)
  | .ok readiness =>
      let message := s!"poll({timeout.name}): inbound={readiness.inbound} " ++
        s!"secondary={readiness.secondary}"
      .ok (readiness, journal.debug .waiting 2 message)

end TreeSync

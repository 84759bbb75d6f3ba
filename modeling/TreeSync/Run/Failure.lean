import TreeSync.Fault
import TreeSync.Run.Phase

namespace TreeSync

/-! What ends a run early, sorted by where it came from.

Every failure is final. It names the step that failed, so its message tells what
went wrong without more context.
-/

inductive Role where
  | uploader
  | downloader
deriving DecidableEq, Repr

def Role.name : Role → String
  | .uploader => "uploader"
  | .downloader => "downloader"

inductive Violation where
  /-- It sent something that cannot be read. -/
  | malformed (cause : Fault)
  | integrityValue (value : Int)
  | endedEarly (offered total : Nat)
  | endedWithinFile
  | badDescriptor
  | hangUp
  | outOfOrder (cause : OutOfTurn)
  | stated (message : String)
deriving DecidableEq

def Violation.message : Violation → String
  | .malformed cause => cause.message
  | .integrityValue value => s!"peer reported I/O error value {value}"
  | .endedEarly offered total =>
      s!"peer ended the phase after {offered} of {total} entries were offered"
  | .endedWithinFile => "peer ended the phase while a file was in progress"
  | .badDescriptor => "bad fd"
  | .hangUp => "hangup"
  | .outOfOrder cause => cause.message
  | .stated message => message

inductive Failure where
  | protocol (step : String) (violation : Violation)
  | transport (step : String) (cause : Fault)
  | filesystem (step : String) (path : Path) (cause : Fault)
  | ofRole (role : Role) (cause : Fault)
  /-- The roles went on for this many rounds without an end in sight. -/
  | stalled (rounds : Nat)
deriving DecidableEq

namespace Failure

/-- A failed read or write. Where it is the content that could not be understood,
the peer is to blame and not the connection. -/
def ofTransport (step : String) (cause : Fault) : Failure :=
  if cause.kind = .invalidData then .protocol step (.malformed cause) else .transport step cause

def step : Failure → String
  | .protocol step _ | .transport step _ | .filesystem step _ _ => step
  | .ofRole role _ => role.name
  | .stalled _ => "phase 1"

def message : Failure → String
  | .protocol step violation => s!"protocol error during {step}: " ++ violation.message
  | .transport step cause => s!"transport error during {step}: " ++ cause.message
  | .filesystem step path cause =>
      s!"filesystem error during {step} on " ++ path.display ++ ": " ++ cause.message
  | .ofRole role cause => s!"{role.name} failed: " ++ cause.message
  | .stalled rounds => s!"no end in sight after {rounds} rounds"

/-- The fault underneath; a violation is none. -/
def cause? : Failure → Option Fault
  | .protocol _ _ | .stalled _ => none
  | .transport _ cause | .filesystem _ _ cause | .ofRole _ cause => some cause

end Failure

end TreeSync

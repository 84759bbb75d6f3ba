import TreeSync.Action
import TreeSync.Diagnostics.Journal
import TreeSync.Fault
import TreeSync.Run.Options

namespace TreeSync

/-! Giving up what a run does not need.

A run restricts itself before it does anything else, and confines itself to the
destination before it receives content.
-/

structure Confining (ς : Type) where
  sandbox : ς
  journal : Journal

class Sandbox (ς : Type) where
  restrict : Capabilities → EStateM Fault (Confining ς) Unit
  confine : Path → EStateM Fault (Confining ς) Unit

def Capabilities.describe (capabilities : Capabilities) : String :=
  s!"CapabilityMode \x7b create: {capabilities.create}, write: {capabilities.write}, " ++
    s!"set_attributes: {capabilities.setAttributes}, unlink: {capabilities.unlink} \x7d"

/-- A sandbox that can be restricted once and confined after that. It keeps what it
was told; that a run stays within it is up to the run. -/
structure StrictSandbox where
  capabilities : Option Capabilities := none
  root : Option Path := none
deriving DecidableEq

namespace StrictSandbox

def restrict (capabilities : Capabilities) : EStateM Fault (Confining StrictSandbox) Unit := do
  if (← get).sandbox.capabilities.isSome then throw .alreadyRestricted
  modify fun confining =>
    let message := "restricted capabilities: " ++ capabilities.describe
    { sandbox := { confining.sandbox with capabilities := some capabilities }
      journal := confining.journal.debug .protocol 1 message }

def confine (root : Path) : EStateM Fault (Confining StrictSandbox) Unit := do
  if (← get).sandbox.capabilities.isNone then throw .confinedTooEarly
  modify fun confining =>
    { sandbox := { confining.sandbox with root := some root }
      journal := confining.journal.debug .protocol 1 ("confined to " ++ root.display) }

instance : Sandbox StrictSandbox := ⟨restrict, confine⟩

end StrictSandbox

end TreeSync

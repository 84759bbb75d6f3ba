import TreeSync.Diagnostics.Verbosity

namespace TreeSync

/-! The journal of a run: what was reported, under the verbosity in force.

Info and debug entries are gated by the level of their flag; a warning is kept at
every verbosity.
-/

inductive Event where
  | info (flag : InfoFlag) (level : UInt8) (message : String)
  | debug (flag : DebugFlag) (level : UInt8) (message : String)
  | warning (message : String)
deriving DecidableEq, Repr

def Event.severity : Event → Severity
  | .info .. => .info
  | .debug .. => .debug
  | .warning _ => .warning

/-- The verbosity in force and the reports kept so far, oldest first. -/
structure Journal where
  verbosity : Verbosity := {}
  events : List Event := []

instance : Inhabited Journal := ⟨{}⟩

namespace Journal

def keep (journal : Journal) (event : Event) : Journal :=
  { journal with events := journal.events ++ [event] }

def showsInfo (journal : Journal) (flag : InfoFlag) (level : UInt8) : Bool :=
  level ≤ journal.verbosity.info flag

def showsDebug (journal : Journal) (flag : DebugFlag) (level : UInt8) : Bool :=
  level ≤ journal.verbosity.debug flag

def info (journal : Journal) (flag : InfoFlag) (level : UInt8) (message : String) : Journal :=
  if journal.showsInfo flag level then journal.keep (.info flag level message) else journal

def debug (journal : Journal) (flag : DebugFlag) (level : UInt8) (message : String) : Journal :=
  if journal.showsDebug flag level then journal.keep (.debug flag level message) else journal

def warn (journal : Journal) (message : String) : Journal :=
  journal.keep (.warning message)

def drain (journal : Journal) : List Event × Journal :=
  (journal.events, { journal with events := [] })

end Journal

end TreeSync

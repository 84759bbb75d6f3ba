import TreeSync.Action
import TreeSync.Diagnostics.Journal
import TreeSync.Disk.Calls

namespace TreeSync

/-- The disk that is worked on, and the journal kept about it. -/
structure Host where
  disk : Disk
  journal : Journal := {}

namespace Host

variable {ε α : Type}

def onDisk (step : EStateM ε Disk α) : EStateM ε Host α :=
  Action.within Host.disk (fun disk host => { host with disk }) step

def info (flag : InfoFlag) (level : UInt8) (message : String) : EStateM ε Host Unit :=
  modify fun host => { host with journal := host.journal.info flag level message }

def debug (flag : DebugFlag) (level : UInt8) (message : String) : EStateM ε Host Unit :=
  modify fun host => { host with journal := host.journal.debug flag level message }

end Host

end TreeSync

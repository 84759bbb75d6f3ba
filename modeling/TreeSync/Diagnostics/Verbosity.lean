namespace TreeSync

/-! How much each diagnostic category reports.

A category is an info flag (for the user) or a debug flag (for a developer) and
has a level; an entry appears when its category is configured at or above the
entry's own level.
-/

inductive InfoFlag where
  | deletion
  | fileList
  /-- Progress through the stages of a run. -/
  | misc
  | name
  /-- Entries skipped for their kind. -/
  | nonRegular
  | progress
  | stats
deriving DecidableEq, Repr

inductive DebugFlag where
  | deletion
  | fileList
  | requests
  | waiting
  /-- Phases and sentinels. -/
  | protocol
  /-- Steps of the downloader and of the directory fixup. -/
  | reception
  | time
deriving DecidableEq, Repr

/-- The word that names the flag on a command line. -/
def InfoFlag.token : InfoFlag → String
  | .deletion => "del"
  | .fileList => "flist"
  | .misc => "misc"
  | .name => "name"
  | .nonRegular => "nonreg"
  | .progress => "progress"
  | .stats => "stats"

def InfoFlag.all : List InfoFlag :=
  [.deletion, .fileList, .misc, .name, .nonRegular, .progress, .stats]

theorem InfoFlag.mem_all (flag : InfoFlag) : flag ∈ InfoFlag.all := by
  cases flag <;> decide

def DebugFlag.token : DebugFlag → String
  | .deletion => "del"
  | .fileList => "flist"
  | .requests => "genr"
  | .waiting => "io"
  | .protocol => "proto"
  | .reception => "recv"
  | .time => "time"

def DebugFlag.all : List DebugFlag :=
  [.deletion, .fileList, .requests, .waiting, .protocol, .reception, .time]

theorem DebugFlag.mem_all (flag : DebugFlag) : flag ∈ DebugFlag.all := by
  cases flag <;> decide

/-- A level for every flag; zero switches a category off. -/
structure Verbosity where
  info : InfoFlag → UInt8 := fun _ => 0
  debug : DebugFlag → UInt8 := fun _ => 0

instance : Inhabited Verbosity := ⟨{}⟩

/-- What a report is worth, from the most to the least important. -/
inductive Severity where
  | warning
  | info
  | debug
deriving DecidableEq, Repr

def Severity.rank : Severity → Nat
  | .warning => 0
  | .info => 1
  | .debug => 2

/-- A filter set to a severity lets through what is at least as important. -/
def Severity.admits (threshold reported : Severity) : Bool :=
  reported.rank ≤ threshold.rank

namespace Verbosity

def setInfo (verbosity : Verbosity) (flag : InfoFlag) (level : UInt8) : Verbosity :=
  { verbosity with info := fun other => if other = flag then level else verbosity.info other }

def setDebug (verbosity : Verbosity) (flag : DebugFlag) (level : UInt8) : Verbosity :=
  { verbosity with debug := fun other => if other = flag then level else verbosity.debug other }

/-- The levels that a count of verbosity switches selects. The first switch shows
the summary lines, the second the stages of a run, the later ones open up the
debug categories. -/
def ofCount (count : UInt8) : Verbosity where
  info
    | .nonRegular => 1
    | .deletion | .fileList | .stats => if 1 ≤ count then 1 else 0
    | .misc | .name => if 2 ≤ count then 2 else if 1 ≤ count then 1 else 0
    | .progress => 0
  debug flag :=
    if 5 ≤ count then 4
    else
      match flag with
      | .deletion | .fileList => if 3 ≤ count then 2 else if 2 ≤ count then 1 else 0
      | .requests | .reception | .time | .protocol =>
          if 4 ≤ count then 2 else if 3 ≤ count then 1 else 0
      | .waiting => if 4 ≤ count then 1 else 0

/-- The highest info level that counts toward the filter. That of skipped entries is
not looked at. -/
def highestInfo (verbosity : Verbosity) : UInt8 :=
  ((InfoFlag.all.filter (· ≠ .nonRegular)).map verbosity.info).foldl max 0

def highestDebug (verbosity : Verbosity) : UInt8 :=
  (DebugFlag.all.map verbosity.debug).foldl max 0

/-- The highest level in use; an enabled debug flag counts for at least two. -/
def maxLevel (verbosity : Verbosity) : UInt8 :=
  if 0 < verbosity.highestDebug then max verbosity.highestInfo 2 else verbosity.highestInfo

/-- The coarsest filter meant to let every enabled report through. -/
def threshold (verbosity : Verbosity) : Severity :=
  match verbosity.maxLevel with
  | 0 => .warning
  | 1 => .info
  | _ => .debug

end Verbosity

end TreeSync

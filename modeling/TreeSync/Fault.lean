import TreeSync.Message.Header
import TreeSync.FileList.Entry
import TreeSync.Text.Quoted

namespace TreeSync

/-! Everything that can go wrong below a run, as causes.

`Fault.kind` sorts the causes and `Fault.message` words them; both are total, so
what a failure says is settled here and nowhere else.
-/

inductive FaultKind where
  | notFound
  | permissionDenied
  | connectionRefused
  | connectionReset
  | brokenPipe
  | alreadyExists
  | wouldBlock
  | invalidInput
  | invalidData
  | timedOut
  | writeZero
  | interrupted
  | unsupported
  | unexpectedEof
  | outOfMemory
  | resourceBusy
  | notADirectory
  | isADirectory
  | directoryNotEmpty
  | storageFull
  | invalidFilename
  | filesystemLoop
  | inputOutput
  | uncategorized
  | other
deriving DecidableEq, Repr

def FaultKind.message : FaultKind → String
  | .notFound => "entity not found"
  | .permissionDenied => "permission denied"
  | .connectionRefused => "connection refused"
  | .connectionReset => "connection reset"
  | .brokenPipe => "broken pipe"
  | .alreadyExists => "entity already exists"
  | .wouldBlock => "operation would block"
  | .invalidInput => "invalid input parameter"
  | .invalidData => "invalid data"
  | .timedOut => "timed out"
  | .writeZero => "write zero"
  | .interrupted => "operation interrupted"
  | .unsupported => "unsupported"
  | .unexpectedEof => "unexpected end of file"
  | .outOfMemory => "out of memory"
  | .resourceBusy => "resource busy"
  | .notADirectory => "not a directory"
  | .isADirectory => "is a directory"
  | .directoryNotEmpty => "directory not empty"
  | .storageFull => "no storage space"
  | .invalidFilename => "invalid filename"
  | .filesystemLoop => "filesystem loop or indirection limit (e.g. symlink loop)"
  | .inputOutput => "input/output error"
  | .uncategorized => "uncategorized error"
  | .other => "other error"

inductive Errno where
  | notPermitted
  | noEntry
  | interrupted
  | inputOutput
  | wouldBlock
  | outOfMemory
  | noAccess
  | busy
  | exists
  | notDirectory
  | isDirectory
  | invalid
  | noSpace
  | brokenPipe
  | nameTooLong
  | notEmpty
  | loop
  | connectionReset
  | timedOut
  | connectionRefused
  | unlisted (code : Nat)
deriving DecidableEq, Repr

namespace Errno

def code : Errno → Nat
  | .notPermitted => 1
  | .noEntry => 2
  | .interrupted => 4
  | .inputOutput => 5
  | .wouldBlock => 11
  | .outOfMemory => 12
  | .noAccess => 13
  | .busy => 16
  | .exists => 17
  | .notDirectory => 20
  | .isDirectory => 21
  | .invalid => 22
  | .noSpace => 28
  | .brokenPipe => 32
  | .nameTooLong => 36
  | .notEmpty => 39
  | .loop => 40
  | .connectionReset => 104
  | .timedOut => 110
  | .connectionRefused => 111
  | .unlisted code => code

def text : Errno → String
  | .notPermitted => "Operation not permitted"
  | .noEntry => "No such file or directory"
  | .interrupted => "Interrupted system call"
  | .inputOutput => "Input/output error"
  | .wouldBlock => "Resource temporarily unavailable"
  | .outOfMemory => "Cannot allocate memory"
  | .noAccess => "Permission denied"
  | .busy => "Device or resource busy"
  | .exists => "File exists"
  | .notDirectory => "Not a directory"
  | .isDirectory => "Is a directory"
  | .invalid => "Invalid argument"
  | .noSpace => "No space left on device"
  | .brokenPipe => "Broken pipe"
  | .nameTooLong => "File name too long"
  | .notEmpty => "Directory not empty"
  | .loop => "Too many levels of symbolic links"
  | .connectionReset => "Connection reset by peer"
  | .timedOut => "Connection timed out"
  | .connectionRefused => "Connection refused"
  | .unlisted code => s!"Unknown error {code}"

def kind : Errno → FaultKind
  | .notPermitted | .noAccess => .permissionDenied
  | .noEntry => .notFound
  | .interrupted => .interrupted
  | .inputOutput => .inputOutput
  | .wouldBlock => .wouldBlock
  | .outOfMemory => .outOfMemory
  | .busy => .resourceBusy
  | .exists => .alreadyExists
  | .notDirectory => .notADirectory
  | .isDirectory => .isADirectory
  | .invalid => .invalidInput
  | .noSpace => .storageFull
  | .brokenPipe => .brokenPipe
  | .nameTooLong => .invalidFilename
  | .notEmpty => .directoryNotEmpty
  | .loop => .filesystemLoop
  | .connectionReset => .connectionReset
  | .timedOut => .timedOut
  | .connectionRefused => .connectionRefused
  | .unlisted _ => .uncategorized

def listed : List Errno :=
  [.notPermitted, .noEntry, .interrupted, .inputOutput, .wouldBlock, .outOfMemory, .noAccess,
    .busy, .exists, .notDirectory, .isDirectory, .invalid, .noSpace, .brokenPipe, .nameTooLong,
    .notEmpty, .loop, .connectionReset, .timedOut, .connectionRefused]

def ofCode (code : Nat) : Errno :=
  (listed.find? (·.code = code)).getD (.unlisted code)

end Errno

inductive Fault where
  | system (errno : Errno)
  /-- A failure of which only the sort is known. -/
  | bare (kind : FaultKind)
  /-- A failure reported in its own words by a part that is plugged in. -/
  | reported (kind : FaultKind) (text : String)
  | endOfStream
  | connectionFull
  | nulInPath
  -- messages
  | header (cause : HeaderFault)
  | oversizedMessage (length : Nat)
  | headerCut (filled : Nat)
  | payloadCut (outstanding : Nat)
  | closedBetweenMessages
  -- values on the wire
  | refusedName (cause : NameFault)
  | unencodableName (length : Nat)
  | negativeSize (what : String) (value : Int)
  | unencodableStatistic (value : Nat)
  | unexpectedIndex (context : String) (index : Int)
  -- paths beneath the root
  | leavesRoot (path : Path)
  | beneath (path : Path) (cause : Fault)
  | rootNotOpen
  | namesExhausted (attempts : Nat) (template : Path)
  -- the uploader
  | destinationIsDirectory (path : Path)
  | destinationNotDirectory (path : Path)
  | indexOverflow
  -- the downloader
  | indexOutOfRange (index : Int)
  | dataForIrregular (path : Path)
  | blocksWithoutBasis (path : Path) (count : Int)
  | wrongSize (path : Path) (received expected : Nat)
  | blockReference (token : Int)
  | literalTooLong (token : Int)
  | literalCut (copied announced : Nat)
  -- the parts around a run
  | secondaryArmed
  | alreadyRestricted
  | confinedTooEarly
deriving DecidableEq

def NameFault.message : NameFault → String
  | .negativeLength length => s!"invalid file name length {length}"
  | .tooLong length => s!"file name length {length} exceeds maximum {maxNameLength}"
  | .absolute path => "refusing absolute path " ++ Quoted.quote path.bytes
  | .parentComponent path =>
      "refusing path with parent directory component " ++ Quoted.quote path.bytes
  | .malformed path => "refusing malformed path " ++ Quoted.quote path.bytes

namespace Fault

def kind : Fault → FaultKind
  | .system errno => errno.kind
  | .bare kind | .reported kind _ => kind
  | .endOfStream | .headerCut _ | .payloadCut _ | .closedBetweenMessages | .literalCut _ _ =>
      .unexpectedEof
  | .connectionFull => .writeZero
  | .nulInPath | .oversizedMessage _ | .unencodableName _ | .unencodableStatistic _
  | .leavesRoot _ | .indexOverflow => .invalidInput
  | .header _ | .refusedName _ | .negativeSize _ _ | .unexpectedIndex _ _ | .indexOutOfRange _
  | .dataForIrregular _ | .blocksWithoutBasis _ _ | .wrongSize _ _ _ | .blockReference _
  | .literalTooLong _ => .invalidData
  | .beneath _ cause => cause.kind
  | .rootNotOpen => .other
  | .namesExhausted _ _ | .destinationIsDirectory _ | .destinationNotDirectory _ =>
      .alreadyExists
  | .secondaryArmed => .resourceBusy
  | .alreadyRestricted | .confinedTooEarly => .permissionDenied

def message : Fault → String
  | .system errno => s!"{errno.text} (os error {errno.code})"
  | .bare kind => kind.message
  | .reported _ text => text
  | .endOfStream => "failed to fill whole buffer"
  | .connectionFull => "failed to write whole buffer"
  | .nulInPath => "file name contained an unexpected NUL byte"
  | .header cause => cause.message
  | .oversizedMessage length =>
      if length < 0x100000000 then (HeaderFault.oversized length).message
      else s!"multiplexed payload length {length} too large"
  | .headerCut filled => s!"multiplexed header truncated after {filled} bytes"
  | .payloadCut outstanding => s!"multiplexed payload truncated: {outstanding} bytes outstanding"
  | .closedBetweenMessages => "peer closed the stream between frames"
  | .refusedName cause => cause.message
  | .unencodableName length => s!"cannot encode file name of length {length}"
  | .negativeSize what value => s!"negative {what} on the wire: {value}"
  | .unencodableStatistic value => s!"statistic {value} does not fit a longint"
  | .unexpectedIndex context index => s!"expected NDX_DONE (-1) during {context}, got {index}"
  | .leavesRoot path => path.display ++ ": path leaves the destination root"
  | .beneath path cause => path.display ++ ": " ++ cause.message
  | .rootNotOpen => "destination root is not open"
  | .namesExhausted attempts template =>
      s!"failed to create temp file after {attempts} attempts: " ++ template.display
  | .destinationIsDirectory path => path.display ++ ": destination is a directory"
  | .destinationNotDirectory path => path.display ++ ": destination is not a directory"
  | .indexOverflow => "file index overflow"
  | .indexOutOfRange index => s!"file index {index} out of range"
  | .dataForIrregular path => "data sent for non-regular file " ++ path.display
  | .blocksWithoutBasis path count =>
      path.display ++ s!": peer announced {count} blocks without a basis"
  | .wrongSize path received expected =>
      path.display ++ s!": received {received} bytes, expected {expected}"
  | .blockReference token => s!"block reference {token} without a basis file"
  | .literalTooLong token => s!"literal token of {token} bytes"
  | .literalCut copied announced => s!"literal data truncated: {copied} of {announced} bytes"
  | .secondaryArmed => "secondary descriptor already armed"
  | .alreadyRestricted => "capabilities already restricted"
  | .confinedTooEarly => "confinement requested before capability restriction"

/-- Whether the operation that failed may simply be tried again. -/
def isInterrupted (fault : Fault) : Bool :=
  fault.kind = .interrupted

end Fault

end TreeSync

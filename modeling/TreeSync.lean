import TreeSync.Diagnostics.Record
import TreeSync.Disk.Listing
import TreeSync.Rehearsal.Recorders
import TreeSync.Rehearsal.ScriptedRoles
import TreeSync.Rehearsal.StagedConnection
import TreeSync.Run.Receive
import TreeSync.Transfer.FileCollector
import TreeSync.Proofs.Following
import TreeSync.Proofs.Concurring
import TreeSync.Proofs.Path.Spelling
import TreeSync.Proofs.Disk.Wayfinding
import TreeSync.Proofs.Disk.Reaching
import TreeSync.Proofs.Destination.Pruned
import TreeSync.Proofs.Destination.Rooting
import TreeSync.Proofs.Destination.Fixed
import TreeSync.Proofs.Destination.Unheard
import TreeSync.Proofs.Destination.Planned
import TreeSync.Proofs.Stream.Sending
import TreeSync.Proofs.Stream.Decoding
import TreeSync.Proofs.Message.Framing
import TreeSync.Proofs.Message.Transparency
import TreeSync.Proofs.Message.Reading
import TreeSync.Proofs.Message.Conversing
import TreeSync.Proofs.Message.Parsing
import TreeSync.Proofs.Message.Ending
import TreeSync.Proofs.Message.Bounded
import TreeSync.Proofs.Message.Truncation
import TreeSync.Proofs.Message.Alignment
import TreeSync.Proofs.Message.Ahead
import TreeSync.Proofs.FileList.RoundTrip
import TreeSync.Proofs.FileList.Acceptance
import TreeSync.Proofs.FileList.Objection
import TreeSync.Proofs.FileList.Incomplete
import TreeSync.Proofs.Transfer.Asking
import TreeSync.Proofs.Transfer.Overlay
import TreeSync.Proofs.Transfer.Shadowing
import TreeSync.Proofs.Transfer.Alone
import TreeSync.Proofs.Transfer.DryRun
import TreeSync.Proofs.Transfer.Surveyed
import TreeSync.Proofs.Transfer.Fetching
import TreeSync.Proofs.Run.OutsideRoot
import TreeSync.Proofs.Run.Ledger
import TreeSync.Proofs.Run.Atomicity
import TreeSync.Proofs.Run.Clearing
import TreeSync.Proofs.Run.Completeness
import TreeSync.Proofs.Run.Capabilities
import TreeSync.Proofs.Run.Replacing
import TreeSync.Proofs.Run.Upkeep
import TreeSync.Proofs.Run.Rounds
import TreeSync.Proofs.Run.EventLoop
import TreeSync.Proofs.Run.Grammar
import TreeSync.Proofs.Run.Causes
import TreeSync.Proofs.Run.Termination
import TreeSync.Proofs.Run.Distrust
import TreeSync.Proofs.Run.DryRun
import TreeSync.Proofs.Run.Peer
import TreeSync.Proofs.Run.Unfolding
import TreeSync.Proofs.Run.Fulfilling
import TreeSync.Proofs.Run.Abreast
import TreeSync.Proofs.Run.Determinacy
import TreeSync.Proofs.Disk.Showing
import TreeSync.Proofs.Transfer.Passing
import TreeSync.Proofs.Transfer.Checking
import TreeSync.Proofs.Run.Arrival
import TreeSync.Proofs.Destination.Settled
import TreeSync.Proofs.Destination.Revisited
import TreeSync.Proofs.Run.Satisfying
import TreeSync.Proofs.Message.Concluding
import TreeSync.Proofs.Run.Resting
import TreeSync.Proofs.Run.Revisiting
import TreeSync.Proofs.Disk.Diverting
import TreeSync.Proofs.Run.Undiverted
import TreeSync.Proofs.Run.Convergence
import TreeSync.Proofs.Run.Reporting
import TreeSync.Proofs.Disk.Ordering
import TreeSync.Proofs.Destination.Inventory
import TreeSync.Proofs.Destination.Owing
import TreeSync.Proofs.Transfer.Marking
import TreeSync.Proofs.Run.Settling
import TreeSync.Proofs.Diagnostics.Filtering
import TreeSync.Proofs.Text.Mending
import TreeSync.Proofs.Path.Parting
import TreeSync.Proofs.Disk.Neighbouring
import TreeSync.Proofs.Disk.Coinciding
import TreeSync.Proofs.Text.Slicing
import TreeSync.Proofs.Disk.Shaping
import TreeSync.Proofs.Diagnostics.Tokens
import TreeSync.Proofs.Stream.Longs
import TreeSync.Proofs.Message.Splitting

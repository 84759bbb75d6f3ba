import TreeSync.Proofs.Run.Rehearsed
import TreeSync.Proofs.Run.Revisiting
import TreeSync.Proofs.Run.Satisfying

namespace TreeSync

/-! Running again.

A run that keeps times and gets what it asks for leaves nothing to do for a later one that hears
the same list. All that may still come between is the path of the root: it may lead nowhere once
the root was cleared, and what is beneath the root may be out of its reach.
-/

open TreeSync.Action TreeSync.Destination TreeSync.Speech

/-- Whether the path of the root opens, and all that a run may have to remove is within its
reach. -/
def Options.Reopens (options : Options) (path : Path) (disk : Disk) : Prop :=
  ∃ root, disk.tree.resolveDirectory disk.workingDirectory path = .ok root ∧
    (options.deletes = true → ¬ disk.tree.EndsInLink disk.workingDirectory path →
      ∀ place, root <:+ place → place ≠ root → disk.tree.get? place ≠ none →
        ¬ TooDeep path root place)

/-- Whether a peer only ends the run from here on. -/
def Options.Ends {κ : Type} [Connection κ] (options : Options) (heard : Inflow κ) : Prop :=
  ∃ totals : Totals, totals.send.refusal = none ∧
    Inflow.Concluding (if options.server then [] else totals.send.bytes) heard

theorem Speech.word_ended (options : Options) (marks : Nat) :
    bytes (word options [] marks) =
      bytes (greeting options) ++
        (List.replicate marks (Wire.intBytes Wire.doneIndex)).flatten := by
  rw [word, List.flatMap_nil, List.append_nil, bytes_append]
  refine congrArg _ ?_
  rw [bytes, List.flatMap_def, List.map_replicate]

namespace Running

variable {κ κ' ς : Type} [Connection κ] [Connection κ'] [Sandbox ς] {options : Options}
  {path : Path} {root : Location} {files : List ListEntry} {removals : Removals}
  {before after disk again : Disk}

omit [Sandbox ς] in
/-- What a run leaves is in order, as long as its path opens. -/
theorem Leaves.fulfilled (leaves : Leaves options path files root before removals after)
    (leads : before.tree.resolveDirectory before.workingDirectory path = .ok root)
    (tree : again.tree = after.tree) (home : again.workingDirectory = after.workingDirectory)
    (reopens : options.Reopens path again) : options.Fulfilled files path root again := by
  obtain ⟨root', opens, fits⟩ := reopens
  have start : again.workingDirectory = before.workingDirectory := home.trans leaves.home
  have opens' := opens
  rw [tree, start] at opens'
  obtain rfl := leaves.undiverted.resolveDirectory leads opens'
  refine ⟨opens, tree ▸ leaves.satisfied, fun deletes real place beneath inner there => ?_⟩
  refine ⟨fits deletes real place beneath inner there, ?_⟩
  rw [tree] at there real
  refine (leaves.clears deletes).listed (fun linked => real ?_) place beneath inner there
  rw [start]
  exact leaves.undiverted.endsInLink opens' linked

/-- A peer that is greeted and sends a list, sends a file if it is asked for one, and ends the
run. -/
def mirrorPeer (options : Options) (files : List ListEntry) (reply : Bytes) : StagedConnection :=
  let greeted := (bytes (greeting options)).length
  let asked := if reply = [] then greeted else greeted + (bytes (ask options.checksum 0)).length
  let farewell := if options.server then [] else (⟨0, 0, 0⟩ : Totals).send.bytes
  .start (⟨greeted, (FileList.write files).bytes ++ Wire.intBytes 0⟩ :: ⟨asked, reply⟩ ::
    StagedConnection.closing asked farewell) .half none

def mirror (options : Options) (files : List ListEntry) (reply : Bytes) (tree : Tree) :
    Running FileRequester FileCollector StrictSandbox StagedConnection :=
  .start (.wholeFiles options {} 0) (mirrorPeer options files reply) { tree }

/-- A client that removes what the list does not name. -/
def mirrorOptions : Options :=
  { recursive := true, delete := true, preserveTimes := true }

/-- A file and a directory. -/
def mirrorFiles : List ListEntry :=
  [⟨⟨[97]⟩, 0o100644, 7, 1⟩, ⟨⟨[100]⟩, 0o40755, 7, 0⟩]

/-- All of the file. -/
def mirrorReply : Bytes :=
  Reply.bytes ⟨0, 0, 2, 0, [[120]]⟩

/-- A directory with a file that the list does not name. -/
def mirrorTree : Tree :=
  (Tree.empty.set [] (.directory ⟨0o755, 0⟩)).set [[111]] (.file ⟨0o644, 0⟩ [])

theorem mirror_spares (disk : Disk) (drawn : disk.entropy = fun _ => .replicate 6 0) :
    disk.Spares mirrorFiles := by
  have free : ∀ entry ∈ mirrorFiles, ∀ other ∈ mirrorFiles,
      Temporary.nameFor entry.path.bytes (.replicate 6 0) ≠ other.path.bytes := by
    decide +kernel
  have plain (entry : ListEntry) (listed : entry ∈ mirrorFiles) (root : Location) :
      entry.path.placeBeneath root = some (entry.path.bytes :: root) := by
    simp only [mirrorFiles, List.mem_cons, List.not_mem_nil, or_false] at listed
    rcases listed with rfl | rfl <;> rfl
  exact @Disk.spares_of_names disk _ plain fun _ => drawn ▸ free

/-- What is heard of the peer, and how it goes on from there. -/
theorem mirror_hears (reply : Bytes) (either : reply = [] ∨ reply = mirrorReply) :
    ∃ source confined heard,
      Hears mirrorOptions ({} : StrictSandbox) (mirrorPeer mirrorOptions mirrorFiles reply) source
        confined mirrorFiles heard ∧
      (∀ journal, ∃ after, Sandbox.confine ⟨selfName⟩
        (⟨confined.sandbox, journal⟩ : Confining StrictSandbox) = .ok () after) ∧
      (reply = [] → mirrorOptions.Ends heard) := by
  let listening := awaiting mirrorOptions
    (stateAfter (preamble mirrorOptions).send (mirrorPeer mirrorOptions mirrorFiles reply))
    (stateAfter (Sandbox.restrict mirrorOptions.capabilities)
      (⟨{}, { verbosity := mirrorOptions.reporting }⟩ : Confining StrictSandbox)).journal
  have lists : endsIn (FileList.readWhole listening) (fun whole heard =>
      decide (whole = (mirrorFiles, 0) ∧ (reply = [] →
        heard.multiplexed = false ∧ heard.source.sink.room = none ∧ heard.source.ending = .half ∧
        heard.source.arrived = [] ∧ heard.source.stages = StagedConnection.closing
          heard.source.sink.written.length (Totals.send ⟨0, 0, 0⟩).bytes))) = true := by
    rcases either with rfl | rfl <;> decide +kernel
  obtain ⟨whole, heard, listed, seen⟩ := of_endsIn lists
  obtain ⟨rfl, goesOn⟩ := of_decide_eq_true seen
  refine ⟨_, _, heard, ⟨rfl, rfl, listed⟩, fun _ => ⟨_, rfl⟩, fun nothing => ?_⟩
  obtain ⟨plain, roomy, half, arrived, stages⟩ := goesOn nothing
  exact ⟨⟨0, 0, 0⟩, rfl, StagedConnection.concluding ⟨plain, roomy, half, arrived, rfl, stages⟩⟩

def sweepOptions : Options :=
  { mirrorOptions with server := true }

/-- A directory that holds another. -/
def innerTree : Tree :=
  ((Tree.empty.set [] (.directory ⟨0o755, 0⟩)).set [[100]] (.directory ⟨0o755, 0⟩)).set
    [[115], [100]] (.directory ⟨0o755, 0⟩)

/-- A path of the outer one that leads through the inner one. -/
def detour : Path :=
  ⟨asciiBytes "d/s/.."⟩

/-- A path of it with two bytes left to the limit. -/
def roundabout : Path :=
  ⟨(List.replicate 2046 [46, 47]).flatten ++ [100]⟩

/-- A list that names the temporary file for its first entry, as it looks while it is empty. -/
def crossedFiles : List ListEntry :=
  [⟨⟨[97]⟩, 0o100644, 7, 0⟩, ⟨⟨[98]⟩, 0o120777, 7, 0⟩, ⟨⟨asciiBytes ".a.AAAAAA"⟩, 0o100644, 0, 0⟩]

def emptyReply : Bytes :=
  Reply.bytes ⟨0, 0, 2, 0, []⟩

def lastingOptions : Options :=
  { sweepOptions with delete := false }

def directoryOnly : List ListEntry :=
  [⟨⟨[100]⟩, 0o40755, 7, 0⟩]

/-- A disk whose system lets nothing be done to what is held open. -/
def refusing (tree : Tree) : Disk :=
  { tree, refusals := fun _ _ => some { errno := .notPermitted } }

end Running

end TreeSync

import TreeSync.Proofs.Run.Rounds
import TreeSync.Proofs.Run.Upkeep
import TreeSync.Rehearsal.ScriptedRoles
import TreeSync.Rehearsal.StagedConnection

namespace TreeSync

/-! The contract of the event loop, for a whole run with any two roles.

Whatever the roles do, the calls that a run makes of them keep to the rules, round by
round, and the run goes on to its end only from a round that saw the downloader complete.
-/

open TreeSync.Action

namespace Running

variable {υ δ γ ς κ : Type} [Connection κ] [Uploader υ] [Downloader δ γ] [Sandbox ς]

/-- How a run ends, told by the rounds of its exchange. -/
inductive Ends (root : Path) (start : Running υ δ ς κ) (rounds : List Round) : Prop
  /-- It came to no exchange. -/
  | early (nothing : rounds = [])
      (stopped : ∀ task ready, readying root start ≠ .ok (some task) ready)
      (skipped : ∀ outcome after, run root start = .ok outcome after → outcome.skippedEmpty = true)
  /-- The exchange failed, and the run with it: nothing more was done. -/
  | failed {task : Task} {ready : Running υ δ ς κ} {limit : Nat} {failure : Failure}
      {last : Exchange υ δ γ κ} (readied : readying root start = .ok (some task) ready)
      (broke : Exchange.Broken task (beginExchange task.files.length ready) limit limit failure
        rounds last)
      (ran : run root start = .error failure
        ((endExchange (Exchange.abandonPending last) ready).withUmask start.disk.umask))
  /-- The exchange ended as it should, and only then the end was announced. -/
  | finished {task : Task} {ready : Running υ δ ς κ} {removals : Removals}
      {last : Exchange υ δ γ κ} (readied : readying root start = .ok (some task) ready)
      (gone : Exchange.Finished task (beginExchange task.files.length ready) rounds last)
      (ran : run root start = ensuring
        (conclude root task.root task.files removals .awaitingAck last.newDirectories)
        (withUmask start.disk.umask) (endExchange last ready))
      (done : ∀ outcome after, run root start = .ok outcome after → outcome.phase = .done)

omit [Sandbox ς] in
/-- Where the whole exchange of a run ends, and in which rounds. -/
theorem exchange_gone (task : Task) (ready : Running υ δ ς κ) :
    Meets (exchange task) ready
      (fun result after => ∃ rounds last,
        Exchange.Finished task (beginExchange task.files.length ready) rounds last ∧
        result = (.awaitingAck, last.newDirectories) ∧ after = endExchange last ready)
      (fun failure after => ∃ limit rounds last,
        Exchange.Broken task (beginExchange task.files.length ready) limit limit failure
          rounds last ∧ after = endExchange (Exchange.abandonPending last) ready) := by
  refine Meets.get (Meets.within ((Exchange.run_gone _).followedBy ?_ ?_))
  · intro failure _ met
    obtain ⟨limit, rounds, last, broken, rfl⟩ := met
    exact ⟨limit, rounds, last, broken, rfl⟩
  · intro _ last met
    obtain ⟨rfl, rounds, finished⟩ := met
    exact Meets.get (Meets.pure ⟨rounds, last, finished, rfl, rfl⟩)

omit [Sandbox ς] in
/-- The record that the exchange of a run ends with, and what its rounds keep to. -/
theorem beginExchange_contract (reads : Downloader.OnlyReads δ κ) {total : Nat} {task : Task}
    {ready : Running υ δ ς κ} {rounds : List Round} {last : Exchange υ δ γ κ}
    (gone : Exchange.Gone task (beginExchange total ready) rounds last) :
    last.steps = rounds.flatMap Round.steps ∧
      Exchange.Contract ready.inflow.multiplexed rounds := by
  obtain ⟨record, contract⟩ := gone.contract reads
  refine ⟨?_, contract⟩
  rw [record.steps]
  rfl

omit [Uploader υ] [Downloader δ γ] [Sandbox ς] in
theorem conclude_phase (root : Path) (directory : Option Location) (files : List ListEntry)
    (removals : Removals) (marks : NewDirectories) (before : Running υ δ ς κ) :
    Meets (conclude root directory files removals .awaitingAck marks) before
      (fun outcome _ => outcome.phase = .done) (fun _ _ => True) := by
  have agrees (before : Running υ δ ς κ) : Meets (agreeOnEnd .awaitingAck) before
      (fun phase _ => phase = .done) (fun _ _ => True) := by
    refine (Meets.ran _).followedBy (fun _ _ _ => trivial) fun _ _ _ => ?_
    refine (Meets.ran _).followedBy (fun _ _ _ => trivial) fun _ _ _ => ?_
    exact Meets.changeThen (Meets.pure rfl)
  refine Meets.changeThen ?_
  refine (Meets.ran _).followedBy (fun _ _ _ => trivial) fun fixups _ _ => ?_
  refine (agrees _).followedBy (fun _ _ _ => trivial) fun phase _ done => ?_
  refine (Meets.ran _).followedBy (fun _ _ _ => trivial) fun totals _ _ => ?_
  refine (Meets.ran _).followedBy (fun _ _ _ => trivial) fun _ _ _ => ?_
  exact Meets.changeThen (Meets.pure done)

omit [Connection κ] [Uploader υ] [Downloader δ γ] [Sandbox ς] in
theorem withUmask_steps (umask : UInt32) (running : Running υ δ ς κ) :
    (running.withUmask umask).steps = running.steps :=
  rfl

/-- The rounds of a run are made of calls that keep to the contract, and it comes to its end
only from a round in which the downloader completed. -/
theorem run_contract (reads : Downloader.OnlyReads δ κ) (root : Path) (endpoint : Endpoint υ δ ς)
    (connection : κ) (disk : Disk) :
    ∃ rounds : List Round,
      (stateAfter (run root) (.start endpoint connection disk)).steps =
        rounds.flatMap Round.steps ∧
      Exchange.Contract endpoint.options.multiplexed rounds ∧
      Ends root (.start endpoint connection disk) rounds := by
  generalize begun : Running.start endpoint connection disk = start
  have fresh : start.steps = [] := begun ▸ rfl
  have mode : start.inflow.multiplexed = endpoint.options.multiplexed := begun ▸ rfl
  have spares := readying_spares (υ := υ) (δ := δ) (ς := ς) (κ := κ) .any (fun _ => .any _)
    (fun _ => .any _) root
  have nothing : Exchange.Contract endpoint.options.multiplexed [] := ⟨nofun, nofun⟩
  cases prelude root start with
  | failed readied ran =>
      have spared := spares.of_error readied
      refine ⟨[], ?_, nothing, .early rfl ?_ ?_⟩
      · rw [stateAfter_error ran, withUmask_steps, spared.steps, fresh]
        rfl
      · intro task ready reached
        rw [readied] at reached
        cases reached
      · intro outcome after ended
        rw [ran] at ended
        cases ended
  | skipped readied ran =>
      have spared := spares.of_ok readied
      refine ⟨[], ?_, nothing, .early rfl ?_ ?_⟩
      · rw [stateAfter_ok ran, withUmask_steps, spared.steps, fresh]
        rfl
      · intro task ready reached
        rw [readied] at reached
        cases reached
      · intro outcome after ended
        rw [ran] at ended
        cases ended
        rfl
  | @reached task removals ready readied umask ran =>
      have spared := spares.of_ok readied
      have framing : ready.inflow.multiplexed = endpoint.options.multiplexed :=
        spared.inflow.multiplexed.trans mode
      cases exchanged : exchange task ready with
      | error failure stopped =>
          obtain ⟨limit, rounds, last, broken, rfl⟩ := (exchange_gone task ready).of_error exchanged
          obtain ⟨steps, contract⟩ := beginExchange_contract reads broken.gone
          have ended := ran.trans (ensuring_error (bind_error exchanged))
          refine ⟨rounds, ?_, framing ▸ contract, .failed readied broken ended⟩
          rw [stateAfter_error ended, withUmask_steps]
          exact (Exchange.abandonPending_steps last).trans steps
      | ok result ended =>
          obtain ⟨rounds, last, finished, rfl, rfl⟩ := (exchange_gone task ready).of_ok exchanged
          obtain ⟨steps, contract⟩ := beginExchange_contract reads finished.gone
          have goesOn := ran.trans (ensuring_congr (bind_ok exchanged))
          refine ⟨rounds, ?_, framing ▸ contract, .finished readied finished goesOn ?_⟩
          · have spared := (conclude_spares (υ := υ) (δ := δ) (ς := ς) (κ := κ) .any
              (fun _ => .any _) (fun _ => .any _) root task.root task.files removals .awaitingAck
              last.newDirectories).after (endExchange last ready)
            rw [stateAfter_congr goesOn, stateAfter_ensuring, withUmask_steps, spared.steps]
            exact steps
          · intro outcome after done
            rw [goesOn] at done
            obtain ⟨inner, concluded, -⟩ := ensuring_ok done
            exact (conclude_phase root task.root task.files removals last.newDirectories
              (endExchange last ready)).of_ok concluded

end Running

theorem ScriptedDownloader.onlyReads (κ : Type) [ByteSource κ] :
    Downloader.OnlyReads ScriptedDownloader κ := by
  let Same (before after : Downloading ScriptedDownloader Unit κ) : Prop :=
    after.inflow.multiplexed = before.inflow.multiplexed
  have trans : Accumulates Same := ⟨fun _ => rfl, fun earlier later => later.trans earlier⟩
  have draws := Wire.readInt_keeps (σ := Inflow κ) (Inflow.Drawn.accumulates .any)
    (Inflow.read_draws .any fun _ => .any _)
  have reads : Keeps Same (Downloading.receive Wire.readInt) :=
    .within draws fun _ _ drawn => drawn.multiplexed
  have advances : Keeps Same (ScriptedDownloader.advance (σ := κ)) := by
    refine .bind trans reads fun value _ => .bind trans (.change fun _ => rfl) fun _ _ => ?_
    split
    · exact .pure trans trivial
    · exact .bind trans (.change fun _ => rfl) fun _ _ => .pure trans trivial
    · exact .bind trans (.change fun _ => rfl) fun _ _ => .pure trans trivial
    · exact .throw trans
    · exact .pure trans trivial
  exact fun task lent => advances.after lent

namespace Running

/-- Roles that wait for a descriptor in the first round and end the exchange in the second. -/
def scriptedEndpoint : Endpoint ScriptedUploader ScriptedDownloader StrictSandbox where
  options := { server := true, dryRun := true }
  uploader := ⟨[[.arm .data], [.disarm, .finish]], 0⟩
  downloader := {}
  sandbox := {}

/-- An empty list, an int for the first round, and the end of the phase with its answer. -/
def scriptedPeer : StagedConnection :=
  .start [⟨0, [0, 0, 0, 0, 0, 0, 0, 0, 5, 0, 0, 0, 255, 255, 255, 255, 255, 255, 255, 255]⟩] .half none

theorem run_contract_of_scripted_roles :
    (stateAfter (run ⟨[100]⟩) (.start scriptedEndpoint scriptedPeer default)).steps.length = 8 ∧
      ∃ rounds : List Round,
        (stateAfter (run ⟨[100]⟩) (.start scriptedEndpoint scriptedPeer default)).steps =
          rounds.flatMap Round.steps ∧
        Exchange.Contract false rounds ∧
        Ends ⟨[100]⟩ (.start scriptedEndpoint scriptedPeer default) rounds :=
  ⟨by decide +kernel, run_contract (ScriptedDownloader.onlyReads _) _ _ _ _⟩

end Running

end TreeSync

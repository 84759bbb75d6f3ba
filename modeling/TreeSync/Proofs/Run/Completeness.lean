import TreeSync.Proofs.Run.Ledger
import TreeSync.Proofs.Run.Stages
import TreeSync.Rehearsal.StagedConnection

namespace TreeSync

/-! What a run that ends well has committed.

The downloader takes the peer's word for the end of the content, so a file that was
requested is there if and only if the peer sent a reply for it.
-/

open TreeSync.Action

/-- Whether the file of an entry was received in full and is in its place. -/
def Task.Committed (task : Task) (collector : FileCollector) (replies : List Reply) (tree : Tree)
    (index : Nat) : Prop :=
  ∃ reply ∈ replies, reply.index = index ∧ task.Keeps collector replies none tree reply

namespace Exchange

variable {κ : Type} [Connection κ] {task : Task} {first before last : WholeFiles κ}

/-- An exchange that ends well took whole replies and then the end of the content, and
committed what it took. -/
structure Settles (task : Task) (first last : WholeFiles κ) (replies : List Reply) : Prop where
  takes : Takes task first (replies.flatMap Reply.bytes ++ Wire.intBytes Wire.doneIndex) last
  exhausted : last.cursor.exhausted = true
  received : last.downloader.received = first.downloader.received ++ replies.map Reply.index
  keeps : ∀ reply ∈ replies, task.Keeps first.downloader replies none last.disk.tree reply

theorem Completes.settles (advanced : Advances task first before) (idle : first.pending = none)
    (completes : Completes task before last) : ∃ replies, Settles task first last replies := by
  obtain ⟨_, sound⟩ := advanced.visits.evolves idle
  obtain ⟨replies, draft, ledger⟩ := advanced.ledger idle
  cases (advanceDownloader_meets sound).of_ok completes.done with
  | ended idle _ downloader disk taken =>
      have books := ledger.books
      rw [show before.pending = none from idle] at books
      cases books.drafts.of_idle
      have takes := ledger.takes.downloaded completes.done taken
      have same : last.downloader = before.downloader := downloader
      refine ⟨replies, ?_⟩
      exact
        { takes := by simpa [bytesOf] using takes
          exhausted := completes.exhausted
          received := same ▸ ledger.received
          keeps := by
            rw [show last.disk = before.disk from disk]
            exact books.keeps }

theorem run_settles (task : Task) (first : WholeFiles κ) (patience : Nat)
    (idle : first.pending = none) :
    Meets (run task patience) first (fun _ last => ∃ replies, Settles task first last replies)
      (fun _ _ => True) := by
  refine (run_meets patience).mono ?_ fun _ _ _ => trivial
  intro _ after met
  obtain ⟨before, last, advanced, completes, rfl⟩ := met
  rw [abandonPending_idle completes.idle]
  exact completes.settles advanced idle

end Exchange

namespace Running

variable {κ ς : Type} [Connection κ] [Sandbox ς] {options : Options} {sandbox : ς}
  {patience : Nat} {connection : κ} {disk : Disk} {path : Path} {outcome : Outcome}
  {final ready : Running FileRequester FileCollector ς κ} {task : Task} {removals : Removals}

omit [Sandbox ς] in
theorem finishing_settles :
    Meets (finishing path task removals) ready
      (fun _ after => ∃ last replies,
        Exchange.Settles task (beginExchange task.files.length ready) last replies ∧
          after.endpoint.uploader = last.uploader ∧ after.endpoint.downloader = last.downloader)
      (fun _ _ => True) := by
  have settles := Exchange.run_settles task (beginExchange task.files.length ready)
    ready.endpoint.patience rfl
  refine (exchange_runs settles).followedBy (fun _ _ _ => trivial) fun _ _ ended => ?_
  obtain ⟨last, ⟨replies, settled⟩, rfl⟩ := ended
  refine (conclude_proceeds (endExchange last ready)).mono ?_ fun _ _ _ => trivial
  exact fun _ _ concluded =>
    ⟨last, replies, settled, concluded.1.uploader, concluded.1.downloader⟩

/-- A run that ends well has committed the files of the replies it took, one by one and in
full, and no others: all that was requested is there exactly if the peer replied to all of it. -/
theorem run_commits_replies
    (ran : run path (.start (.wholeFiles options sandbox patience) connection disk) =
      .ok outcome final) (received : outcome.skippedEmpty = false) :
    ∃ task ready last replies,
      readying path (.start (.wholeFiles options sandbox patience) connection disk) =
        .ok (some task) ready ∧
      Exchange.Takes task (beginExchange task.files.length ready)
        (replies.flatMap Reply.bytes ++ Wire.intBytes Wire.doneIndex) last ∧
      last.cursor.exhausted = true ∧ last.uploader = final.endpoint.uploader ∧
      final.endpoint.downloader.received = replies.map Reply.index ∧
      (∀ reply ∈ replies, task.Keeps (.ofOptions options) replies none last.disk.tree reply) ∧
      ((∀ index ∈ final.endpoint.uploader.requested,
          task.Committed (.ofOptions options) replies last.disk.tree index) ↔
        ∀ index ∈ final.endpoint.uploader.requested, index ∈ replies.map Reply.index) := by
  cases prelude path (.start (.wholeFiles options sandbox patience) connection disk) with
  | failed readied ended =>
      rw [ended] at ran
      cases ran
  | skipped readied ended =>
      rw [ended] at ran
      cases ran
      cases received
  | @reached task removals ready readied umask ended =>
      have before : Readies (.start (.wholeFiles options sandbox patience) connection disk) ready :=
        (readying_meets rfl).of_ok readied
      have collector : ready.endpoint.downloader = .ofOptions options := before.downloader
      rw [ended] at ran
      obtain ⟨after, finished, rfl⟩ := ensuring_ok ran
      obtain ⟨last, replies, settled, uploader, downloader⟩ := finishing_settles.of_ok finished
      have first : (beginExchange task.files.length ready : Exchange.WholeFiles κ).downloader =
          .ofOptions options := collector
      have keeps := settled.keeps
      rw [first] at keeps
      have nothing : (FileCollector.ofOptions options).received = [] := rfl
      have credited := settled.received
      rw [first, nothing, List.nil_append, ← downloader] at credited
      -- every reply is kept, so a request is committed as soon as one answers it
      refine ⟨task, ready, last, replies, readied, settled.takes, settled.exhausted,
        uploader.symm, credited, keeps, ?_, ?_⟩
      · intro committed index requested
        obtain ⟨reply, received, same, _⟩ := committed index requested
        exact List.mem_map.mpr ⟨reply, received, same⟩
      · intro answered index requested
        obtain ⟨reply, received, same⟩ := List.mem_map.mp (answered index requested)
        exact ⟨reply, received, same, keeps reply received⟩

def listOfOne : Bytes :=
  Wire.intBytes 1 ++ [97] ++ Wire.intBytes 0o100644 ++ Wire.intBytes 0 ++ Wire.intBytes 3 ++
    Wire.intBytes 0 ++ Wire.intBytes 0

/-- A peer that ends the exchange when it has been sent all requests, without a reply. -/
def silentStart : Running FileRequester FileCollector StrictSandbox StagedConnection :=
  .start (.wholeFiles { server := true } {} 0)
    (.start [⟨0, listOfOne⟩, ⟨24, Wire.intBytes Wire.doneIndex ++ Wire.intBytes Wire.doneIndex⟩]
      .half none)
    { tree := Tree.empty.set [] (.directory ⟨0o755, 0⟩) }

/-- Such a run ends well although the file it requested is missing. -/
theorem run_ends_incomplete :
    ∃ outcome final, run ⟨selfName⟩ silentStart = .ok outcome final ∧
      outcome.skippedEmpty = false ∧ final.endpoint.options.dryRun = false ∧
      final.endpoint.uploader.requested = [0] ∧ final.endpoint.downloader.received = [] ∧
      final.disk.tree.get? [[97]] = none := by
  have ends : endsIn (run ⟨selfName⟩ silentStart) (fun outcome final =>
      decide (outcome.skippedEmpty = false ∧ final.endpoint.options.dryRun = false ∧
        final.endpoint.uploader.requested = [0] ∧ final.endpoint.downloader.received = [] ∧
        final.disk.tree.get? [[97]] = none)) = true := by
    decide +kernel
  obtain ⟨outcome, final, ran, seen⟩ := of_endsIn ends
  exact ⟨outcome, final, ran, of_decide_eq_true seen⟩

theorem run_commits_replies_of_silence :
    ∃ task ready last, readying ⟨selfName⟩ silentStart = .ok (some task) ready ∧
      Exchange.Takes task (beginExchange task.files.length ready)
        (Wire.intBytes Wire.doneIndex) last := by
  have ends : endsIn (run ⟨selfName⟩ silentStart) (fun outcome final =>
      decide (outcome.skippedEmpty = false ∧ final.endpoint.downloader.received = [])) = true := by
    decide +kernel
  obtain ⟨outcome, final, ran, seen⟩ := of_endsIn ends
  obtain ⟨received, nothing⟩ := of_decide_eq_true seen
  obtain ⟨task, ready, last, replies, readied, takes, _, _, credited, _⟩ :=
    run_commits_replies ran received
  rw [nothing] at credited
  have empty : replies = [] := List.map_eq_nil_iff.mp credited.symm
  rw [empty] at takes
  exact ⟨task, ready, last, readied, takes⟩

end Running

end TreeSync

import TreeSync.Proofs.Message.Bounded
import TreeSync.Proofs.Run.Causes
import TreeSync.Proofs.Run.Grammar

namespace TreeSync

/-! Every run comes to its end.

A round passes an entry of the list, takes bytes from the stream or is the last. So there are
no more rounds than entries, bytes that may still come and two more, and no run ends because
its rounds were counted.
-/

open TreeSync.Action

/-- A connection on which a wait without a limit ends when there is something to read or
something is wrong. `lively` holds of the states it can come to. -/
structure Connection.Attentive {κ : Type} [Connection κ] (lively : κ → Prop) : Prop where
  wakes : ∀ (beside : Option Descriptor) {before after : κ} {signals : Signals × Option Signals},
    lively before → Connection.poll .indefinite beside before = .ok signals after →
      signals.1.readable = true ∨ signals.1.hungUp = true ∨ signals.1.failed = true
  polls : ∀ timeout beside, Keeps (fun before after => lively before → lively after)
    (Connection.poll timeout beside : EStateM Fault κ (Signals × Option Signals))
  reads : ByteSource.Respects fun before after : κ => lively before → lively after
  puts : ∀ bytes, Keeps (fun before after => lively before → lively after)
    (ByteSink.put bytes : EStateM Fault κ Unit)

/-- What using a connection does to it: it stays lively, and no more can come than before. -/
structure Connection.Onward {κ : Type} [Connection κ] (lively : κ → Prop) (before after : κ) :
    Prop where
  lively : lively before → lively after
  shrinks : ByteSource.Shrinks before after

namespace Connection

variable {κ : Type} [Connection κ] {lively : κ → Prop}

theorem Onward.accumulates : Accumulates (Onward lively) where
  refl _ := ⟨id, Nat.le_refl _⟩
  trans earlier later :=
    { lively := later.lively ∘ earlier.lively
      shrinks := ByteSource.Shrinks.accumulates.trans earlier.shrinks later.shrinks }

namespace Attentive

variable (attentive : Attentive lively)

include attentive

theorem onward_reads : ByteSource.Respects (Onward lively) := fun limit =>
  ((attentive.reads limit).and (ByteSource.Shrinks.respects limit)).mono
    (fun _ _ both => ⟨both.1, both.2⟩) fun _ _ => trivial

theorem onward_puts (bytes : Bytes) :
    Keeps (Onward lively) (ByteSink.put bytes : EStateM Fault κ Unit) := by
  have shrinks : Keeps ByteSource.Shrinks (ByteSink.put bytes : EStateM Fault κ Unit) :=
    .of_leaves fun before => by
      have bound := Connection.put_budget bytes before
      unfold stateAfter at bound
      cases ran : (ByteSink.put bytes : EStateM Fault κ Unit) before <;> rw [ran] at bound <;>
        exact bound
  exact ((attentive.puts bytes).and shrinks).mono (fun _ _ both => ⟨both.1, both.2⟩)
    fun _ _ => trivial

theorem onward_polls (timeout : Timeout) (beside : Option Descriptor) :
    Keeps (Onward lively)
      (Connection.poll timeout beside : EStateM Fault κ (Signals × Option Signals)) := by
  have shrinks : Keeps ByteSource.Shrinks
      (Connection.poll timeout beside : EStateM Fault κ (Signals × Option Signals)) :=
    .of_leaves fun before => by
      have bound := Connection.poll_budget timeout beside before
      unfold stateAfter at bound
      cases ran : (Connection.poll timeout beside : EStateM Fault κ _) before <;>
        rw [ran] at bound <;> exact bound
  exact ((attentive.polls timeout beside).and shrinks).mono (fun _ _ both => ⟨both.1, both.2⟩)
    fun _ _ => trivial

end Attentive

end Connection

theorem Signals.judge_ok {signals : Signals} {readable : Bool}
    (judged : signals.judge = .ok readable) :
    signals.failed = false ∧ signals.hungUp = false ∧ readable = signals.readable := by
  unfold judge at judged
  split at judged
  · cases judged
  · split at judged
    · cases judged
    · cases judged
      simp_all

/-- A wait that ended for a reason, and did not fail, found something to read. -/
theorem Journal.wakeUp_inbound {journal journal' : Journal} {timeout : Timeout} {inbound : Signals}
    {secondary : Option Signals} {readiness : Readiness}
    (woke : journal.wakeUp timeout inbound secondary = .ok (readiness, journal'))
    (reason : inbound.readable = true ∨ inbound.hungUp = true ∨ inbound.failed = true) :
    readiness.inbound = true := by
  unfold wakeUp Readiness.ofSignals at woke
  cases judged : inbound.judge with
  | error violation =>
      rw [judged] at woke
      cases woke
  | ok readable =>
      obtain ⟨fine, open_, rfl⟩ := Signals.judge_ok judged
      rw [judged] at woke
      rw [fine, open_] at reason
      cases secondary with
      | none =>
          cases woke
          simpa using reason
      | some signals =>
          cases judged' : signals.judge with
          | error violation =>
              simp only [bind, Except.bind, judged'] at woke
              cases woke
          | ok other =>
              simp only [bind, Except.bind, judged', pure, Except.pure] at woke
              cases woke
              simpa using reason

namespace Exchange

variable {κ : Type} [Connection κ] {lively : κ → Prop} {task : Task} {first now last : WholeFiles κ}

/-- What a step does that leaves the cursor where it is. -/
structure Stays (lively : κ → Prop) (before after : WholeFiles κ) : Prop where
  source : Connection.Onward lively before.inflow.source after.inflow.source
  cursor : after.cursor = before.cursor

theorem Stays.accumulates : Accumulates (Stays lively) where
  refl now := ⟨Connection.Onward.accumulates.refl now.inflow.source, rfl⟩
  trans earlier later :=
    { source := Connection.Onward.accumulates.trans earlier.source later.source
      cursor := later.cursor.trans earlier.cursor }

/-- The entries that the cursor has yet to pass, the end of the list among them, and the bytes
that may still come. -/
def left (now : WholeFiles κ) : Nat :=
  (now.cursor.total + 1 - now.cursor.next) + ByteSource.budget now.inflow.source

section

variable (attentive : Connection.Attentive lively)

include attentive

theorem wait_stays :
    Meets wait now
      (fun readiness after => Stays lively now after ∧
        (lively now.inflow.source → now.cursor.exhausted = true → readiness.inbound = true))
      (fun failure _ => failure.Caused) := by
  refine Meets.get (Meets.changeThen ?_)
  have polled (timeout : Timeout) (beside : Option Descriptor) (noted : WholeFiles κ) : Meets
      (explaining (Failure.ofTransport "poll")
        (within (fun exchange : WholeFiles κ => exchange.inflow.source)
          (fun source exchange => { exchange with inflow := { exchange.inflow with source } })
          (Connection.poll timeout beside))) noted
      (fun signals after => Stays lively noted after ∧
        (lively noted.inflow.source → timeout = .indefinite →
          signals.1.readable = true ∨ signals.1.hungUp = true ∨ signals.1.failed = true))
      (fun failure _ => failure.Caused) := by
    refine Meets.explaining (Meets.within (Meets.intro (fun signals source ran => ?_) ?_))
    · refine ⟨⟨(attentive.onward_polls _ _).of_ok ran, rfl⟩, fun alive forever => ?_⟩
      subst forever
      exact attentive.wakes _ alive ran
    · exact fun fault _ _ => Failure.caused_ofTransport "poll" fault
  refine (polled _ _ _).bind fun signals after met => ?_
  obtain ⟨stays, reason⟩ := met
  refine Meets.get ?_
  split
  · next failure judged =>
    refine Meets.throw ?_
    unfold Journal.wakeUp at judged
    split at judged <;> cases judged
    nofun
  · next readiness journal judged =>
    refine Meets.changeThen (Meets.changeThen (Meets.pure ⟨⟨stays.source, stays.cursor⟩, ?_⟩))
    intro alive ended
    refine Journal.wakeUp_inbound judged (reason alive ?_)
    simp [ended, Timeout.choose]

theorem advanceUploader_moves :
    Meets (advanceUploader task) now
      (fun _ after => Connection.Onward lively now.inflow.source after.inflow.source ∧
        after.cursor = now.cursor.advance)
      (fun failure _ => failure.Caused) := by
  have passes := FileRequester.advance_passes Connection.Onward.accumulates attentive.onward_puts
    task now.lendUpload
  refine advanceUploader_lent (passes.mono ?_ ?_) (fun _ _ => id) fun _ _ _ => id
  · exact fun _ _ met => met
  · exact fun _ _ _ => nofun

/-- Dealing with a message takes bytes, unless content is waiting already. -/
theorem contentWaits_takes :
    Meets contentWaits now
      (fun waits after => Stays lively now after ∧
        (waits = true ∨ after.left < now.left))
      (fun failure _ => failure.Caused) := by
  refine Meets.get (Meets.cond (fun framed => ?_) fun _ => ?_)
  · have flushed : Meets (within Exchange.inflow (fun inflow exchange => { exchange with inflow })
        Inflow.flush) now
        (fun _ after => Stays lively now after ∧
          (0 < after.inflow.remaining ∨ after.left < now.left))
        (fun _ _ => True) := by
      refine Meets.within (Meets.intro (fun _ inflow ran => ?_) fun _ _ _ => trivial)
      have flushes := Inflow.flush_draws Connection.Onward.accumulates attentive.onward_reads
      have draws := flushes.of_ok ran
      refine ⟨⟨draws.source, rfl⟩, ?_⟩
      rcases Inflow.flush_spends framed ran with spent | ⟨waiting, rfl⟩
      · have header : MessageHeader.width = 4 := rfl
        refine .inr ?_
        simp only [left]
        omega
      · exact .inl waiting
    refine (Meets.explaining (flushed.mono (fun _ _ met => met) fun fault _ _ =>
      Failure.caused_ofTransport _ fault)).bind fun _ after met => ?_
    obtain ⟨stays, either⟩ := met
    refine Meets.get (Meets.changeThen (Meets.pure ⟨⟨stays.source, stays.cursor⟩, ?_⟩))
    exact either.imp (fun present => decide_eq_true present) id
  · exact Meets.pure ⟨Stays.accumulates.refl now, .inl rfl⟩

theorem advanceDownloader_takes :
    Meets (advanceDownloader task) now
      (fun _ after => Stays lively now after ∧ after.left < now.left)
      (fun failure _ => failure.Caused) := by
  have takes : Meets (within lendDownload takeDownload (Downloader.advance task)) now
      (fun _ after => Stays lively now after ∧ after.left < now.left) (fun _ _ => True) := by
    refine Meets.within (Meets.intro (fun outcome lent ran => ?_) fun _ _ _ => trivial)
    have draws := (FileCollector.advance_draws Connection.Onward.accumulates
      attentive.onward_reads task).of_ok ran
    have used : FileCollector.UsesInt now.lendDownload lent :=
      (FileCollector.advance_uses task _).of_ok ran
    refine ⟨⟨draws.source, rfl⟩, ?_⟩
    have four : Wire.intWidth = 4 := rfl
    unfold FileCollector.UsesInt at used
    simp only [left, takeDownload, lendDownload] at used ⊢
    omega
  refine Meets.attempt takes (fun outcome after met => ?_) fun _ _ _ => ?_
  · exact Meets.changeThen (Meets.pure ⟨⟨met.1.source, met.1.cursor⟩, met.2⟩)
  · exact Meets.changeThen (Meets.throw fun _ stalled => by cases stalled)

theorem takeWaiting_takes (readiness : Readiness) :
    Meets (takeWaiting task readiness) now
      (fun phase after => Stays lively now after ∧
        (readiness.inbound = true → phase = none → after.left < now.left))
      (fun failure _ => failure.Caused) := by
  have trans : Accumulates (Stays lively) := Stays.accumulates
  have fewer {first second : WholeFiles κ} (stays : Stays lively first second) :
      second.left ≤ first.left := by
    have shrinks : _ ≤ _ := stays.source.shrinks
    simp only [left, stays.cursor]
    omega
  refine Meets.cond (fun silent => ?_) fun _ => ?_
  · exact Meets.pure ⟨trans.refl now, fun inbound => by rw [silent] at inbound; cases inbound⟩
  refine (contentWaits_takes attentive).bind fun waits middle met => ?_
  obtain ⟨stays, either⟩ := met
  refine Meets.cond (fun idle => ?_) fun _ => ?_
  · refine Meets.pure ⟨stays, fun _ _ => either.resolve_left ?_⟩
    simp [idle]
  refine (advanceDownloader_takes attentive).bind fun outcome after met => ?_
  obtain ⟨stays', taken⟩ := met
  have whole := trans.trans stays stays'
  have before := fewer stays
  cases outcome with
  | ongoing => exact Meets.pure ⟨whole, fun _ _ => by omega⟩
  | complete =>
      have checks : Meets (checkComplete task) after
          (fun _ last => last = after) (fun failure _ => failure.Caused) := by
        refine Meets.get (Meets.cond (fun _ => Meets.throw nofun) fun _ => ?_)
        exact Meets.cond (fun _ => Meets.throw nofun) fun _ => Meets.pure rfl
      refine checks.bind fun phase last same => ?_
      subst same
      exact Meets.pure ⟨whole, nofun⟩

/-- What a round that another follows has left to do. -/
theorem round_takes (alive : lively now.inflow.source) :
    Meets (round task) now
      (fun phase after => lively after.inflow.source ∧ (phase = none → after.left < now.left))
      (fun failure _ => failure.Caused) := by
  refine (wait_stays attentive).bind fun readiness woken met => ?_
  obtain ⟨stays, forced⟩ := met
  replace forced := forced alive
  have woke : lively woken.inflow.source := stays.source.lively alive
  have budgets : ByteSource.budget woken.inflow.source ≤ ByteSource.budget now.inflow.source :=
    stays.source.shrinks
  refine Meets.get (Meets.cond (fun _ => ?_) fun rests => ?_)
  · refine (advanceUploader_moves attentive).bind fun _ middle met => ?_
    obtain ⟨source, cursor⟩ := met
    have shrinks : ByteSource.budget middle.inflow.source ≤ ByteSource.budget woken.inflow.source :=
      source.shrinks
    refine (takeWaiting_takes attentive readiness).mono (fun phase after met => ?_) fun _ _ => id
    obtain ⟨stays', taken⟩ := met
    refine ⟨stays'.source.lively (source.lively woke), fun goesOn => ?_⟩
    rw [stays.cursor] at cursor
    cases ended : now.cursor.exhausted with
    | true =>
        have fewer := taken (forced ended) goesOn
        rw [Cursor.advance_exhausted ended] at cursor
        simp only [left, cursor] at fewer ⊢
        omega
    | false =>
        have next := Cursor.next_advance ended
        have total := Cursor.total_advance now.cursor
        have room : now.cursor.next ≤ now.cursor.total := by
          simpa [Cursor.exhausted] using ended
        have shrinks' : ByteSource.budget after.inflow.source ≤
            ByteSource.budget middle.inflow.source := stays'.source.shrinks
        simp only [left, stays'.cursor, cursor, next, total]
        omega
  · have ended : now.cursor.exhausted = true := by
      rw [stays.cursor] at rests
      simp only [Bool.or_eq_true, Bool.not_eq_true', not_or, Bool.not_eq_false] at rests
      exact rests.1
    refine (takeWaiting_takes attentive readiness).mono (fun phase after met => ?_) fun _ _ => id
    obtain ⟨stays', taken⟩ := met
    refine ⟨stays'.source.lively woke, fun goesOn => ?_⟩
    have fewer := taken (forced ended) goesOn
    simp only [left, stays.cursor] at fewer ⊢
    omega

/-- Where the rounds that are granted are more than there is left to do, they are enough. -/
theorem roundsUpTo_caused {limit granted : Nat} (alive : lively now.inflow.source)
    (enough : now.left < granted) :
    Meets (roundsUpTo task limit granted) now (fun _ _ => True)
      (fun failure _ => failure.Caused) := by
  induction granted generalizing now with
  | zero => omega
  | succ granted ih =>
      refine (round_takes attentive alive).bind fun phase after met => ?_
      obtain ⟨still, fewer⟩ := met
      cases phase with
      | some phase => exact Meets.pure trivial
      | none =>
          have less := fewer rfl
          exact ih still (by omega)

theorem Rounds.length_le {rounds : List Round} (alive : lively first.inflow.source)
    (gone : Rounds task first rounds last) : last.left + rounds.length ≤ first.left := by
  induction gone with
  | nothing => simp
  | next ran did goesOn later ih =>
      obtain ⟨still, fewer⟩ := (round_takes attentive alive).of_ok ran
      have less := fewer rfl
      have rest := ih still
      simp only [List.length_cons]
      omega

theorem Gone.length_le {rounds : List Round} (alive : lively first.inflow.source)
    (gone : Gone task first rounds last) : rounds.length ≤ first.left + 1 := by
  cases gone with
  | going earlier =>
      have bound := earlier.length_le attentive alive
      omega
  | closed earlier did stops whole =>
      have bound := earlier.length_le attentive alive
      rw [whole, List.length_append, List.length_singleton]
      omega

theorem run_caused (patience : Nat) (fresh : first.cursor = .start task.files.length)
    (alive : lively first.inflow.source) :
    Meets (run task patience) first (fun _ _ => True) (fun failure _ => failure.Caused) := by
  refine Meets.get (Meets.ensuring (roundsUpTo_caused attentive alive ?_))
  simp only [left, fresh, Cursor.start, usefulRounds]
  omega

end

end Exchange

namespace Running

variable {ς κ : Type} [Connection κ] [Sandbox ς] {lively : κ → Prop}
  {start : Running FileRequester FileCollector ς κ} {root : Path}

/-- What it means that a run comes to its end by itself. -/
structure Terminates (root : Path) (start : Running FileRequester FileCollector ς κ) : Prop where
  /-- It ends well, or fails because something happened. -/
  caused : ∀ {failure : Failure} {after : Running FileRequester FileCollector ς κ},
    run root start = .error failure after → failure.Caused
  /-- Its rounds, if it comes to any, are no more than entries, bytes to come and two. -/
  rounds : ∃ rounds : List Round,
    (stateAfter (run root) start).steps = rounds.flatMap Round.steps ∧
      (rounds = [] ∨ ∃ task ready, readying root start = .ok (some task) ready ∧
        rounds.length ≤ task.files.length + ByteSource.budget start.inflow.source + 2)
  /-- Whatever is read through messages, no more of them are dealt with than bytes are there
  for their headers. -/
  reads : ∀ (limit : Nat) (inflow : Inflow κ), ∃ turns last, inflow.Turns turns last ∧
    MessageHeader.width * turns ≤ ByteSource.budget inflow.source ∧
      inflow.read limit = last.read limit ∧ last.Settles limit

omit [Sandbox ς] in
theorem exchange_caused (attentive : Connection.Attentive lively) (task : Task)
    {ready : Running FileRequester FileCollector ς κ} (alive : lively ready.inflow.source) :
    Meets (exchange task) ready (fun _ _ => True) (fun failure _ => failure.Caused) := by
  refine Meets.get (Meets.within ?_)
  refine (Exchange.run_caused attentive _ rfl alive).bind fun phase _ _ => ?_
  exact Meets.get (Meets.pure trivial)

omit [Sandbox ς] in
/-- All the rounds of a run are those of its exchange. -/
theorem finishing_gone (root : Path) (task : Task) (removals : Removals)
    (ready : Running FileRequester FileCollector ς κ) :
    ∃ rounds last, Exchange.Gone task (beginExchange task.files.length ready) rounds last ∧
      (stateAfter (finishing root task removals) ready).steps = last.steps := by
  cases exchanged : exchange task ready with
  | error failure stopped =>
      obtain ⟨limit, rounds, last, broken, rfl⟩ := (exchange_gone task ready).of_error exchanged
      have failed : finishing root task removals ready =
          .error failure (endExchange (Exchange.abandonPending last) ready) := bind_error exchanged
      refine ⟨rounds, last, broken.gone, ?_⟩
      rw [stateAfter_error failed]
      exact Exchange.abandonPending_steps last
  | ok result ended =>
      obtain ⟨rounds, last, finished, -, rfl⟩ := (exchange_gone task ready).of_ok exchanged
      refine ⟨rounds, last, finished.gone, ?_⟩
      have spared := (conclude_spares (υ := FileRequester) (δ := FileCollector) (ς := ς) (κ := κ)
        .any (fun _ => .any _) (fun _ => .any _) root task.root task.files removals result.1
        result.2).after (endExchange last ready)
      have goesOn : finishing root task removals ready =
          conclude root task.root task.files removals result.1 result.2 (endExchange last ready) :=
        bind_ok exchanged
      rw [stateAfter_congr goesOn, spared.steps]
      rfl

theorem run_terminates (attentive : Connection.Attentive lively) (root : Path) (options : Options)
    (sandbox : ς) (patience : Nat) {connection : κ} (alive : lively connection) (disk : Disk) :
    Terminates root (.start (.wholeFiles options sandbox patience) connection disk) := by
  generalize begun : Running.start (.wholeFiles options sandbox patience) connection disk = start
  have fresh : start.steps = [] := begun ▸ rfl
  have prunes : start.endpoint.prune = Destination.pruneAll := begun ▸ rfl
  replace alive : lively start.inflow.source := begun ▸ alive
  have spares := readying_spares (υ := FileRequester) (δ := FileCollector) (ς := ς)
    Connection.Onward.accumulates attentive.onward_reads
    (Emission.send_keeps Connection.Onward.accumulates attentive.onward_puts) root
  have reads (limit : Nat) (inflow : Inflow κ) : ∃ turns last, inflow.Turns turns last ∧
      MessageHeader.width * turns ≤ ByteSource.budget inflow.source ∧
        inflow.read limit = last.read limit ∧ last.Settles limit := by
    obtain ⟨turns, last, gone, same, settled⟩ := Inflow.read_turns limit inflow
    exact ⟨turns, last, gone, Nat.le_trans (Nat.le_add_right _ _) gone.bounded, same, settled⟩
  cases prelude root start with
  | failed readied ran =>
      refine ⟨fun failed => ?_, ⟨[], ?_, .inl rfl⟩, reads⟩
      · cases ran.symm.trans failed
        exact (readying_grounded prunes).of_error readied
      · rw [stateAfter_error ran, withUmask_steps, (spares.of_error readied).steps, fresh]
        rfl
  | skipped readied ran =>
      refine ⟨fun failed => ?_, ⟨[], ?_, .inl rfl⟩, reads⟩
      · rw [ran] at failed
        cases failed
      · rw [stateAfter_ok ran, withUmask_steps, (spares.of_ok readied).steps, fresh]
        rfl
  | @reached task removals ready readied umask ran =>
      have spared := spares.of_ok readied
      have ready' : lively ready.inflow.source := spared.inflow.source.lively alive
      have shrinks :
          ByteSource.budget ready.inflow.source ≤ ByteSource.budget start.inflow.source :=
        spared.inflow.source.shrinks
      refine ⟨fun failed => ?_, ?_, reads⟩
      · have ends :
            Meets (ensuring (finishing root task removals) (withUmask start.disk.umask)) ready
              (fun _ _ => True) (fun failure _ => failure.Caused) := by
          refine Meets.ensuring ((exchange_caused attentive task ready').bind fun _ middle _ => ?_)
          exact conclude_grounded _ _ _ _ _ _ middle
        exact ends.of_error (ran.symm.trans failed)
      · obtain ⟨rounds, last, gone, steps⟩ := finishing_gone root task removals ready
        obtain ⟨recorded, -⟩ := beginExchange_contract (FileCollector.onlyReads κ) gone
        refine ⟨rounds, ?_, .inr ⟨task, ready, readied, ?_⟩⟩
        · rw [stateAfter_congr ran, stateAfter_ensuring, withUmask_steps, steps, recorded]
        · have bound := gone.length_le attentive ready'
          simp only [Exchange.left, beginExchange, Cursor.start] at bound
          omega

end Running

/-- A peer that has sent all it ever will, and closed its side, keeps nobody waiting. -/
theorem StagedConnection.attentive :
    Connection.Attentive fun connection : StagedConnection =>
      connection.stages = [] ∧ connection.ending = .half where
  wakes beside {before after signals} sent ran := by
    cases ran
    left
    simp [signals, complete, sent.1, sent.2]
  polls timeout beside before := ⟨id, trivial⟩
  reads limit := .of_leaves fun before => by
    change Leaves _ before (read limit before)
    unfold read
    split
    · exact id
    · split <;> exact id
  puts bytes := .of_leaves fun before => by
    change Leaves _ before (put bytes before)
    unfold put
    have refreshed (sink : BoundedSink) : ({ before with sink } : StagedConnection).refresh.stages =
        (arrivals sink.written.length before.stages).2 := rfl
    split <;>
    · rintro ⟨sent, half⟩
      refine ⟨?_, half⟩
      rw [refreshed, sent]
      rfl

namespace Running

/-- A list of one file, then messages without content: two for nobody and one for the journal,
and the first half of a header. -/
def noisyPeer : StagedConnection :=
  .start [⟨0, [25, 0, 0, 7, 1, 0, 0, 0, 97, 164, 129, 0, 0, 0, 0, 0, 0, 0, 0, 0, 0, 0, 0, 0, 0,
    0, 0, 0, 0, 0, 0, 0, 7, 0, 0, 0, 49, 0, 0, 0, 7, 0, 0, 0, 9, 1, 2]⟩] .half none

def noisyStart : Running FileRequester FileCollector StrictSandbox StagedConnection :=
  .start (.wholeFiles { server := true, multiplexed := true } {} 3) noisyPeer default

theorem run_terminates_of_noisyPeer :
    (noisyPeer.stages = [] ∧ noisyPeer.ending = .half) ∧
      (stateAfter (run ⟨[100]⟩) noisyStart).steps.length = 16 ∧ Terminates ⟨[100]⟩ noisyStart :=
  ⟨⟨rfl, rfl⟩, by decide +kernel,
    run_terminates StagedConnection.attentive _ _ _ _ ⟨rfl, rfl⟩ _⟩

end Running

end TreeSync

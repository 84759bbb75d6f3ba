import TreeSync.Proofs.Message.Concluding
import TreeSync.Proofs.Run.Satisfying
import TreeSync.Proofs.Run.Termination

namespace TreeSync

/-! An exchange that finds nothing to do.

The uploader finds every entry in its place and asks for none, and the peer has nothing to send
but the end of the content. So the rounds pass the list, announce its end and wait.
-/

open TreeSync.Action

namespace FileRequester

variable {κ : Type} {options : Options} {task : Task} {root : Location} {index : Nat}
  {entry : ListEntry} {now : Uploading FileRequester κ}

/-- What passing an entry leaves alone for which there is nothing to do. -/
structure Rests (before after : Uploading FileRequester κ) : Prop where
  requested : after.uploader.requested = before.uploader.requested
  recursive : after.uploader.recursive = before.uploader.recursive
  cursor : after.cursor = before.cursor
  armed : after.secondary = before.secondary
  marks : after.newDirectories = before.newDirectories
  connection : after.connection = before.connection
  disk : after.host.disk = before.host.disk

theorem Rests.refl (now : Uploading FileRequester κ) : Rests now now :=
  ⟨rfl, rfl, rfl, rfl, rfl, rfl, rfl⟩

theorem info_rests (flag : InfoFlag) (level : UInt8) (message : String) :
    Meets (Uploading.onHost (Host.info flag level message) :
      EStateM Fault (Uploading FileRequester κ) Unit) now (fun _ after => Rests now after)
      (fun _ _ => False) :=
  Meets.within (Meets.change ⟨rfl, rfl, rfl, rfl, rfl, rfl, rfl⟩)

theorem destination_rests (opened : task.root = some root) :
    (ofExcept task.destination : EStateM Fault (Uploading FileRequester κ) Location) now =
      .ok root now := by
  rw [Task.destination, opened]
  rfl

theorem find_rests {standing : Standing}
    (found : Standing.find root entry.path now.host.disk = .ok standing now.host.disk) :
    (Uploading.onHost (Host.onDisk (Standing.find root entry.path)) :
      EStateM Fault (Uploading FileRequester κ) Standing) now = .ok standing now := by
  unfold Uploading.onHost Host.onDisk within
  dsimp only
  rw [found]

/-- What one step does that finds nothing to do: the end of the list is all that it tells. -/
structure Passed [ByteSink κ] (before after : Uploading FileRequester κ) : Prop where
  rests : Rests { before with
    cursor := before.cursor.advance
    secondary := none
    connection := after.connection } after
  tells : before.cursor.advance.exhausted = true →
    (ByteSink.put (Wire.intBytes Wire.doneIndex) : EStateM Fault κ Unit) before.connection =
      .ok () after.connection
  silent : before.cursor.advance.exhausted = false → after.connection = before.connection

section

variable (opened : task.root = some root)
  (satisfied : options.Satisfied task.files root now.host.disk.tree)

include opened satisfied

theorem examineDirectory_rests (recursive : now.uploader.recursive = options.recursive)
    (listed : entry ∈ task.files) (kind : entry.isDirectory = true) :
    Meets (examineDirectory index entry task) now (fun _ after => Rests now after)
      (fun _ _ => False) := by
  refine Meets.get (Meets.cond (fun _ => info_rests _ _ _) fun recurses => ?_)
  refine Meets.cond (fun _ => Meets.pure (.refl now)) fun _ => ?_
  rw [Bool.not_eq_false, recursive] at recurses
  obtain ⟨attributes, shows, -⟩ := satisfied.settled recurses entry listed kind
  have found := find_rests (κ := κ) (Standing.find_of_shows shows)
  rw [Meets, bind_ok (destination_rests opened), prepareDirectory, bind_ok found]
  exact .refl now

variable [ByteSink κ]

theorem examineFile_rests (listed : entry ∈ task.files) (kind : entry.isRegular = true) :
    Meets (examineFile index entry task) now
      (fun _ after => Rests now after) (fun _ _ => False) := by
  refine Meets.get (Meets.cond (fun _ => info_rests _ _ _) fun _ => ?_)
  obtain ⟨attributes, content, shows, size, time⟩ := satisfied.inPlace entry listed kind
  have found := find_rests (κ := κ) (Standing.find_of_shows shows)
  have current : (Standing.ofNode (.file attributes content)).upToDate entry = true := by
    simp [Standing.upToDate, Standing.ofNode, size, time]
  rw [Meets, bind_ok (destination_rests opened), bind_ok found, if_pos current]
  exact ⟨rfl, rfl, rfl, rfl, rfl, rfl, rfl⟩

theorem examine_rests (recursive : now.uploader.recursive = options.recursive)
    (listed : entry ∈ task.files) :
    Meets (examine index entry task) now (fun _ after => Rests now after) (fun _ _ => False) := by
  refine Meets.cond (fun kind => ?_) fun _ => Meets.cond (fun kind => ?_) fun _ => info_rests _ _ _
  · exact examineDirectory_rests opened satisfied recursive listed kind
  · exact examineFile_rests opened satisfied listed kind

/-- One step passes an entry, or tells the peer that there are no more. -/
theorem advance_rests (recursive : now.uploader.recursive = options.recursive)
    (left : now.cursor.exhausted = false)
    (hears : ∃ connection, (ByteSink.put (Wire.intBytes Wire.doneIndex) : EStateM Fault κ Unit)
      now.connection = .ok () connection) :
    Meets (advance task) now (fun _ after => Passed now after) (fun _ _ => False) := by
  refine Meets.changeThen (Meets.get ?_)
  split
  · next index position =>
    have passed {after : Uploading FileRequester κ}
        (rests : Rests { now with secondary := none } after) :
        Meets (moveOn : EStateM Fault (Uploading FileRequester κ) Unit) after
          (fun _ after => Passed now after) (fun _ _ => False) := by
      refine Meets.change ⟨?_, fun ends => ?_, fun _ => rests.connection⟩
      · exact { rests with cursor := congrArg Cursor.advance rests.cursor, connection := rfl }
      · cases (Cursor.advance_entry position).1.symm.trans ends
    split
    · next entry listed =>
      let disarmed : Uploading FileRequester κ := { now with secondary := none }
      have here : options.Satisfied task.files root disarmed.host.disk.tree := satisfied
      have examines : Meets (examine index entry task) disarmed _ _ :=
        examine_rests opened here recursive (List.mem_of_getElem? listed)
      exact examines.bind fun _ after rests => passed rests
    · exact passed (.refl _)
  · next position =>
    obtain ⟨connection, put⟩ := hears
    have sent : (Wire.writeInt Wire.doneIndex).send now.connection = .ok () connection :=
      (bind_ok ((bind_ok put).trans rfl)).trans rfl
    have sends : (Uploading.send (Wire.writeInt Wire.doneIndex) :
        EStateM Fault (Uploading FileRequester κ) Unit) { now with secondary := none } =
          .ok () { now with secondary := none, connection } := by
      unfold Uploading.send within
      dsimp only
      rw [sent]
    rw [announceEnd, Meets, bind_ok sends]
    refine ⟨⟨rfl, rfl, rfl, rfl, rfl, rfl, rfl⟩, fun _ => put, fun goesOn => ?_⟩
    cases (Cursor.advance_end position).1.symm.trans goesOn
  · next position =>
    have ended := Cursor.position?_eq_none.mp position
    cases left.symm.trans ended

end

end FileRequester

namespace Exchange

variable {κ : Type} [Connection κ] {farewell : Bytes} {owes : Nat → Inflow κ → Bytes → Prop}
  {ready : Inflow κ → Prop} {options : Options} {task : Task} {root : Location} {disk : Disk}
  {now : WholeFiles κ}

/-- An exchange in which nothing was done so far. -/
structure Idle (options : Options) (task : Task) (disk : Disk) (now : WholeFiles κ) : Prop where
  requested : now.uploader.requested = []
  recursive : now.uploader.recursive = options.recursive
  armed : now.secondary = none
  marks : now.newDirectories = .none task.files.length
  pending : now.pending = none
  disk : now.disk = disk

/-- What a peer that only ends the exchange was told by now, and has answered. -/
def Owed (owes : Nat → Inflow κ → Bytes → Prop) (now : WholeFiles κ) : Prop :=
  owes (if now.cursor.exhausted then 1 else 0) now.inflow
    (if now.cursor.exhausted then Wire.intBytes Wire.doneIndex else [])

/-- The end of such an exchange: the peer was heard. -/
structure Ceased (owes : Nat → Inflow κ → Bytes → Prop) (options : Options) (task : Task)
    (disk : Disk) (last : WholeFiles κ) : Prop where
  idle : Idle options task disk last
  heard : owes 1 last.inflow []

section

variable (concludes : Inflow.Concludes farewell owes ready) (idle : Idle options task disk now)
  (owed : Owed owes now)

include concludes idle owed

theorem poll_idles (timeout : Timeout) {beside : Option Descriptor} (alone : beside = none) :
    Meets (explaining (Failure.ofTransport "poll")
      (within (fun exchange : WholeFiles κ => exchange.inflow.source)
        (fun source exchange => { exchange with inflow := { exchange.inflow with source } })
        (Connection.poll timeout beside))) now
      (fun signals after => Idle options task disk after ∧ Owed owes after ∧
        after.cursor = now.cursor ∧ after.left ≤ now.left ∧
        ∃ inbound, Readiness.ofSignals signals.1 signals.2 = .ok { inbound } ∧
          (timeout = .indefinite → now.cursor.exhausted = true → inbound = true) ∧
          (inbound = true → ready after.inflow))
      (fun _ _ => False) := by
  subst alone
  have few : (if now.cursor.exhausted then 1 else 0) ≤ 1 := by split <;> omega
  have polls := concludes.wakes timeout owed few
  refine Meets.explaining (Meets.within (Meets.intro (fun signals source ran => ?_) ?_))
  · have bound := Connection.poll_budget timeout none now.inflow.source
    rw [stateAfter_ok ran] at bound
    obtain ⟨owed, inbound, judged, forced, woke⟩ := polls.of_ok ran
    refine ⟨{ idle with }, owed, rfl, Nat.add_le_add_left bound _, inbound, judged,
      fun waits ended => forced waits ?_, woke⟩
    rw [if_pos ended]
    decide
  · exact fun _ _ failed => polls.of_error failed

theorem wait_idles :
    Meets wait now
      (fun readiness after => Idle options task disk after ∧ Owed owes after ∧
        after.cursor = now.cursor ∧ after.left ≤ now.left ∧ readiness.secondary = false ∧
        (readiness.inbound = true → ready after.inflow) ∧
        (now.cursor.exhausted = true → readiness.inbound = true))
      (fun _ _ => False) := by
  refine Meets.get (Meets.changeThen ?_)
  have noting (steps : List ExchangeStep) : Idle options task disk { now with steps } :=
    { idle with }
  have owing (steps : List ExchangeStep) : Owed owes { now with steps } := owed
  refine (poll_idles concludes (noting _) (owing _) _ idle.armed).bind fun signals woken met => ?_
  obtain ⟨idle', owed, cursor, fewer, inbound, judged, forced, woke⟩ := met
  refine Meets.get ?_
  unfold Journal.wakeUp
  rw [judged]
  refine Meets.changeThen (Meets.changeThen (Meets.pure ?_))
  obtain ⟨owed', woke'⟩ := concludes.reports (woken.inflow.journal.debug .waiting 2 _) owed
  refine ⟨{ idle' with }, owed', cursor, fewer, rfl, fun inbound => woke' (woke inbound), ?_⟩
  exact fun ended => forced (by simp [Timeout.choose, ended]) ended

omit idle in
/-- A step of the uploader tells the peer no more than that the list has ended. -/
theorem uploaded_owes {lent : Uploading FileRequester κ} (left : now.cursor.exhausted = false)
    (passed : FileRequester.Passed now.lendUpload lent) :
    Owed owes (takeUpload lent now) ∧ (takeUpload lent now).left < now.left ∧
      (ready now.inflow → ready (takeUpload lent now).inflow) := by
  have cursor : lent.cursor = now.cursor.advance := passed.rests.cursor
  have next := Cursor.next_advance left
  have total := Cursor.total_advance now.cursor
  have room : now.cursor.next ≤ now.cursor.total := by simpa [Cursor.exhausted] using left
  unfold Owed at owed
  rw [left] at owed
  cases ends : now.cursor.advance.exhausted with
  | true =>
      have told : (ByteSink.put (Wire.intBytes Wire.doneIndex) : EStateM Fault κ Unit)
          now.inflow.source = .ok () lent.connection := passed.tells ends
      obtain ⟨source, put, heard, woke⟩ := concludes.hears owed
      cases put.symm.trans told
      obtain ⟨heard', woke'⟩ := concludes.reports lent.host.journal heard
      have bound := Connection.put_budget (Wire.intBytes Wire.doneIndex) now.inflow.source
      rw [stateAfter_ok told] at bound
      refine ⟨?_, ?_, fun found => woke' (woke found)⟩
      · simp only [Owed, takeUpload, cursor, ends]
        exact heard'
      · simp only [Exchange.left, takeUpload, cursor]
        omega
  | false =>
      have silent : lent.connection = now.inflow.source := passed.silent ends
      obtain ⟨owed', woke'⟩ := concludes.reports lent.host.journal owed
      refine ⟨?_, ?_, ?_⟩
      · simp only [Owed, takeUpload, cursor, ends, silent]
        exact owed'
      · simp only [Exchange.left, takeUpload, cursor, silent]
        omega
      · simp only [takeUpload, silent]
        exact woke'

theorem advanceUploader_idles (opened : task.root = some root)
    (satisfied : options.Satisfied task.files root disk.tree)
    (left : now.cursor.exhausted = false) :
    Meets (advanceUploader task) now
      (fun _ after => Idle options task disk after ∧ Owed owes after ∧ after.left < now.left ∧
        (ready now.inflow → ready after.inflow))
      (fun _ _ => False) := by
  have here : options.Satisfied task.files root now.lendUpload.host.disk.tree := by
    rw [← idle.disk] at satisfied
    exact satisfied
  have owing := owed
  unfold Owed at owing
  rw [left] at owing
  obtain ⟨source, put, -⟩ := concludes.hears owing
  have steps := FileRequester.advance_rests opened here idle.recursive left ⟨source, put⟩
  have uploads : Meets (within lendUpload takeUpload (Uploader.advance task)) now
      (fun _ after => Idle options task disk after ∧ Owed owes after ∧ after.left < now.left ∧
        (ready now.inflow → ready after.inflow)) (fun _ _ => False) := by
    refine Meets.within (steps.mono (fun _ lent passed => ⟨?_, ?_⟩) fun _ _ => id)
    · exact {
        requested := passed.rests.requested.trans idle.requested
        recursive := passed.rests.recursive.trans idle.recursive
        armed := passed.rests.armed
        marks := passed.rests.marks.trans idle.marks
        pending := idle.pending
        disk := passed.rests.disk.trans idle.disk }
    · exact uploaded_owes concludes owed left passed
  refine Meets.attempt uploads (fun _ after met => ?_) fun _ _ => False.elim
  exact Meets.change ⟨{ met.1 with }, met.2⟩

theorem contentWaits_idles (found : ready now.inflow) :
    Meets contentWaits now
      (fun waits after => Idle options task disk after ∧ Owed owes after ∧
        after.cursor = now.cursor ∧ after.left ≤ now.left ∧
        (waits = true → now.cursor.exhausted = true) ∧ (waits = false → after.left < now.left))
      (fun _ _ => False) := by
  have answered (nonempty : (if now.cursor.exhausted then Wire.intBytes Wire.doneIndex else []) ≠ []) :
      now.cursor.exhausted = true := by
    by_contra left
    exact nonempty (if_neg left)
  refine Meets.get (Meets.cond (fun framed => ?_) fun plain => ?_)
  · have flushes := concludes.flushes owed found framed
    have flushed : Meets (within Exchange.inflow (fun inflow exchange => { exchange with inflow })
        Inflow.flush) now
        (fun _ after => Idle options task disk after ∧ Owed owes after ∧
          after.cursor = now.cursor ∧ after.left ≤ now.left ∧
          (0 < after.inflow.remaining → now.cursor.exhausted = true) ∧
          (¬ 0 < after.inflow.remaining → after.left < now.left)) (fun _ _ => False) := by
      refine Meets.within (Meets.intro (fun _ inflow ran => ?_) ?_)
      · obtain ⟨owed, payload⟩ := flushes.of_ok ran
        refine ⟨{ idle with }, owed, rfl, ?_⟩
        rcases Inflow.flush_spends framed ran with spent | ⟨waiting, rfl⟩
        · have header : MessageHeader.width = 4 := rfl
          simp only [Exchange.left]
          exact ⟨by omega, fun nonempty => answered (payload nonempty), fun _ => by omega⟩
        · exact ⟨Nat.le_refl _, fun nonempty => answered (payload nonempty), fun nothing => absurd waiting nothing⟩
      · exact fun _ _ failed => flushes.of_error failed
    refine (Meets.explaining flushed).bind fun _ after met => Meets.get (Meets.changeThen ?_)
    obtain ⟨idle, owed, cursor, fewer, payload, spent⟩ := met
    refine Meets.pure ⟨{ idle with }, owed, cursor, fewer, ?_, ?_⟩
    · exact fun waits => payload (of_decide_eq_true waits)
    · exact fun quiet => spent (of_decide_eq_false quiet)
  · have plain : now.inflow.multiplexed = false := by simpa using plain
    refine Meets.pure ⟨idle, owed, rfl, Nat.le_refl _,
      fun _ => answered (concludes.plain owed found plain), fun quiet => ?_⟩
    cases quiet

/-- The end of the content is all that comes. -/
theorem startNext_idles (ended : now.cursor.exhausted = true) :
    Meets (FileCollector.advance task) now.lendDownload
      (fun outcome lent => outcome = .complete ∧ lent.pending = none ∧ lent.disk = now.disk ∧
        owes 1 lent.inflow []) (fun _ _ => False) := by
  unfold Owed at owed
  rw [ended, if_pos rfl, if_pos rfl, ← List.append_nil (Wire.intBytes _)] at owed
  obtain ⟨inflow, read, heard⟩ :=
    Decodes.readInt (concludes.feeds 1) Wire.doneIndex now.inflow [] owed
  have received : (Downloading.receive Wire.readInt : FileCollector.Step κ Int32)
      now.lendDownload = .ok Wire.doneIndex { now.lendDownload with inflow } := by
    have here : now.lendDownload.inflow = now.inflow := rfl
    unfold Downloading.receive within
    rw [here, read]
  have idles : now.lendDownload.pending = none := idle.pending
  refine Meets.get ?_
  rw [idles]
  change Meets (FileCollector.startNext task) _ _ _
  rw [Meets, FileCollector.startNext, bind_ok received, if_pos rfl]
  exact ⟨rfl, idle.pending, rfl, (concludes.reports _ heard).1⟩

theorem advanceDownloader_idles (ended : now.cursor.exhausted = true) :
    Meets (advanceDownloader task) now
      (fun outcome after => outcome = .complete ∧ after.cursor = now.cursor ∧
        Ceased owes options task disk after) (fun _ _ => False) := by
  have downloads : Meets (within lendDownload takeDownload (Downloader.advance task)) now
      (fun outcome after => outcome = .complete ∧ after.cursor = now.cursor ∧
        Ceased owes options task disk after) (fun _ _ => False) := by
    refine Meets.within ((startNext_idles concludes idle owed ended).mono ?_ fun _ _ => id)
    rintro outcome lent ⟨rfl, pending, same, heard⟩
    exact ⟨rfl, rfl, { idle with pending, disk := same.trans idle.disk }, heard⟩
  refine Meets.attempt downloads (fun outcome after met => ?_) fun _ _ => False.elim
  obtain ⟨complete, cursor, idle, heard⟩ := met
  exact Meets.changeThen (Meets.pure ⟨complete, cursor, { idle with }, heard⟩)

omit [Connection κ] concludes idle owed in
theorem checkComplete_ceased (pending : now.pending = none) (ended : now.cursor.exhausted = true) :
    Meets (checkComplete task) now (fun phase last => phase = .awaitingAck ∧ last = now)
      (fun _ _ => False) := by
  refine Meets.get (Meets.cond (fun goesOn => ?_) fun _ => Meets.cond (fun held => ?_) fun _ => ?_)
  · cases ended.symm.trans goesOn
  · simp [pending] at held
  · exact Meets.pure ⟨rfl, rfl⟩

/-- Nothing is taken but the end of the content, and only when the list has ended. -/
theorem takeWaiting_idles {readiness : Readiness}
    (found : readiness.inbound = true → ready now.inflow) :
    Meets (takeWaiting task readiness) now
      (fun phase after =>
        (phase = none ∧ Idle options task disk after ∧ Owed owes after ∧ after.left ≤ now.left ∧
          (readiness.inbound = true → after.left < now.left)) ∨
        phase = some .awaitingAck ∧ Ceased owes options task disk after)
      (fun _ _ => False) := by
  refine Meets.cond (fun quiet => ?_) fun wakes => ?_
  · refine Meets.pure (.inl ⟨rfl, idle, owed, Nat.le_refl _, fun inbound => ?_⟩)
    cases quiet.symm.trans inbound
  have found := found (by simpa using wakes)
  refine (contentWaits_idles concludes idle owed found).bind fun waits middle met => ?_
  obtain ⟨idle, owed, cursor, fewer, last, spent⟩ := met
  refine Meets.cond (fun nothing => ?_) fun waiting => ?_
  · exact Meets.pure (.inl ⟨rfl, idle, owed, fewer, fun _ => spent nothing⟩)
  have ended := last (by simpa using waiting)
  refine (advanceDownloader_idles concludes idle owed (cursor ▸ ended)).bind
    fun outcome after met => ?_
  obtain ⟨rfl, cursor', ceased⟩ := met
  have passed : after.cursor.exhausted = true := by
    rw [cursor', cursor]
    exact ended
  exact (checkComplete_ceased ceased.idle.pending passed).bind fun phase last met =>
    Meets.pure (.inr ⟨congrArg some met.1, met.2 ▸ ceased⟩)

theorem round_idles (opened : task.root = some root)
    (satisfied : options.Satisfied task.files root disk.tree) :
    Meets (round task) now
      (fun phase after =>
        (phase = none ∧ Idle options task disk after ∧ Owed owes after ∧ after.left < now.left) ∨
        phase = some .awaitingAck ∧ Ceased owes options task disk after)
      (fun _ _ => False) := by
  refine (wait_idles concludes idle owed).bind fun readiness woken met => ?_
  obtain ⟨idle, owed, cursor, fewer, alone, found, forced⟩ := met
  refine Meets.get (Meets.cond (fun goesOn => ?_) fun rests => ?_)
  · have left : woken.cursor.exhausted = false := by simpa [alone] using goesOn
    refine (advanceUploader_idles concludes idle owed opened satisfied left).bind
      fun _ middle met => ?_
    obtain ⟨idle, owed, less, still⟩ := met
    refine (takeWaiting_idles concludes idle owed fun inbound => still (found inbound)).mono
      (fun phase after met => met.imp_left fun rests => ?_) fun _ _ => id
    obtain ⟨nothing, idle, owed, fewer', -⟩ := rests
    exact ⟨nothing, idle, owed, by omega⟩
  · have ended : now.cursor.exhausted = true := by
      rw [cursor] at rests
      simpa [alone] using rests
    refine (takeWaiting_idles concludes idle owed found).mono
      (fun phase after met => met.imp_left fun rests => ?_) fun _ _ => id
    obtain ⟨nothing, idle, owed, -, spent⟩ := rests
    have less := spent (forced ended)
    exact ⟨nothing, idle, owed, by omega⟩

/-- The rounds that are granted are enough to come to the end. -/
theorem roundsUpTo_idles (opened : task.root = some root)
    (satisfied : options.Satisfied task.files root disk.tree) {limit granted : Nat}
    (enough : now.left < granted) :
    Meets (roundsUpTo task limit granted) now
      (fun phase last => phase = .awaitingAck ∧ Ceased owes options task disk last)
      (fun _ _ => False) := by
  -- on the rounds granted; each round that another follows leaves less to do
  induction granted generalizing now with
  | zero => exact absurd enough (Nat.not_lt_zero _)
  | succ granted ih =>
      refine (round_idles concludes idle owed opened satisfied).bind fun phase after met => ?_
      rcases met with ⟨rfl, idle, owed, less⟩ | ⟨rfl, ceased⟩
      · exact ih idle owed (by omega)
      · exact Meets.pure ⟨rfl, ceased⟩

end

end Exchange

end TreeSync

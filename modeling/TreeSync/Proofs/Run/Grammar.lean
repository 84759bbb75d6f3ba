import TreeSync.Proofs.Run.EventLoop
import TreeSync.Proofs.Transfer.Asking
import TreeSync.Proofs.Transfer.Progress

namespace TreeSync

/-! What a run tells its peer.

The greeting, the uploader, the end of the exchange and the farewell write to one stream,
and what an end mark means there is settled by its place alone. The stage that a run has
come to settles how much of its word was said.
-/

open TreeSync.Action TreeSync.Speech

namespace FileCollector

theorem onlyReads (κ : Type) [ByteSource κ] : Downloader.OnlyReads FileCollector κ :=
  fun task lent => ((advance_draws .any (fun _ => .any _) task).after lent).multiplexed

end FileCollector

namespace Exchange

variable {κ : Type} [Connection κ] {transcript : Transcript κ} {sent : κ → Bytes → Prop}
  {task : Task} {options : Options} {first now after : WholeFiles κ} {requests : List Nat}

/-- What a step leaves alone in which the uploader rests. -/
structure Hushed (sent : κ → Bytes → Prop) (before after : WholeFiles κ) : Prop where
  uploader : after.uploader = before.uploader
  cursor : after.cursor = before.cursor
  silent : Silent sent before.inflow.source after.inflow.source

omit [Connection κ] in
theorem Hushed.accumulates : Accumulates (Hushed sent) where
  refl now := ⟨rfl, rfl, Silent.accumulates.refl now.inflow.source⟩
  trans earlier later :=
    { uploader := later.uploader.trans earlier.uploader
      cursor := later.cursor.trans earlier.cursor
      silent := Silent.accumulates.trans earlier.silent later.silent }

omit [Connection κ] in
theorem note_hushed {ε : Type} (step : ExchangeStep) :
    Keeps (Hushed sent) (note step : EStateM ε (WholeFiles κ) Unit) :=
  .change fun now => ⟨rfl, rfl, Silent.accumulates.refl now.inflow.source⟩

theorem wait_hushed (polls : ∀ timeout beside, Keeps (Silent sent)
      (Connection.poll timeout beside : EStateM Fault κ (Signals × Option Signals))) :
    Keeps (Hushed sent) (wait : Step FileRequester FileCollector ArrivingFile κ _) := by
  have trans : Accumulates (Hushed sent) := Hushed.accumulates
  refine .get fun exchange => .bind trans (note_hushed _) fun _ _ => ?_
  refine .bind trans (.explaining (.within (polls _ _) ?_)) fun signals _ => ?_
  · exact fun _ _ silent => ⟨rfl, rfl, silent⟩
  refine .get fun woken => ?_
  split
  · exact .throw trans
  · refine .bind trans (.change fun now => ?_) fun _ _ => ?_
    · exact ⟨rfl, rfl, Silent.accumulates.refl now.inflow.source⟩
    · exact .bind trans (note_hushed _) fun _ _ => .pure trans trivial

theorem contentWaits_hushed (reads : ByteSource.Respects (Silent sent)) :
    Keeps (Hushed sent) (contentWaits : Step FileRequester FileCollector ArrivingFile κ _) := by
  have trans : Accumulates (Hushed sent) := Hushed.accumulates
  have flushes := Inflow.flush_draws Silent.accumulates reads
  refine .get fun exchange => .cond ?_ (.pure trans trivial)
  refine .bind trans (.explaining (.within flushes ?_)) fun _ _ => ?_
  · exact fun _ _ drawn => ⟨rfl, rfl, drawn.source⟩
  · exact .get fun flushed => .bind trans (note_hushed _) fun _ _ => .pure trans trivial

theorem advanceDownloader_hushed (reads : ByteSource.Respects (Silent sent)) (task : Task) :
    Keeps (Hushed sent)
      (advanceDownloader task : Step FileRequester FileCollector ArrivingFile κ _) := by
  have trans : Accumulates (Hushed sent) := Hushed.accumulates
  have draws := FileCollector.advance_draws Silent.accumulates reads task
  refine .bind trans (.attempt (.within draws ?_)) fun outcome _ => ?_
  · exact fun _ _ drawn => ⟨rfl, rfl, drawn.source⟩
  split
  · exact .bind trans (note_hushed _) fun _ _ => .pure trans trivial
  · exact .bind trans (note_hushed _) fun _ _ => .throw trans

/-- All that was said up to a moment of an exchange. -/
abbrev Said (sent : κ → Bytes → Prop) (options : Options) (task : Task) (requests : List Nat)
    (now : WholeFiles κ) : Prop :=
  FileRequester.Said sent options task requests now.lendUpload

omit [Connection κ] in
theorem Hushed.said (hushed : Hushed sent now after) (known : Said sent options task requests now) :
    Said sent options task requests after :=
  known.silent hushed.silent hushed.cursor (by rw [lendUpload, hushed.uploader]; rfl)

theorem advanceUploader_said (strength : task.checksum = options.checksum)
    (known : Said transcript.sent options task requests now) :
    Meets (advanceUploader task) now
      (fun _ after => ∃ requests, Said transcript.sent options task requests after)
      (fun _ after => ∃ requests, Said transcript.sent options task requests after) := by
  have uploads := FileRequester.advance_meets transcript.accepts strength known
  refine advanceUploader_lent (uploads.mono ?_ ?_) (fun _ _ => id) fun _ _ _ => id
  · exact fun _ _ later => later.1
  · exact fun _ _ later => ⟨requests, later⟩

/-- At every moment of an exchange the greeting, the requests made so far and the mark
that ends them are what was said. -/
theorem Visits.said (visited : Visits task first now) (strength : task.checksum = options.checksum)
    (known : Said transcript.sent options task requests first) :
    ∃ requests, Said transcript.sent options task requests now := by
  refine visited.maintained (fun now => ∃ requests, Said transcript.sent options task requests now)
    ⟨requests, known⟩ ?_ ?_ ?_ ?_
  · exact fun now known => known.imp fun _ => ((wait_hushed transcript.polls).after now).said
  · rintro now ⟨requests, known⟩
    exact (advanceUploader_said strength known).stateAfter
  · exact fun now known => known.imp fun _ => ((contentWaits_hushed transcript.reads).after now).said
  · exact fun now known =>
      known.imp fun _ => ((advanceDownloader_hushed transcript.reads task).after now).said

omit [Connection κ] in
theorem abandonPending_said (known : Said sent options task requests now) :
    Said sent options task requests (abandonPending now) := by
  unfold abandonPending
  split
  · exact known
  · exact known.silent (Silent.accumulates.refl _) rfl rfl

end Exchange

namespace Running

variable {ς κ : Type} [Connection κ] {transcript : Transcript κ} {options : Options}
  {requests : List Nat} {root : Path} {task : Task}

section Stages

variable {υ δ γ : Type} {start now : Running υ δ ς κ} {sent : κ → Bytes → Prop} {breaks : Prop}

/-- Whether just these ints were said. -/
def Says (sent : κ → Bytes → Prop) (ints : List Int32) (running : Running υ δ ς κ) : Prop :=
  sent running.inflow.source (bytes ints)

omit [Connection κ] in
theorem Spares.uttered {ints : List Int32} {after : Running υ δ ς κ}
    (spares : Spares (Silent sent) now after) (uttered : now.Says sent ints) : after.Says sent ints :=
  spares.inflow.source _ uttered

theorem send_uttered (adds : ByteSink.Adds sent fun _ _ => breaks) {ints : List Int32}
    (step : String) (value : Int32) (uttered : now.Says sent ints) :
    Meets (send step (Wire.writeInt value)) now
      (fun _ after => after.Says sent (ints ++ [value]) ∧
        after.endpoint.options = now.endpoint.options)
      (fun _ _ => breaks) := by
  refine Meets.explaining (Meets.within ?_)
  refine (Emission.send_meets adds rfl uttered).mono (fun _ _ held => ⟨?_, rfl⟩) ?_
  · simpa [Says, bytes_append, bytes, Wire.writeInt, Emission.write, Emission.bytes] using held
  · exact fun _ _ => id

variable [Sandbox ς]

/-- A client is heard first, before anything is read. -/
theorem prepare_uttered (adds : ByteSink.Adds sent fun _ _ => breaks)
    (reads : ByteSource.Respects (Silent sent)) (fresh : start.Says sent []) :
    Meets (prepare root) start
      (fun found after => after.Says sent (greeting start.endpoint.options) ∧
        (found = none → start.endpoint.options.server = false))
      (fun _ after => breaks ∨ ∃ ints, ints <+: greeting start.endpoint.options ∧
        after.Says sent ints) := by
  have silent : Accumulates (Silent sent) := Silent.accumulates
  have trans := Spares.accumulates (υ := υ) (δ := δ) (ς := ς) silent
  have listens {now : Running υ δ ς κ}
      (uttered : now.Says sent (greeting start.endpoint.options)) :
      Meets (receiveList >>= makeRoot root start.endpoint.options) now
        (fun found after => after.Says sent (greeting start.endpoint.options) ∧
          (found = none → start.endpoint.options.server = false))
        (fun _ after => breaks ∨ ∃ ints, ints <+: greeting start.endpoint.options ∧
          after.Says sent ints) := by
    have listening : Keeps (Spares (Silent sent))
        (receiveList >>= makeRoot root start.endpoint.options : Step υ δ ς κ _)
        fun found => found = none → start.endpoint.options.server = false :=
      .bind trans (receiveList_spares silent reads) fun files _ =>
        (makeRoot_spares silent root start.endpoint.options files).mono
          (fun _ _ => id) fun _ skipped nothing => (skipped nothing).1
    refine (listening now).mono (fun found after met => ⟨met.1.uttered uttered, met.2⟩) ?_
    exact fun _ after spared => .inr ⟨_, List.prefix_rfl, spared.uttered uttered⟩
  refine Meets.get ?_
  refine (onSandbox_spares silent _ _ _ start).followedBy ?_ fun _ confined met => ?_
  · exact fun _ after spared => .inr ⟨[], List.nil_prefix, spared.uttered fresh⟩
  have uttered := met.1.uttered fresh
  refine Meets.cond (fun client => ?_) fun server => ?_
  · refine (send_uttered adds _ _ uttered).followedBy (fun _ _ => .inl) fun _ after met => listens ?_
    simpa [greeting, client] using met.1
  · refine listens ?_
    simpa [greeting, server] using uttered

/-- A run is readied with its greeting said and nothing else. -/
theorem readying_uttered (adds : ByteSink.Adds sent fun _ _ => breaks)
    (reads : ByteSource.Respects (Silent sent)) (fresh : start.Says sent []) :
    Meets (readying root) start
      (fun found after => after.Says sent (greeting start.endpoint.options) ∧
        (∀ task, found = some task → task.checksum = after.endpoint.options.checksum) ∧
        (found = none → start.endpoint.options.server = false))
      (fun _ after => breaks ∨ ∃ ints, ints <+: greeting start.endpoint.options ∧
        after.Says sent ints) := by
  have silent : Accumulates (Silent sent) := Silent.accumulates
  have stopped {after : Running υ δ ς κ} (uttered : after.Says sent (greeting start.endpoint.options)) :
      breaks ∨ ∃ ints, ints <+: greeting start.endpoint.options ∧ after.Says sent ints :=
    .inr ⟨_, List.prefix_rfl, uttered⟩
  have opens : Meets (opening root) start
      (fun found after => after.Says sent (greeting start.endpoint.options) ∧
        (found = none → start.endpoint.options.server = false))
      (fun _ after => breaks ∨ ∃ ints, ints <+: greeting start.endpoint.options ∧
        after.Says sent ints) := by
    refine (prepare_uttered adds reads fresh).bind fun found prepared met => ?_
    obtain ⟨uttered, skips⟩ := met
    cases found with
    | none => exact Meets.pure ⟨uttered, fun _ => skips rfl⟩
    | some files =>
        have opening := openRoot_spares (υ := υ) (δ := δ) (ς := ς) silent root
        refine Meets.get (Meets.changeThen ((opening _).followedBy ?_ ?_))
        · exact fun _ _ spared => stopped (spared.uttered uttered)
        · exact fun _ _ met => Meets.pure ⟨met.1.uttered uttered, nofun⟩
  refine opens.bind fun found opened met => ?_
  obtain ⟨uttered, skips⟩ := met
  cases found with
  | none => exact Meets.pure ⟨uttered, nofun, skips⟩
  | some task =>
      refine (makeReady_spares silent root task.root task.files opened).followedBy ?_ ?_
      · exact fun _ _ spared => stopped (spared.uttered uttered)
      · intro _ ready met
        refine options_then (Meets.pure ⟨met.1.uttered uttered, fun task same => ?_, nofun⟩)
        cases same
        rfl

end Stages

/-- What is done before the end of the exchange is announced. -/
def finalize {υ δ : Type} (root : Path) (task : Task) (marks : NewDirectories) :
    Step υ δ ς κ Fixups := do
  info .misc 2 (root.display ++ ": receiver ready for phase 2 data")
  fixUp task.root task.files marks

variable {start ready ended : Running FileRequester FileCollector ς κ}

/-- The downloader has seen the end of the content, and the directories are fixed up. -/
inductive Finalized [Sandbox ς] (root : Path) (start fixed : Running FileRequester FileCollector ς κ) : Prop
  | intro {task : Task} {ready ended : Running FileRequester FileCollector ς κ}
      {rounds : List Round} {last : Exchange.WholeFiles κ} {marks : NewDirectories}
      {fixups : Fixups} (readied : readying root start = .ok (some task) ready)
      (finished : Exchange.Finished task (beginExchange task.files.length ready) rounds last)
      (exchanged : exchange task ready = .ok (.awaitingAck, marks) ended)
      (finalized : finalize root task marks ended = .ok fixups fixed)

/-- What a run said in the end, and what it had come to before each of its end marks. -/
structure Utters [Sandbox ς] (sent : κ → Bytes → Prop) (root : Path)
    (start : Running FileRequester FileCollector ς κ) (requests : List Nat) (said : List Int32) :
    Prop where
  uttered : (stateAfter (run root) start).Says sent said
  fits : said <+: word start.endpoint.options requests 3
  rising : requests.Pairwise (· < ·)
  regular : ∀ index ∈ requests, index < 0x80000000 ∧ ∃ files prepared entry,
    prepare root start = .ok (some files) prepared ∧ files[index]? = some entry ∧
      entry.isRegular = true
  dry : start.endpoint.options.dryRun = true → requests = []
  whole : ∀ outcome after, run root start = .ok outcome after →
    if outcome.skippedEmpty then start.endpoint.options.server = false ∧ said = [0]
    else said = word start.endpoint.options requests 3
  second : word start.endpoint.options requests 2 <+: said →
    ∃ fixed, Finalized root start fixed ∧
      fixed.Says sent (word start.endpoint.options requests 1)
  third : word start.endpoint.options requests 3 <+: said →
    ∃ fixed agreed told totals, Finalized root start fixed ∧
      agreeOnEnd .awaitingAck fixed = .ok .done agreed ∧
      receiveTotals agreed = .ok totals told ∧
      (start.endpoint.options.server = false → totals.isSome = true) ∧
      told.Says sent (word start.endpoint.options requests 2)

section Farewell

/-- How far the farewell came: so many end marks were said, the second of them after the
directories were fixed up and the third after the peer had answered. -/
structure Parted (sent : κ → Bytes → Prop) (root : Path) (task : Task) (marks : NewDirectories)
    (requests : List Nat) (ended after : Running FileRequester FileCollector ς κ) (said : Nat) :
    Prop where
  uttered : after.Says sent (word ended.endpoint.options requests said)
  began : 1 ≤ said
  le : said ≤ 3
  second : 2 ≤ said → ∃ fixups fixed, finalize root task marks ended = .ok fixups fixed ∧
    fixed.Says sent (word ended.endpoint.options requests 1)
  third : 3 ≤ said → ∃ fixups fixed agreed told totals,
    finalize root task marks ended = .ok fixups fixed ∧
      agreeOnEnd .awaitingAck fixed = .ok .done agreed ∧
      receiveTotals agreed = .ok totals told ∧
      (ended.endpoint.options.server = false → totals.isSome = true) ∧
      told.Says sent (word ended.endpoint.options requests 2)

theorem word_mark (options : Options) (requests : List Nat) (marks : Nat) :
    word options requests marks ++ [Wire.doneIndex] = word options requests (marks + 1) := by
  simp [word, List.replicate_succ']

theorem receiveTotals_told {running : Running FileRequester FileCollector ς κ} :
    Meets receiveTotals running
      (fun totals _ => running.endpoint.options.server = false → totals.isSome = true)
      (fun _ _ => True) := by
  refine options_then (Meets.cond (fun server => Meets.pure fun client => ?_) fun _ => ?_)
  · rw [server] at client
    cases client
  · refine (Meets.ran _).followedBy (fun _ _ _ => trivial) fun totals _ _ => ?_
    exact Meets.changeThen (Meets.pure fun _ => rfl)

theorem agreeOnEnd_uttered (transcript : Transcript κ)
    {fixed : Running FileRequester FileCollector ς κ}
    (uttered : fixed.Says transcript.sent (word options requests 1)) :
    Meets (agreeOnEnd .awaitingAck) fixed
      (fun phase after => phase = .done ∧ after.Says transcript.sent (word options requests 2) ∧
        after.endpoint.options = fixed.endpoint.options)
      (fun _ after => after.Says transcript.sent (word options requests 2)) := by
  have silent : Accumulates (Silent transcript.sent) := Silent.accumulates
  have reading := Wire.readDone_keeps (Inflow.Drawn.accumulates silent)
    (Inflow.read_draws silent transcript.reads)
  refine (send_uttered transcript.accepts _ _ uttered).followedBy (fun _ _ => False.elim) fun _ announced met => ?_
  obtain ⟨uttered, same⟩ := met
  rw [word_mark] at uttered
  refine (receive_spares _ (reading _) announced).followedBy (fun _ _ spared => spared.uttered uttered) ?_
  intro _ after met
  exact Meets.changeThen (Meets.pure ⟨rfl, met.1.uttered uttered, met.1.options.trans same⟩)

theorem Parted.one {sent : κ → Bytes → Prop} {marks : NewDirectories}
    {after : Running FileRequester FileCollector ς κ}
    (uttered : after.Says sent (word ended.endpoint.options requests 1)) :
    Parted sent root task marks requests ended after 1 where
  uttered := uttered
  began := Nat.le_refl 1
  le := by omega
  second two := by omega
  third three := by omega

theorem Parted.two {sent : κ → Bytes → Prop} {marks : NewDirectories} {fixups : Fixups}
    {fixed after : Running FileRequester FileCollector ς κ}
    (finalized : finalize root task marks ended = .ok fixups fixed)
    (before : fixed.Says sent (word ended.endpoint.options requests 1))
    (uttered : after.Says sent (word ended.endpoint.options requests 2)) :
    Parted sent root task marks requests ended after 2 where
  uttered := uttered
  began := by omega
  le := by omega
  second _ := ⟨fixups, fixed, finalized, before⟩
  third three := by omega

theorem conclude_uttered (transcript : Transcript κ) (removals : Removals) (marks : NewDirectories)
    (uttered : ended.Says transcript.sent (word ended.endpoint.options requests 1)) :
    Meets (conclude root task.root task.files removals .awaitingAck marks) ended
      (fun outcome after => outcome.skippedEmpty = false ∧
        Parted transcript.sent root task marks requests ended after 3)
      (fun _ after => ∃ said, Parted transcript.sent root task marks requests ended after said) := by
  have silent : Accumulates (Silent transcript.sent) := Silent.accumulates
  have fixing := fixUp_spares (υ := FileRequester) (δ := FileCollector) (ς := ς) silent task.root
    task.files marks
  have totalling := receiveTotals_spares (υ := FileRequester) (δ := FileCollector) (ς := ς) silent
    transcript.reads
  refine Meets.changeThen ((Meets.ran _).followedBy (fun _ after failed => ?_) ?_)
  · exact ⟨1, .one ((fixing.of_error failed).uttered uttered)⟩
  intro fixups fixed fixes
  have finalized : finalize root task marks ended = .ok fixups fixed := fixes
  have spared := fixing.of_ok fixes
  have one := spared.uttered uttered
  refine (Meets.ran _).followedBy (fun _ after failed => ?_) fun phase agreed agrees => ?_
  · exact ⟨2, .two finalized one ((agreeOnEnd_uttered transcript one).of_error failed)⟩
  obtain ⟨rfl, two, same⟩ := (agreeOnEnd_uttered transcript one).of_ok agrees
  refine (Meets.ran _).followedBy (fun _ after failed => ?_) fun totals told tells => ?_
  · exact ⟨2, .two finalized one ((totalling.of_error failed).uttered two)⟩
  have two := (totalling.of_ok tells).uttered two
  have given := receiveTotals_told.of_ok tells
  rw [same.trans spared.options] at given
  refine (send_uttered transcript.accepts _ _ two).followedBy (fun _ _ => False.elim) fun _ after met => ?_
  obtain ⟨three, -⟩ := met
  rw [word_mark] at three
  exact Meets.changeThen (Meets.pure ⟨rfl, three, by omega, Nat.le_refl 3,
    fun _ => ⟨fixups, fixed, finalized, one⟩,
    fun _ => ⟨fixups, fixed, agreed, told, totals, finalized, agrees, tells, given, two⟩⟩)

end Farewell

theorem readying_prepared [Sandbox ς] (readied : readying root start = .ok (some task) ready) :
    ∃ prepared, prepare root start = .ok (some task.files) prepared := by
  have reached : Meets (readying root) start
      (fun found _ => ∀ task, found = some task →
        ∃ prepared, prepare root start = .ok (some task.files) prepared)
      (fun _ _ => True) := by
    refine (Meets.ran (opening root)).followedBy (fun _ _ _ => trivial) fun found opened ran => ?_
    cases found with
    | none => exact Meets.pure nofun
    | some task =>
        refine (Meets.ran _).followedBy (fun _ _ _ => trivial) fun _ ready _ => ?_
        refine options_then (Meets.pure fun task same => ?_)
        cases same
        obtain ⟨prepared, listed, -⟩ := opening_ok ran
        exact ⟨prepared, listed⟩
  exact reached.of_ok readied task rfl

namespace Utters

variable [Sandbox ς] {sent : κ → Bytes → Prop} {said : List Int32} {marks : Nat}

/-- A run that does not come to its exchange tells no more than its greeting. -/
theorem early (uttered : (stateAfter (run root) start).Says sent said)
    (short : said <+: greeting start.endpoint.options)
    (skipped : ∀ outcome after, run root start = .ok outcome after →
      outcome.skippedEmpty = true ∧ start.endpoint.options.server = false ∧ said = [0]) :
    Utters sent root start [] said := by
  have late (marks : Nat) (leads : word start.endpoint.options [] (marks + 1) <+: said) : False := by
    have longer := (leads.trans short).length_le
    simp only [word, List.flatMap_nil, List.length_append, List.length_replicate] at longer
    omega
  refine
    { uttered
      fits := short.trans ?_
      rising := .nil
      regular := List.forall_mem_nil _
      dry := fun _ => rfl
      whole := fun outcome after ran => ?_
      second := fun leads => (late 1 leads).elim
      third := fun leads => (late 2 leads).elim }
  · simp [word]
  · obtain ⟨skips, client⟩ := skipped outcome after ran
    rwa [if_pos skips]

/-- A run that does tells the word for its requests, up to one of its end marks. -/
theorem late {exchange : Exchange.WholeFiles κ}
    (known : Exchange.Said sent start.endpoint.options task requests exchange)
    (readied : readying root start = .ok (some task) ready)
    (uttered : (stateAfter (run root) start).Says sent (word start.endpoint.options requests marks))
    (le : marks ≤ 3)
    (whole : ∀ outcome after, run root start = .ok outcome after →
      outcome.skippedEmpty = false ∧ marks = 3)
    (second : 2 ≤ marks → ∃ fixed, Finalized root start fixed ∧
      fixed.Says sent (word start.endpoint.options requests 1))
    (third : 3 ≤ marks → ∃ fixed agreed told totals, Finalized root start fixed ∧
      agreeOnEnd .awaitingAck fixed = .ok .done agreed ∧
      receiveTotals agreed = .ok totals told ∧
      (start.endpoint.options.server = false → totals.isSome = true) ∧
      told.Says sent (word start.endpoint.options requests 2)) :
    Utters sent root start requests (word start.endpoint.options requests marks) where
  uttered := uttered
  fits := word_leads le
  rising := known.rising
  regular index among := by
    obtain ⟨small, entry, listed, regular⟩ := known.regular index among
    obtain ⟨prepared, listing⟩ := readying_prepared readied
    exact ⟨small, task.files, prepared, entry, listing, listed, regular⟩
  dry := known.dry
  whole outcome after ran := by
    obtain ⟨goes, all⟩ := whole outcome after ran
    rw [goes, all]
    rfl
  second leads := second (le_of_word_leads leads)
  third leads := third (le_of_word_leads leads)

/-- A run that comes to its farewell tells as many end marks as that does. -/
theorem parted {last exchange : Exchange.WholeFiles κ} {rounds : List Round} {umask : UInt32}
    {made : NewDirectories} {removals : Removals}
    {after : Running FileRequester FileCollector ς κ}
    (known : Exchange.Said sent start.endpoint.options task requests exchange)
    (readied : readying root start = .ok (some task) ready)
    (finished : Exchange.Finished task (beginExchange task.files.length ready) rounds last)
    (exchanged : Running.exchange task ready = .ok (.awaitingAck, made) ended)
    (kept : ended.endpoint.options = start.endpoint.options)
    (goesOn : run root start = ensuring
      (conclude root task.root task.files removals .awaitingAck made) (withUmask umask) ended)
    (parted : Parted sent root task made requests ended after marks)
    (left : stateAfter (conclude root task.root task.files removals .awaitingAck made) ended = after)
    (whole : ∀ outcome after, run root start = .ok outcome after →
      outcome.skippedEmpty = false ∧ marks = 3) :
    Utters sent root start requests (word start.endpoint.options requests marks) := by
  obtain ⟨uttered, -, le, second, third⟩ := parted
  rw [kept] at uttered second third
  refine .late known readied ?_ le whole (fun two => ?_) fun three => ?_
  · rw [stateAfter_congr goesOn, stateAfter_ensuring, left]
    exact uttered
  · obtain ⟨fixups, fixed, finalized, before⟩ := second two
    exact ⟨fixed, ⟨readied, finished, exchanged, finalized⟩, before⟩
  · obtain ⟨fixups, fixed, agreed, told, totals, finalized, rest⟩ := third three
    exact ⟨fixed, agreed, told, totals, ⟨readied, finished, exchanged, finalized⟩, rest⟩

end Utters

omit [Connection κ] in
theorem beginExchange_said {sent : κ → Bytes → Prop} (total : Nat)
    (uttered : ready.Says sent (greeting options))
    (obeys : ready.endpoint.uploader.dryRun = options.dryRun) :
    Exchange.Said sent options task [] (beginExchange total ready) where
  sent := by
    have idle : (Cursor.start total).exhausted = false := by
      simp [Cursor.start, Cursor.exhausted]
    change sent ready.inflow.source
      (bytes (word options [] (if (Cursor.start total).exhausted then 1 else 0)))
    rw [idle]
    simpa [word, Says] using uttered
  rising := .nil
  passed := nofun
  regular := nofun
  obeys := obeys
  dry _ := rfl

/-- Whatever happens in a run, all that it tells its peer is the word for its requests, as
far as it comes with it; and no end mark is sent before its time. -/
theorem run_speaks [Sandbox ς] (transcript : Transcript κ) (root : Path) (options : Options)
    (sandbox : ς) (patience : Nat) (connection : κ) (disk : Disk)
    (fresh : transcript.sent connection []) :
    ∃ requests said, Utters transcript.sent root
      (.start (.wholeFiles options sandbox patience) connection disk) requests said := by
  generalize begun : Running.start (.wholeFiles options sandbox patience) connection disk = start
  have chosen : start.endpoint.options = options := begun ▸ rfl
  have fresh : start.Says transcript.sent [] := begun ▸ fresh
  have readies : Meets (readying root) start (fun _ after => Readies start after) _ :=
    readying_meets (begun ▸ rfl)
  have spares := readying_spares (υ := FileRequester) (δ := FileCollector) (ς := ς) (κ := κ) .any
    (fun _ => .any _) (fun _ => .any _) root
  have greeted : Meets (readying root) start _ _ :=
    readying_uttered transcript.accepts transcript.reads fresh
  cases prelude root start with
  | failed readied ran =>
      obtain ⟨said, short, uttered⟩ := (greeted.of_error readied).resolve_left id
      refine ⟨[], said, .early ?_ short fun _ _ ended => ?_⟩
      · rw [stateAfter_error ran]
        exact uttered
      · rw [ran] at ended
        cases ended
  | skipped readied ran =>
      obtain ⟨uttered, -, client⟩ := greeted.of_ok readied
      refine ⟨[], _, .early ?_ List.prefix_rfl fun _ _ ended => ?_⟩
      · rw [stateAfter_ok ran]
        exact uttered
      · rw [ran] at ended
        cases ended
        exact ⟨rfl, client rfl, by simp [greeting, client rfl]⟩
  | @reached task removals ready readied umask ran =>
      obtain ⟨uttered, strength, -⟩ := greeted.of_ok readied
      have kept : ready.endpoint.options = start.endpoint.options := (spares.of_ok readied).options
      have strength : task.checksum = start.endpoint.options.checksum := kept ▸ strength task rfl
      have obeys : ready.endpoint.uploader.dryRun = start.endpoint.options.dryRun := by
        rw [(readies.of_ok readied).uploader]
        subst begun
        rfl
      have known : Exchange.Said _ _ task [] (beginExchange task.files.length ready) :=
        beginExchange_said task.files.length uttered obeys
      have exchanges : Meets (exchange task) ready _ _ :=
        exchange_runs (Exchange.run_meets ready.endpoint.patience)
      cases exchanged : exchange task ready with
      | error failure stopped =>
          obtain ⟨_, met, same⟩ := exchanges.of_error exchanged
          obtain ⟨last, visited, rfl⟩ := met
          obtain ⟨requests, known⟩ := visited.said strength known
          have known := Exchange.abandonPending_said known
          have ended := ran.trans (ensuring_error (bind_error exchanged))
          let marks := if (Exchange.abandonPending last).lendUpload.cursor.exhausted then 1 else 0
          have le : marks ≤ 1 := by
            simp only [marks]
            split <;> omega
          refine ⟨requests, word _ requests marks, .late known readied ?_ (by omega)
            (fun _ _ done => ?_) (fun two => by omega) fun three => by omega⟩
          · rw [stateAfter_error ended, same]
            exact known.sent
          · rw [ended] at done
            cases done
      | ok result ended =>
          obtain ⟨rounds, closing, finished, rfl, -⟩ := (exchange_gone task ready).of_ok exchanged
          obtain ⟨_, met, same⟩ := exchanges.of_ok exchanged
          obtain ⟨before, last, advanced, completes, rfl⟩ := met
          have closed := advanced.closed (.completed completes.done)
          obtain ⟨requests, known⟩ := closed.said strength known
          -- the cursor is exhausted, so the mark that ends the requests was said
          have marked := known.sent
          rw [show last.lendUpload.cursor.exhausted = true from completes.exhausted] at marked
          have settled : Exchange.abandonPending last = last := by
            unfold Exchange.abandonPending
            rw [completes.idle]
          rw [settled] at same
          have kept : ended.endpoint.options = start.endpoint.options := by
            rw [same]
            exact kept
          have uttered : ended.Says transcript.sent (word ended.endpoint.options requests 1) := by
            rw [kept, same]
            exact marked
          have goesOn := ran.trans (ensuring_congr (bind_ok exchanged))
          cases concluded : conclude root task.root task.files removals .awaitingAck
            closing.newDirectories ended with
          | error failure after =>
              obtain ⟨said, parted⟩ := (conclude_uttered transcript removals _ uttered).of_error concluded
              refine ⟨requests, _, 
                .parted known readied finished exchanged kept goesOn parted
                  (stateAfter_error concluded) fun _ _ done => ?_⟩
              rw [goesOn, ensuring_error concluded] at done
              cases done
          | ok outcome after =>
              obtain ⟨goes, parted⟩ := (conclude_uttered transcript removals _ uttered).of_ok concluded
              refine ⟨requests, _, 
                .parted known readied finished exchanged kept goesOn parted
                  (stateAfter_ok concluded) fun _ _ done => ?_⟩
              obtain ⟨inner, again, -⟩ := ensuring_ok (goesOn.symm.trans done)
              cases concluded.symm.trans again
              exact ⟨goes, rfl⟩

end Running

/-- Reading from a connection writes nothing to it. -/
theorem StagedConnection.reads_silently (holds : BoundedSink → Bytes → Prop) :
    ByteSource.Respects (Silent fun connection : StagedConnection => holds connection.sink) := by
  refine fun limit => .of_leaves fun before => ?_
  change Leaves _ before (StagedConnection.read limit before)
  unfold StagedConnection.read
  split
  · exact fun _ held => held
  · split <;> exact fun _ held => held

/-- What was sent over a connection that has room for everything. -/
def StagedConnection.transcript : Transcript StagedConnection where
  sent connection said := connection.sink.written = said ∧ connection.sink.room = none
  accepts {before said} bytes held := by
    obtain ⟨written, room⟩ := held
    have done : BoundedSink.put bytes before.sink =
        .ok () { before.sink with written := before.sink.written ++ bytes } := by
      simp [BoundedSink.put, room]
    change Meets (StagedConnection.put bytes) before _ _
    unfold Meets StagedConnection.put
    rw [done]
    exact ⟨by simp [refresh, written], by simp [refresh, room]⟩
  reads := reads_silently fun sink said => sink.written = said ∧ sink.room = none
  polls timeout beside := .of_leaves fun before _ held => held

namespace Running

def clientEndpoint : Endpoint FileRequester FileCollector StrictSandbox :=
  .wholeFiles {} {} 0

/-- A list of one file, its content of three bytes, the end of the content, the
acknowledgement and the totals. -/
def onePeer : StagedConnection :=
  .start [⟨0,
    [1, 0, 0, 0, 97, 164, 129, 0, 0, 0, 0, 0, 0, 3, 0, 0, 0, 0, 0, 0, 0, 0, 0, 0, 0,
      0, 0, 0, 0, 0, 0, 0, 0, 0, 0, 0, 0, 2, 0, 0, 0, 0, 0, 0, 0, 3, 0, 0, 0, 120, 121, 122,
      0, 0, 0, 0, 255, 255, 255, 255, 255, 255, 255, 255, 0, 0, 0, 0, 0, 0, 0, 0, 0, 0, 0, 0]⟩]
    .half none

theorem run_speaks_to_onePeer :
    StagedConnection.transcript.sent onePeer [] ∧
      (stateAfter (run ⟨[100]⟩) (.start clientEndpoint onePeer default)).inflow.source.sink.written =
        bytes (word {} [0] 3) ∧
      ∃ requests said, Utters StagedConnection.transcript.sent ⟨[100]⟩
        (.start clientEndpoint onePeer default) requests said :=
  ⟨⟨rfl, rfl⟩, by decide +kernel, run_speaks _ _ _ _ _ _ _ ⟨rfl, rfl⟩⟩

end Running

end TreeSync

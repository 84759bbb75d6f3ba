import TreeSync.Proofs.Run.Calls
import TreeSync.Proofs.Run.Visits

namespace TreeSync

/-! The rounds of an exchange, whatever its roles do.

A role may move the cursor, arm or disarm the descriptor and begin or give up files as
it likes. The loop reads all of this afresh in each round, so which calls it makes in a
round is settled by what it finds there.
-/

open TreeSync.Action

/-- What came of the calls of one round; what it did not come to is left out. -/
structure Round where
  exhausted : Bool
  armed : Bool
  timeout : Timeout
  woke : Option Readiness := none
  uploaded : Option Bool := none
  flushed : Option (Option Nat) := none
  downloaded : Option (Option DownloadOutcome) := none

namespace Round

/-- The record of a round, in the order in which its steps are made. -/
def steps (round : Round) : List ExchangeStep :=
  .waited round.exhausted round.armed round.timeout ::
    ((round.woke.map .woke).toList ++ (round.uploaded.map .uploaded).toList ++
      (round.flushed.join.map .flushed).toList ++ (round.downloaded.map .downloaded).toList)

/-- The wait found something to read, and no failure of the uploader came in between. -/
def Hears (round : Round) : Prop :=
  (∃ readiness, round.woke = some readiness ∧ readiness.inbound = true) ∧
    round.uploaded ≠ some false

/-- The rules that each round keeps to. -/
structure Lawful (multiplexed : Bool) (round : Round) : Prop where
  /-- The wait may not block just if requests are left and no descriptor is armed. -/
  timeout : round.timeout = .immediate ↔ round.exhausted = false ∧ round.armed = false
  /-- After the wait the uploader is advanced just if requests are left or the
  descriptor fired. -/
  uploads : round.uploaded.isSome = true ↔ ∃ readiness, round.woke = some readiness ∧
    (round.exhausted = false ∨ readiness.secondary = true)
  /-- A message is dealt with just if there is something to read on a stream of messages. -/
  flushes : round.flushed.isSome = true ↔ multiplexed = true ∧ round.Hears
  /-- The downloader is advanced just if content is waiting. -/
  downloads : round.downloaded.isSome = true ↔
    round.Hears ∧ Exchange.Waits multiplexed round.flushed

/-- Another round may follow: no call failed, and the peer did not end the exchange. -/
structure GoesOn (round : Round) : Prop where
  woke : round.woke.isSome = true
  uploaded : round.uploaded ≠ some false
  flushed : round.flushed ≠ some none
  downloaded : round.downloaded = none ∨ round.downloaded = some (some .ongoing)

variable {υ δ γ κ : Type}

/-- What follows a round: the next one, or the phase after the exchange. -/
inductive Leads (round : Round) (last : Exchange υ δ γ κ) : Option Phase → Prop
  | onward (goesOn : round.GoesOn) : Leads round last none
  | ended (complete : round.downloaded = some (some .complete))
      (exhausted : last.cursor.exhausted = true) (idle : last.pending = none) :
      Leads round last (some .awaitingAck)

variable [Connection κ] [Uploader υ] [Downloader δ γ]

/-- Whether a round led from one state of an exchange to another: by the calls that it
tells of, one after the other, and nothing else. -/
inductive Did (task : Task) (round : Round) (before after : Exchange υ δ γ κ) : Prop
  | intro {woken offered ready : Exchange υ δ γ κ}
      (waited : Exchange.Waited before round.timeout round.woke woken)
      (uploaded : Exchange.Uploaded task woken round.uploaded offered)
      (flushed : Exchange.Flushed offered round.flushed ready)
      (downloaded : Exchange.Downloaded task ready round.downloaded after)
      (exhausted : round.exhausted = before.cursor.exhausted)
      (armed : round.armed = before.secondary.isSome)
      (lawful : round.Lawful before.inflow.multiplexed)

variable {task : Task} {round : Round} {before after : Exchange υ δ γ κ}

theorem Did.lawful (did : round.Did task before after) : round.Lawful before.inflow.multiplexed := by
  obtain ⟨-, -, -, -, -, -, lawful⟩ := did
  exact lawful

theorem Did.records (did : round.Did task before after) (reads : Downloader.OnlyReads δ κ) :
    before.Records round.steps after := by
  obtain ⟨waited, uploaded, flushed, downloaded, exhausted, armed, -⟩ := did
  have record := ((waited.records.trans uploaded.records).trans flushed.records).trans
    (downloaded.records reads)
  simpa [steps, Exchange.waitSteps, Exchange.waiting, exhausted, armed] using record

end Round

namespace Exchange

variable {υ δ γ κ : Type} [Connection κ] [Uploader υ] [Downloader δ γ] {task : Task}
  {first now last : Exchange υ δ γ κ}

/-- The record of a round of which only the wait was made. -/
def begun (now : Exchange υ δ γ κ) : Round where
  exhausted := now.cursor.exhausted
  armed := now.secondary.isSome
  timeout := .choose (!now.cursor.exhausted) now.secondary.isSome

omit [Connection κ] [Uploader υ] [Downloader δ γ] in
theorem timeout_begun (now : Exchange υ δ γ κ) :
    now.begun.timeout = .immediate ↔ now.begun.exhausted = false ∧ now.begun.armed = false := by
  simp only [begun, Timeout.choose]
  cases now.cursor.exhausted <;> cases now.secondary.isSome <;> decide

theorem did_nothing (waited : Waited now now.begun.timeout none last) :
    now.begun.Did task now last := by
  refine .intro waited .rested .rested .rested rfl rfl ⟨timeout_begun now, ?_, ?_, ?_⟩
  · simp [begun]
  · simp [begun, Round.Hears]
  · simp [begun, Round.Hears]

/-- A round that woke up, put together from its calls. -/
theorem did_of_calls {woken offered ready : Exchange υ δ γ κ} {readiness : Readiness}
    {uploaded : Option Bool} {flushed : Option (Option Nat)}
    {downloaded : Option (Option DownloadOutcome)}
    (waited : Waited now now.begun.timeout (some readiness) woken)
    (uploading : Uploaded task woken uploaded offered) (flushing : Flushed offered flushed ready)
    (downloading : Downloaded task ready downloaded last)
    (uploads : uploaded.isSome = true ↔
      now.cursor.exhausted = false ∨ readiness.secondary = true)
    (flushes : flushed.isSome = true ↔
      now.inflow.multiplexed = true ∧ readiness.inbound = true ∧ uploaded ≠ some false)
    (downloads : downloaded.isSome = true ↔
      (readiness.inbound = true ∧ uploaded ≠ some false) ∧
        Waits now.inflow.multiplexed flushed) :
    ({ now.begun with woke := some readiness, uploaded, flushed, downloaded } : Round).Did
      task now last := by
  refine .intro waited uploading flushing downloading rfl rfl ⟨timeout_begun now, ?_, ?_, ?_⟩
  · simpa [begun] using uploads
  · simpa [Round.Hears] using flushes
  · simpa [Round.Hears] using downloads

omit [Connection κ] [Uploader υ] [Downloader δ γ] in
theorem checkComplete_ended :
    Meets (checkComplete task) last
      (fun phase after => phase = .awaitingAck ∧ after = last ∧
        last.cursor.exhausted = true ∧ last.pending = none)
      (fun _ after => after = last) := by
  refine Meets.get (Meets.cond (fun _ => Meets.throw rfl) fun exhausted => ?_)
  refine Meets.cond (fun _ => Meets.throw rfl) fun idle => ?_
  exact Meets.pure ⟨rfl, rfl, by simpa using exhausted, by simpa using idle⟩

/-- The downloader's part, after the uploader's has been made or left out. -/
theorem takeWaiting_ends {woken offered : Exchange υ δ γ κ} {readiness : Readiness}
    {uploaded : Option Bool} (waited : Waited now now.begun.timeout (some readiness) woken)
    (uploading : Uploaded task woken uploaded offered)
    (uploads : uploaded.isSome = true ↔
      now.cursor.exhausted = false ∨ readiness.secondary = true)
    (fine : uploaded ≠ some false) :
    Meets (takeWaiting task readiness) offered
      (fun phase last => ∃ round : Round, round.Did task now last ∧ round.Leads last phase)
      (fun _ last => ∃ round : Round, round.Did task now last ∧ ¬ round.GoesOn) := by
  have mode : offered.inflow.multiplexed = now.inflow.multiplexed :=
    uploading.records.multiplexed.trans waited.records.multiplexed
  refine Meets.cond (fun silent => ?_) fun inbound => ?_
  · refine Meets.pure ⟨_, did_of_calls waited uploading .rested .rested uploads ?_ ?_, .onward ?_⟩
    · simp [silent]
    · simp [silent]
    · exact ⟨rfl, fine, nofun, .inl rfl⟩
  rw [Bool.not_eq_false] at inbound
  refine contentWaits_flushed.followedBy ?_ ?_
  · intro _ last met
    obtain ⟨failed, multiplexed⟩ := met
    rw [mode] at multiplexed
    refine ⟨_, did_of_calls waited uploading failed .rested uploads ?_ ?_, fun goesOn => ?_⟩
    · simp [multiplexed, inbound, fine]
    · simp [Waits, multiplexed]
    · exact goesOn.flushed rfl
  intro waits ready met
  obtain ⟨flushed, flushing, unbroken, flushes, content⟩ := met
  rw [mode] at flushes content
  have did {downloaded : Option (Option DownloadOutcome)} {last : Exchange υ δ γ κ}
      (downloading : Downloaded task ready downloaded last)
      (downloads : downloaded.isSome = true ↔ waits = true) :
      ({ now.begun with woke := some readiness, uploaded, flushed, downloaded } : Round).Did
        task now last :=
    did_of_calls waited uploading flushing downloading uploads (by simp [flushes, inbound, fine])
      (by simp [downloads, content, inbound, fine])
  refine Meets.cond (fun dry => ?_) fun wet => ?_
  · exact Meets.pure ⟨_, did .rested (by simp [dry]), .onward ⟨rfl, fine, unbroken, .inl rfl⟩⟩
  rw [Bool.not_eq_false] at wet
  refine advanceDownloader_downloaded.followedBy ?_ ?_
  · intro _ last failed
    refine ⟨_, did failed (by simp [wet]), fun goesOn => ?_⟩
    have rested := goesOn.downloaded
    simp at rested
  · intro outcome last taken
    have taken := did taken (by simp [wet])
    cases outcome with
    | ongoing => exact Meets.pure ⟨_, taken, .onward ⟨rfl, fine, unbroken, .inr rfl⟩⟩
    | complete =>
        refine checkComplete_ended.followedBy ?_ ?_
        · intro _ _ same
          subst same
          refine ⟨_, taken, fun goesOn => ?_⟩
          have ended := goesOn.downloaded
          simp at ended
        · intro _ _ met
          obtain ⟨rfl, rfl, exhausted, idle⟩ := met
          exact Meets.pure ⟨_, taken, .ended rfl exhausted idle⟩

theorem round_ends :
    Meets (round task) now
      (fun phase last => ∃ round : Round, round.Did task now last ∧ round.Leads last phase)
      (fun _ last => ∃ round : Round, round.Did task now last ∧ ¬ round.GoesOn) := by
  refine wait_waited.followedBy (fun _ last waited => ?_) ?_
  · exact ⟨_, did_nothing waited, fun goesOn => nomatch goesOn.woke⟩
  intro readiness woken waited
  refine Meets.get (Meets.cond (fun calls => ?_) fun rests => ?_)
  · rw [waited.cursor] at calls
    have calls : now.cursor.exhausted = false ∨ readiness.secondary = true := by simpa using calls
    refine advanceUploader_uploaded.followedBy ?_ ?_
    · intro _ last failed
      refine ⟨_, did_of_calls waited failed .rested .rested (by simpa using calls) (by simp)
        (by simp), fun goesOn => goesOn.uploaded rfl⟩
    · exact fun _ offered uploading => takeWaiting_ends waited uploading (by simpa using calls) (by simp)
  · rw [waited.cursor] at rests
    exact takeWaiting_ends waited .rested (by simpa using rests) (by simp)

/-- Rounds gone through one after the other, after each of which another may follow. -/
inductive Rounds (task : Task) :
    Exchange υ δ γ κ → List Round → Exchange υ δ γ κ → Prop
  | nothing {now : Exchange υ δ γ κ} : Rounds task now [] now
  | next {now middle last : Exchange υ δ γ κ} {round : Round} {rounds : List Round}
      (ran : Exchange.round task now = .ok none middle) (did : round.Did task now middle)
      (goesOn : round.GoesOn) (later : Rounds task middle rounds last) :
      Rounds task now (round :: rounds) last

/-- All the rounds of an exchange that has come to a state, the last of them perhaps one
that no other follows. -/
inductive Gone (task : Task) (first : Exchange υ δ γ κ) (rounds : List Round)
    (last : Exchange υ δ γ κ) : Prop
  | going (earlier : Rounds task first rounds last)
  | closed {earlier : List Round} {final : Round} {middle : Exchange υ δ γ κ}
      (gone : Rounds task first earlier middle) (did : final.Did task middle last)
      (stops : ¬ final.GoesOn) (whole : rounds = earlier ++ [final])

/-- The contract of the rounds of an exchange: each is lawful, and only the last of them
may have failed or seen the downloader complete. -/
structure Contract (multiplexed : Bool) (rounds : List Round) : Prop where
  lawful : ∀ round ∈ rounds, round.Lawful multiplexed
  goesOn : ∀ round ∈ rounds.dropLast, round.GoesOn

theorem Rounds.records {rounds : List Round} (reads : Downloader.OnlyReads δ κ)
    (gone : Rounds task first rounds last) :
    Records first (rounds.flatMap Round.steps) last ∧
      ∀ round ∈ rounds, round.Lawful first.inflow.multiplexed ∧ round.GoesOn := by
  induction gone with
  | nothing => exact ⟨.refl _, nofun⟩
  | next ran did goesOn later ih =>
      obtain ⟨record, each⟩ := ih
      have here := did.records reads
      refine ⟨by simpa using here.trans record, fun round member => ?_⟩
      rcases List.mem_cons.mp member with rfl | further
      · exact ⟨did.lawful, goesOn⟩
      · rw [← here.multiplexed]
        exact each round further

theorem Gone.contract {rounds : List Round} (reads : Downloader.OnlyReads δ κ)
    (gone : Gone task first rounds last) :
    Records first (rounds.flatMap Round.steps) last ∧
      Contract first.inflow.multiplexed rounds := by
  cases gone with
  | going earlier =>
      obtain ⟨record, each⟩ := earlier.records reads
      exact ⟨record, fun round member => (each round member).1,
        fun round member => (each round ((List.dropLast_sublist rounds).subset member)).2⟩
  | closed earlier did stops whole =>
      obtain ⟨record, each⟩ := earlier.records reads
      subst whole
      refine ⟨by simpa using record.trans (did.records reads), fun round member => ?_, fun round member => ?_⟩
      · rcases List.mem_append.mp member with before | final
        · exact (each round before).1
        · cases List.mem_singleton.mp final
          exact record.multiplexed ▸ did.lawful
      · rw [List.dropLast_concat] at member
        exact (each round member).2

/-- An exchange that ends well does so in a round that sees the downloader complete, with
everything offered and no file in progress. -/
inductive Finished (task : Task) (first : Exchange υ δ γ κ) (rounds : List Round)
    (last : Exchange υ δ γ κ) : Prop
  | intro {earlier : List Round} {final : Round} {middle : Exchange υ δ γ κ}
      (gone : Rounds task first earlier middle) (did : final.Did task middle last)
      (whole : rounds = earlier ++ [final]) (complete : final.downloaded = some (some .complete))
      (exhausted : last.cursor.exhausted = true) (idle : last.pending = none)

theorem Finished.gone {rounds : List Round} (finished : Finished task first rounds last) :
    Gone task first rounds last := by
  obtain ⟨gone, did, whole, complete, -, -⟩ := finished
  refine .closed gone did (fun goesOn => ?_) whole
  have ended := goesOn.downloaded
  simp [complete] at ended

/-- An exchange that fails does so in its last round, unless it went through all the rounds
that it was granted. -/
structure Broken (task : Task) (first : Exchange υ δ γ κ) (granted limit : Nat)
    (failure : Failure) (rounds : List Round) (last : Exchange υ δ γ κ) : Prop where
  gone : Gone task first rounds last
  stalled : (∀ round ∈ rounds, round.GoesOn) → rounds.length = granted ∧ failure = .stalled limit

theorem roundsUpTo_gone {limit : Nat} (granted : Nat) :
    Meets (roundsUpTo task limit granted) now
      (fun phase last => phase = .awaitingAck ∧ ∃ rounds, Finished task now rounds last)
      (fun failure last => ∃ rounds, Broken task now granted limit failure rounds last) := by
  induction granted generalizing now with
  | zero => exact Meets.throw ⟨[], .going .nothing, fun _ => ⟨rfl, rfl⟩⟩
  | succ granted ih =>
      refine (Meets.ran (round task)).followedBy (fun _ last failed => ?_) fun phase middle ran => ?_
      · obtain ⟨final, did, stops⟩ := round_ends.of_error failed
        refine ⟨[final], .closed .nothing did stops rfl, fun goesOn => ?_⟩
        exact absurd (goesOn final (by simp)) stops
      · obtain ⟨here, did, leads⟩ := round_ends.of_ok ran
        cases leads with
        | ended complete exhausted idle =>
            exact Meets.pure ⟨rfl, [here], .nothing, did, rfl, complete, exhausted, idle⟩
        | onward goesOn =>
            refine ih.mono ?_ ?_
            · intro phase last met
              obtain ⟨moved, rounds, gone, final, whole, complete, exhausted, idle⟩ := met
              exact ⟨moved, here :: rounds, .next ran did goesOn gone, final, by rw [whole]; rfl,
                complete, exhausted, idle⟩
            · intro failure last met
              obtain ⟨rounds, gone, stalled⟩ := met
              refine ⟨here :: rounds, ?_, fun each => ?_⟩
              · cases gone with
                | going earlier => exact .going (.next ran did goesOn earlier)
                | closed earlier final stops whole =>
                    exact .closed (.next ran did goesOn earlier) final stops (by rw [whole]; rfl)
              · obtain ⟨length, why⟩ := stalled fun round member =>
                  each round (List.mem_cons_of_mem _ member)
                exact ⟨by rw [List.length_cons, length], why⟩

theorem run_gone (patience : Nat) :
    Meets (run task patience) first
      (fun phase last => phase = .awaitingAck ∧ ∃ rounds, Finished task first rounds last)
      (fun failure after => ∃ limit rounds last,
        Broken task first limit limit failure rounds last ∧ after = abandonPending last) := by
  refine Meets.get (Meets.ensuring ((roundsUpTo_gone _).mono ?_ ?_))
  · intro phase last met
    obtain ⟨moved, rounds, finished⟩ := met
    have whole := finished
    obtain ⟨-, -, -, -, -, idle⟩ := whole
    rw [abandonPending_idle idle]
    exact ⟨moved, rounds, finished⟩
  · intro failure last met
    obtain ⟨rounds, broken⟩ := met
    exact ⟨_, rounds, last, broken, rfl⟩

omit [Connection κ] [Uploader υ] in
theorem abandonPending_steps (exchange : Exchange υ δ γ κ) :
    (abandonPending exchange).steps = exchange.steps := by
  unfold abandonPending
  split <;> rfl

end Exchange

end TreeSync

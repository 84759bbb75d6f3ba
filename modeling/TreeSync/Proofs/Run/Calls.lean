import TreeSync.Proofs.Message.Reading
import TreeSync.Proofs.Outcomes
import TreeSync.Run.Exchange

namespace TreeSync

/-! The calls that the parts of a round make.

A round polls the connection, advances the uploader, deals with a message and advances
the downloader, each of them at most once. Here each of these calls is told by what it
was lent, what it came to and what it left behind. Nothing else of the exchange changes,
but for the record of its steps.
-/

open TreeSync.Action

/-- Whether a downloader leaves the mode of the stream alone, as one that can only read
from the stream does. -/
def Downloader.OnlyReads (δ : Type) {γ : Type} [Downloader δ γ] (κ : Type) [ByteSource κ] : Prop :=
  ∀ (task : Task) (lent : Downloading δ γ κ),
    (stateAfter (Downloader.advance task) lent).inflow.multiplexed = lent.inflow.multiplexed

namespace Exchange

variable {υ δ γ κ : Type} {task : Task} {first now after : Exchange υ δ γ κ}

/-- The exchange with more steps on its record. -/
def recording (steps : List ExchangeStep) (now : Exchange υ δ γ κ) : Exchange υ δ γ κ :=
  { now with steps := now.steps ++ steps }

/-- What the record says of the beginning of a wait. -/
def waiting (timeout : Timeout) (now : Exchange υ δ γ κ) : ExchangeStep :=
  .waited now.cursor.exhausted now.secondary.isSome timeout

/-- What minds its own part of an exchange: it adds to the record and leaves the mode
of the stream alone. -/
structure Records (before : Exchange υ δ γ κ) (steps : List ExchangeStep)
    (after : Exchange υ δ γ κ) : Prop where
  steps : after.steps = before.steps ++ steps
  multiplexed : after.inflow.multiplexed = before.inflow.multiplexed

theorem Records.refl (now : Exchange υ δ γ κ) : Records now [] now :=
  ⟨by simp, rfl⟩

theorem Records.trans {second third : Exchange υ δ γ κ} {steps more : List ExchangeStep}
    (earlier : Records first steps second) (later : Records second more third) :
    Records first (steps ++ more) third where
  steps := by rw [later.steps, earlier.steps, List.append_assoc]
  multiplexed := later.multiplexed.trans earlier.multiplexed

variable [Connection κ]

/-- One call of `poll`, with the descriptor that is armed, and what the signals that it
reports are taken for. -/
inductive Waited (before : Exchange υ δ γ κ) (timeout : Timeout) :
    Option Readiness → Exchange υ δ γ κ → Prop
  | refused {fault : Fault} {source : κ}
      (called : Connection.poll timeout before.secondary before.inflow.source =
        .error fault source) :
      Waited before timeout none
        ({ before with inflow := { before.inflow with source } }.recording [before.waiting timeout])
  /-- What it reports is the end of the run. -/
  | broken {inbound : Signals} {beside : Option Signals} {source : κ} {failure : Failure}
      (called : Connection.poll timeout before.secondary before.inflow.source =
        .ok (inbound, beside) source)
      (judged : before.inflow.journal.wakeUp timeout inbound beside = .error failure) :
      Waited before timeout none
        ({ before with inflow := { before.inflow with source } }.recording [before.waiting timeout])
  | woke {inbound : Signals} {beside : Option Signals} {source : κ} {readiness : Readiness}
      {journal : Journal}
      (called : Connection.poll timeout before.secondary before.inflow.source =
        .ok (inbound, beside) source)
      (judged : before.inflow.journal.wakeUp timeout inbound beside = .ok (readiness, journal)) :
      Waited before timeout (some readiness)
        ({ before with inflow := { before.inflow with source, journal } }.recording
          [before.waiting timeout, .woke readiness])

theorem wait_waited :
    Meets wait now
      (fun readiness =>
        Waited now (.choose (!now.cursor.exhausted) now.secondary.isSome) (some readiness))
      (fun _ => Waited now (.choose (!now.cursor.exhausted) now.secondary.isSome) none) := by
  refine Meets.get (Meets.changeThen ((Meets.explaining ((Meets.called _ _ _ _).mono
    (fun _ _ polled => polled) fun fault after polled => ?_)).followedBy
      (fun _ _ refused => refused) fun signals after polled => ?_))
  · obtain ⟨source, called, rfl⟩ := polled
    exact .refused called
  · obtain ⟨inbound, beside⟩ := signals
    obtain ⟨source, called, rfl⟩ := polled
    refine Meets.get ?_
    split
    · next failure judged => exact Meets.throw (.broken called judged)
    · next readiness journal judged =>
      refine Meets.changeThen (Meets.changeThen (Meets.pure ?_))
      simpa [recording, waiting] using Waited.woke called judged

/-- What the record says of a wait once it is over. -/
def waitSteps (timeout : Timeout) (woke : Option Readiness) (now : Exchange υ δ γ κ) :
    List ExchangeStep :=
  now.waiting timeout :: (woke.map .woke).toList

theorem Waited.records {timeout : Timeout} {woke : Option Readiness}
    (waited : Waited now timeout woke after) : Records now (now.waitSteps timeout woke) after := by
  cases waited <;> exact ⟨rfl, rfl⟩

theorem Waited.cursor {timeout : Timeout} {woke : Option Readiness}
    (waited : Waited now timeout woke after) : after.cursor = now.cursor := by
  cases waited <;> rfl

/-- One call of the uploader, or none; it tells whether the call succeeded. -/
inductive Uploaded [Uploader υ] (task : Task) (before : Exchange υ δ γ κ) :
    Option Bool → Exchange υ δ γ κ → Prop
  | rested : Uploaded task before none before
  | advanced {lent : Uploading υ κ}
      (called : Uploader.advance task before.lendUpload = .ok () lent) :
      Uploaded task before (some true) ((takeUpload lent before).recording [.uploaded true])
  | failed {fault : Fault} {lent : Uploading υ κ}
      (called : Uploader.advance task before.lendUpload = .error fault lent) :
      Uploaded task before (some false) ((takeUpload lent before).recording [.uploaded false])

theorem advanceUploader_uploaded [Uploader υ] :
    Meets (advanceUploader task) now (fun _ => Uploaded task now (some true))
      (fun _ => Uploaded task now (some false)) := by
  refine Meets.attempt (Meets.called _ _ _ _) (fun _ after met => ?_) fun _ after met => ?_
  · obtain ⟨lent, called, rfl⟩ := met
    exact Meets.change (.advanced called)
  · obtain ⟨lent, called, rfl⟩ := met
    exact Meets.changeThen (Meets.throw (.failed called))

theorem Uploaded.records [Uploader υ] {uploaded : Option Bool}
    (done : Uploaded task now uploaded after) :
    Records now (uploaded.map ExchangeStep.uploaded).toList after := by
  cases done with
  | rested => exact .refl now
  | advanced | failed => exact ⟨rfl, rfl⟩

/-- One message dealt with, or none; it tells how much content is waiting then, unless the
call failed. -/
inductive Flushed (before : Exchange υ δ γ κ) : Option (Option Nat) → Exchange υ δ γ κ → Prop
  | rested : Flushed before none before
  | dealt {inflow : Inflow κ} (called : Inflow.flush before.inflow = .ok () inflow) :
      Flushed before (some (some inflow.remaining))
        ({ before with inflow }.recording [.flushed inflow.remaining])
  | failed {fault : Fault} {inflow : Inflow κ}
      (called : Inflow.flush before.inflow = .error fault inflow) :
      Flushed before (some none) { before with inflow }

/-- Whether content may be taken: on a stream of messages some has to be left once one
message was dealt with. -/
def Waits (multiplexed : Bool) (flushed : Option (Option Nat)) : Prop :=
  multiplexed = true → ∃ remaining, flushed = some (some remaining) ∧ 0 < remaining

theorem contentWaits_flushed :
    Meets contentWaits now
      (fun waits after => ∃ flushed, Flushed now flushed after ∧ flushed ≠ some none ∧
        (flushed.isSome = true ↔ now.inflow.multiplexed = true) ∧
        (waits = true ↔ Waits now.inflow.multiplexed flushed))
      (fun _ after => Flushed now (some none) after ∧ now.inflow.multiplexed = true) := by
  refine Meets.get (Meets.cond (fun multiplexed => ?_) fun plain => ?_)
  · refine (Meets.explaining ((Meets.called _ _ _ _).mono (fun _ _ dealt => dealt)
      fun _ after met => ?_)).followedBy (fun _ _ failed => failed) fun _ after met => ?_
    · obtain ⟨inflow, called, rfl⟩ := met
      exact ⟨.failed called, multiplexed⟩
    · obtain ⟨inflow, called, rfl⟩ := met
      refine Meets.get (Meets.changeThen (Meets.pure ⟨_, .dealt called, by simp, ?_, ?_⟩))
      · simp [multiplexed]
      · simp [Waits, multiplexed]
  · exact Meets.pure ⟨none, .rested, by simp, by simp [plain], by simp [Waits, plain]⟩

theorem Flushed.records {flushed : Option (Option Nat)} (done : Flushed now flushed after) :
    Records now (flushed.join.map ExchangeStep.flushed).toList after := by
  have draws := Inflow.flush_draws (σ := κ) .any fun _ => .any _
  cases done with
  | rested => exact .refl now
  | dealt called => exact ⟨rfl, (draws.of_ok called).multiplexed⟩
  | failed called => exact ⟨by simp, (draws.of_error called).multiplexed⟩

/-- One call of the downloader, or none; it tells what the call came to, unless it failed. -/
inductive Downloaded [Downloader δ γ] (task : Task) (before : Exchange υ δ γ κ) :
    Option (Option DownloadOutcome) → Exchange υ δ γ κ → Prop
  | rested : Downloaded task before none before
  | advanced {outcome : DownloadOutcome} {lent : Downloading δ γ κ}
      (called : Downloader.advance task before.lendDownload = .ok outcome lent) :
      Downloaded task before (some (some outcome))
        ((takeDownload lent before).recording [.downloaded (some outcome)])
  | failed {fault : Fault} {lent : Downloading δ γ κ}
      (called : Downloader.advance task before.lendDownload = .error fault lent) :
      Downloaded task before (some none)
        ((takeDownload lent before).recording [.downloaded none])

variable [Downloader δ γ]

theorem advanceDownloader_downloaded :
    Meets (advanceDownloader task) now
      (fun outcome => Downloaded task now (some (some outcome)))
      (fun _ => Downloaded task now (some none)) := by
  refine Meets.attempt (Meets.called _ _ _ _) (fun outcome after met => ?_) fun _ after met => ?_
  · obtain ⟨lent, called, rfl⟩ := met
    exact Meets.changeThen (Meets.pure (.advanced called))
  · obtain ⟨lent, called, rfl⟩ := met
    exact Meets.changeThen (Meets.throw (.failed called))

theorem Downloaded.records {downloaded : Option (Option DownloadOutcome)}
    (reads : Downloader.OnlyReads δ κ) (done : Downloaded task now downloaded after) :
    Records now (downloaded.map ExchangeStep.downloaded).toList after := by
  cases done with
  | rested => exact .refl now
  | advanced called => exact ⟨rfl, stateAfter_ok called ▸ reads task now.lendDownload⟩
  | failed called => exact ⟨rfl, stateAfter_error called ▸ reads task now.lendDownload⟩

end Exchange

end TreeSync

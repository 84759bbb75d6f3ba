import TreeSync.Proofs.Outcomes
import TreeSync.Run.Exchange

namespace TreeSync.Exchange

/-! The moments of an exchange.

A round makes up to four steps, and what holds between any two of them has to hold
whatever their order is. `Advances` therefore allows every order.
-/

open TreeSync.Action

variable {υ δ γ κ : Type} [Connection κ] [Uploader υ] [Downloader δ γ] {task : Task}
  {first now after : Exchange υ δ γ κ}

section Lending

variable {done : Exchange υ δ γ κ → Prop} {failed : Failure → Exchange υ δ γ κ → Prop}

omit [Downloader δ γ] in
/-- What the uploader does to what it is lent, its step of an exchange does, as far as the record
of the steps does not matter. -/
theorem advanceUploader_lent
    (uploads : Meets (Uploader.advance task) now.lendUpload
      (fun _ lent => done (takeUpload lent now))
      (fun fault lent => failed (.ofRole .uploader fault) (takeUpload lent now)))
    (noted : ∀ after steps, done after → done { after with steps })
    (blamed : ∀ failure after steps, failed failure after → failed failure { after with steps }) :
    Meets (advanceUploader task) now (fun _ => done) failed := by
  refine Meets.attempt (Meets.within uploads) ?_ ?_
  · exact fun _ _ met => Meets.change (noted _ _ met)
  · exact fun _ _ met => Meets.changeThen (Meets.throw (blamed _ _ _ met))

omit [Uploader υ] in
theorem advanceDownloader_lent {done : DownloadOutcome → Exchange υ δ γ κ → Prop}
    (downloads : Meets (Downloader.advance task) now.lendDownload
      (fun outcome lent => done outcome (takeDownload lent now))
      (fun fault lent => failed (.ofRole .downloader fault) (takeDownload lent now)))
    (noted : ∀ outcome after steps, done outcome after → done outcome { after with steps })
    (blamed : ∀ failure after steps, failed failure after → failed failure { after with steps }) :
    Meets (advanceDownloader task) now done failed := by
  refine Meets.attempt (Meets.within downloads) ?_ ?_
  · exact fun _ _ met => Meets.changeThen (Meets.pure (noted _ _ _ met))
  · exact fun _ _ met => Meets.changeThen (Meets.throw (blamed _ _ _ met))

end Lending

/-- A step that takes no content and succeeds. -/
inductive Attends (task : Task) (now after : Exchange υ δ γ κ) : Prop
  | waited {readiness : Readiness} (done : wait now = .ok readiness after)
  | uploaded (done : advanceUploader task now = .ok () after)
  | flushed {waits : Bool} (done : contentWaits now = .ok waits after)

/-- A state that steps of an exchange lead to as long as none of them fails and the peer
does not end it. -/
inductive Advances (task : Task) (first : Exchange υ δ γ κ) : Exchange υ δ γ κ → Prop
  | start : Advances task first first
  | attended {now after : Exchange υ δ γ κ} (earlier : Advances task first now)
      (attends : Attends task now after) : Advances task first after
  | downloaded {now after : Exchange υ δ γ κ} (earlier : Advances task first now)
      (done : advanceDownloader task now = .ok .ongoing after) : Advances task first after

/-- A step after which no other comes. -/
inductive Closes (task : Task) (now after : Exchange υ δ γ κ) : Prop
  | waiting {failure : Failure} (failed : wait now = .error failure after)
  | uploading {failure : Failure} (failed : advanceUploader task now = .error failure after)
  | flushing {failure : Failure} (failed : contentWaits now = .error failure after)
  | downloading {failure : Failure} (failed : advanceDownloader task now = .error failure after)
  | completed (done : advanceDownloader task now = .ok .complete after)

/-- A state that an exchange comes to between two steps or in the end. -/
def Visits (task : Task) (first now : Exchange υ δ γ κ) : Prop :=
  Advances task first now ∨ ∃ before, Advances task first before ∧ Closes task before now

/-- A state in which an exchange ends well. -/
structure Completes (task : Task) (before last : Exchange υ δ γ κ) : Prop where
  done : advanceDownloader task before = .ok .complete last
  exhausted : last.cursor.exhausted = true
  idle : last.pending = none

omit [Connection κ] [Uploader υ] in
theorem abandonPending_idle (idle : now.pending = none) : abandonPending now = now := by
  unfold abandonPending
  rw [idle]

theorem Advances.visits (advanced : Advances task first now) : Visits task first now :=
  .inl advanced

theorem Advances.closed (advanced : Advances task first now) (closes : Closes task now after) :
    Visits task first after :=
  .inr ⟨now, advanced, closes⟩

/-- What no step of an exchange breaks, whether the step fails or not, holds at every moment. -/
theorem Visits.maintained (holds : Exchange υ δ γ κ → Prop) (visited : Visits task first now)
    (begins : holds first) (waits : ∀ now, holds now → holds (stateAfter wait now))
    (uploads : ∀ now, holds now → holds (stateAfter (advanceUploader task) now))
    (flushes : ∀ now, holds now → holds (stateAfter contentWaits now))
    (downloads : ∀ now, holds now → holds (stateAfter (advanceDownloader task) now)) :
    holds now := by
  have advances {now : Exchange υ δ γ κ} (advanced : Advances task first now) : holds now := by
    induction advanced with
    | start => exact begins
    | attended _ attends ih =>
        cases attends with
        | waited done => exact stateAfter_ok done ▸ waits _ ih
        | uploaded done => exact stateAfter_ok done ▸ uploads _ ih
        | flushed done => exact stateAfter_ok done ▸ flushes _ ih
    | downloaded _ done ih => exact stateAfter_ok done ▸ downloads _ ih
  rcases visited with advanced | closed
  · exact advances advanced
  · obtain ⟨before, advanced, closes⟩ := closed
    have held := advances advanced
    cases closes with
    | waiting failed => exact stateAfter_error failed ▸ waits _ held
    | uploading failed => exact stateAfter_error failed ▸ uploads _ held
    | flushing failed => exact stateAfter_error failed ▸ flushes _ held
    | downloading failed => exact stateAfter_error failed ▸ downloads _ held
    | completed done => exact stateAfter_ok done ▸ downloads _ held

omit [Uploader υ] in
theorem checkComplete_meets {before last : Exchange υ δ γ κ}
    (done : advanceDownloader task before = .ok .complete last) :
    Meets (checkComplete task) last
      (fun _ after => Completes task before after) (fun _ after => after = last) := by
  refine Meets.get (Meets.cond (fun _ => Meets.throw rfl) fun exhausted => ?_)
  refine Meets.cond (fun _ => Meets.throw rfl) fun idle => ?_
  have completes : Completes task before last := ⟨done, by simpa using exhausted, by simpa using idle⟩
  split
  · exact Meets.pure completes
  · exact Meets.throw rfl

/-- What a round comes to: another moment of the exchange, or its end. -/
def Comes (task : Task) (first : Exchange υ δ γ κ) (phase : Option Phase)
    (after : Exchange υ δ γ κ) : Prop :=
  match phase with
  | none => Advances task first after
  | some _ => ∃ before, Advances task first before ∧ Completes task before after

theorem takeWaiting_meets (readiness : Readiness) (advanced : Advances task first now) :
    Meets (takeWaiting task readiness) now (Comes task first)
      (fun _ after => Visits task first after) := by
  refine Meets.cond (fun _ => Meets.pure advanced) fun _ => ?_
  refine (Meets.ran contentWaits).followedBy (fun _ _ ran => advanced.closed (.flushing ran)) ?_
  intro waits now flushed
  have advanced := advanced.attended (.flushed flushed)
  refine Meets.cond (fun _ => Meets.pure advanced) fun _ => ?_
  refine (Meets.ran (advanceDownloader task)).followedBy
    (fun _ _ ran => advanced.closed (.downloading ran)) ?_
  intro outcome now downloaded
  cases outcome with
  | ongoing => exact Meets.pure (advanced.downloaded downloaded)
  | complete =>
      refine (checkComplete_meets downloaded).followedBy ?_ ?_
      · intro _ last same
        subst same
        exact advanced.closed (.completed downloaded)
      · exact fun _ last completes => Meets.pure ⟨_, advanced, completes⟩

theorem round_meets (advanced : Advances task first now) :
    Meets (round task) now (Comes task first) (fun _ after => Visits task first after) := by
  refine (Meets.ran wait).followedBy (fun _ _ ran => advanced.closed (.waiting ran)) ?_
  intro readiness now waited
  have advanced := advanced.attended (.waited waited)
  refine Meets.get (Meets.cond (fun _ => ?_) fun _ => takeWaiting_meets readiness advanced)
  refine (Meets.ran (advanceUploader task)).followedBy
    (fun _ _ ran => advanced.closed (.uploading ran)) ?_
  intro _ now uploaded
  exact takeWaiting_meets readiness (advanced.attended (.uploaded uploaded))

theorem roundsUpTo_meets {limit : Nat} (left : Nat) (advanced : Advances task first now) :
    Meets (roundsUpTo task limit left) now
      (fun _ last => ∃ before, Advances task first before ∧ Completes task before last)
      (fun _ last => Visits task first last) := by
  induction left generalizing now with
  | zero => exact Meets.throw advanced.visits
  | succ left ih =>
      refine (round_meets advanced).bind fun phase now comes => ?_
      cases phase with
      | some phase => exact Meets.pure comes
      | none => exact ih comes

theorem run_meets (patience : Nat) :
    Meets (run task patience) first
      (fun _ after => ∃ before last, Advances task first before ∧ Completes task before last ∧
        after = abandonPending last)
      (fun _ after => ∃ last, Visits task first last ∧ after = abandonPending last) := by
  refine Meets.get (Meets.ensuring ((roundsUpTo_meets _ .start).mono ?_ ?_))
  · intro _ last met
    obtain ⟨before, advanced, completes⟩ := met
    exact ⟨before, last, advanced, completes, rfl⟩
  · exact fun _ last visited => ⟨last, visited, rfl⟩

/-- A whole exchange ends in a state it came to, less the file in progress. -/
theorem run_visits (task : Task) (first : Exchange υ δ γ κ) (patience : Nat) :
    ∃ last, Visits task first last ∧ stateAfter (run task patience) first = abandonPending last := by
  have ends : Meets (run task patience) first
      (fun _ after => ∃ last, Visits task first last ∧ after = abandonPending last)
      (fun _ after => ∃ last, Visits task first last ∧ after = abandonPending last) := by
    refine (run_meets patience).mono (fun _ after met => ?_) fun _ _ met => met
    obtain ⟨before, last, advanced, completes, same⟩ := met
    exact ⟨last, advanced.closed (.completed completes.done), same⟩
  exact ends.stateAfter

end TreeSync.Exchange

import TreeSync.Connection.Readiness
import TreeSync.Proofs.Message.Reading

namespace TreeSync

/-! What a connection was sent.

`sent` tells of each state of a connection what was written to it so far. Of a
connection that takes everything no more has to be known: each write adds to that, and
neither reads nor waits change it.
-/

open TreeSync.Action

variable {κ : Type} {sent : κ → Bytes → Prop}

/-- Whether every write that succeeds adds to what was sent; `failed` tells of the others. -/
def ByteSink.Adds [ByteSink κ] (sent : κ → Bytes → Prop) (failed : Fault → κ → Prop) : Prop :=
  ∀ {before : κ} {said : Bytes} (bytes : Bytes), sent before said →
    Meets (put bytes) before (fun _ after => sent after (said ++ bytes)) failed

/-- Whether every write succeeds and adds to what was sent. -/
def ByteSink.Accepts [ByteSink κ] (sent : κ → Bytes → Prop) : Prop :=
  ByteSink.Adds sent fun _ _ => False

/-- A sink that has room for everything, and what it was given so far. -/
structure BoundedSink.Holds (sink : BoundedSink) (said : Bytes) : Prop where
  written : sink.written = said
  room : sink.room = none

theorem BoundedSink.accepts : ByteSink.Accepts BoundedSink.Holds := by
  intro before said bytes held
  change Meets (BoundedSink.put bytes) before _ _
  unfold Meets BoundedSink.put
  rw [held.room]
  exact ⟨by rw [held.written], rfl⟩

/-- What is done in silence: all that was sent is what was sent before. -/
def Silent (sent : κ → Bytes → Prop) (before after : κ) : Prop :=
  ∀ said, sent before said → sent after said

theorem Silent.accumulates : Accumulates (Silent sent) where
  refl _ _ held := held
  trans earlier later said held := later said (earlier said held)

structure Transcript (κ : Type) [Connection κ] where
  sent : κ → Bytes → Prop
  accepts : ByteSink.Accepts sent
  reads : ByteSource.Respects (Silent sent)
  polls : ∀ timeout beside, Keeps (Silent sent)
    (Connection.poll timeout beside : EStateM Fault κ (Signals × Option Signals))

/-- What was said over a connection of which a write may fail. -/
structure Logbook (κ : Type) [Connection κ] where
  sent : κ → Bytes → Prop
  adds : ByteSink.Adds sent fun _ _ => True
  reads : ByteSource.Respects (Silent sent)
  polls : ∀ timeout beside, Keeps (Silent sent)
    (Connection.poll timeout beside : EStateM Fault κ (Signals × Option Signals))

namespace Emission

variable [ByteSink κ] {before : κ} {said : Bytes} {failed : Fault → κ → Prop}

theorem forM_put_meets (adds : ByteSink.Adds sent failed) (pieces : List Bytes)
    (held : sent before said) :
    Meets (pieces.forM ByteSink.put) before (fun _ after => sent after (said ++ pieces.flatten))
      failed := by
  induction pieces generalizing before said with
  | nil =>
      refine Meets.pure ?_
      simpa using held
  | cons piece rest ih =>
      refine (adds piece held).bind fun _ middle held => ?_
      refine (ih held).mono (fun _ after held => ?_) fun _ _ => id
      simpa using held

/-- An emission that refuses nothing is sent as a whole. -/
theorem send_meets (adds : ByteSink.Adds sent failed) {emission : Emission}
    (whole : emission.refusal = none) (held : sent before said) :
    Meets emission.send before (fun _ after => sent after (said ++ emission.bytes)) failed := by
  refine (forM_put_meets adds emission.pieces held).bind fun _ after held => ?_
  rw [whole]
  exact Meets.pure held

theorem whole_of_send {emission : Emission} {after : κ}
    (ran : emission.send before = .ok () after) : emission.refusal = none := by
  obtain ⟨_, between, -, last⟩ := of_bind_ok ran
  cases refused : emission.refusal with
  | none => rfl
  | some fault =>
      rw [refused] at last
      cases last

/-- A sink that takes everything takes just the emissions that refuse nothing. -/
theorem send_ok_iff (accepts : ByteSink.Accepts sent) {emission : Emission}
    (held : sent before said) :
    (∃ after, emission.send before = .ok () after) ↔ emission.refusal = none := by
  constructor
  · rintro ⟨after, ran⟩
    exact whole_of_send ran
  · intro whole
    obtain ⟨⟨⟩, after, ran, -⟩ := (send_meets accepts whole held).succeeds
    exact ⟨after, ran⟩

/-- What each write does to a connection, sending does to it as well. -/
theorem send_keeps {relation : κ → κ → Prop} (accumulates : Accumulates relation)
    (puts : ∀ bytes, Keeps relation (ByteSink.put bytes : EStateM Fault κ Unit))
    (emission : Emission) : Keeps relation (emission.send : EStateM Fault κ Unit) := by
  have all (pieces : List Bytes) :
      Keeps relation (pieces.forM ByteSink.put : EStateM Fault κ Unit) := by
    induction pieces with
    | nil => exact .pure accumulates trivial
    | cons piece rest ih => exact .bind accumulates (puts piece) fun _ _ => ih
  refine .bind accumulates (all emission.pieces) fun _ _ => ?_
  split
  · exact .throw accumulates
  · exact .pure accumulates trivial

end Emission

end TreeSync

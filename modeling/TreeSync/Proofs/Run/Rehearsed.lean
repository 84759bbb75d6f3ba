import TreeSync.Proofs.Message.Concluding
import TreeSync.Proofs.Run.Peer
import TreeSync.Rehearsal.StagedConnection

namespace TreeSync.StagedConnection

/-! Peers played by a connection that sends in stages.

Such a peer is honest if for all that it may be asked it has sent no more than the answers
when it was told that much. It only ends a run if its last two stages answer the end marks.
-/

open TreeSync.Action TreeSync.Speech

variable {stages : List Stage} {ending : ConnectionEnd} {room : Option Nat}

theorem put_ok {bytes : Bytes} {before after : StagedConnection}
    (done : (ByteSink.put bytes : EStateM Fault StagedConnection Unit) before = .ok () after) :
    ∃ sink, after = { before with sink }.refresh ∧
      sink.written = before.sink.written ++ bytes := by
  change put bytes before = _ at done
  unfold put at done
  cases written : BoundedSink.put bytes before.sink with
  | error fault sink =>
      rw [written] at done
      cases done
  | ok _ sink =>
      rw [written] at done
      cases done
      refine ⟨sink, rfl, ?_⟩
      unfold BoundedSink.put at written
      split at written
      · cases written
        rfl
      · split at written
        · cases written
          rfl
        · cases written

theorem read_leaves (limit : Nat) (before : StagedConnection) :
    Meets (ByteSource.read limit : EStateM Fault StagedConnection Bytes) before
      (fun bytes after => bytes ++ after.arrived = before.arrived ∧ after.stages = before.stages ∧
        after.sink = before.sink)
      (fun _ after => after = before) := by
  change Meets (read limit) before _ _
  unfold Meets read
  by_cases waits : before.arrived ≠ []
  · rw [if_pos waits]
    exact ⟨List.take_append_drop limit before.arrived, rfl, rfl⟩
  · rw [if_neg waits]
    by_cases ended : (before.complete && decide (before.ending ≠ .stays)) = true
    · rw [if_pos ended]
      exact ⟨rfl, rfl, rfl⟩
    · rw [if_neg ended]

/-- A connection on which all has arrived brings that and ends, unless it stays open. -/
theorem carries {connection : StagedConnection} (complete : connection.complete = true)
    (ends : connection.ending ≠ .stays) : Carries connection connection.arrived := by
  refine ⟨fun now bytes => now.complete = true ∧ now.ending ≠ .stays ∧ now.arrived = bytes, ⟨?_⟩,
    complete, ends, rfl⟩
  rintro now _ limit ⟨complete, ends, rfl⟩ positive
  change Meets (read limit) now _ _
  unfold Meets read
  by_cases waits : now.arrived ≠ []
  · rw [if_pos waits]
    refine ⟨now.arrived.drop limit, (List.take_append_drop _ _).symm, ⟨complete, ends, rfl⟩, ?_⟩
    intro vanishes
    rcases List.take_eq_nil_iff.mp vanishes with zero | empty
    · omega
    · exact absurd empty waits
  · have vanishes : now.arrived = [] := by simpa using waits
    have ended : (now.complete && decide (now.ending ≠ .stays)) = true := by
      rw [complete]
      simpa using ends
    rw [if_neg waits, if_pos ended]
    exact ⟨[], vanishes, ⟨complete, ends, vanishes⟩, fun _ => rfl⟩

/-- What was written to the connection so far. -/
def recording : Recording StagedConnection where
  written connection := connection.sink.written
  puts done := by
    obtain ⟨sink, rfl, written⟩ := put_ok done
    exact written
  reads limit before := by
    refine (read_leaves limit before).mono (fun _ _ met => ?_) fun _ _ same => ?_
    · exact ⟨congrArg BoundedSink.written met.2.2, trivial⟩
    · rw [same]
  polls timeout beside := .of_leaves fun before => rfl

/-- Stages arrive one after the other, whether the wait for them is broken or not. -/
theorem arrivals_arrivals {earlier later : Nat} (le : earlier ≤ later) (stages : List Stage) :
    (arrivals later stages).1 =
        (arrivals earlier stages).1 ++ (arrivals later (arrivals earlier stages).2).1 ∧
      (arrivals later stages).2 = (arrivals later (arrivals earlier stages).2).2 := by
  induction stages with
  | nil => exact ⟨rfl, rfl⟩
  | cons stage rest ih =>
      by_cases due : stage.after ≤ earlier
      · have due' : stage.after ≤ later := Nat.le_trans due le
        simp only [arrivals, if_pos due, if_pos due', List.append_assoc]
        exact ⟨congrArg _ ih.1, ih.2⟩
      · simp [arrivals, if_neg due]

/-- The state of such a connection, of which so much was read by now. -/
structure Plays (stages : List Stage) (taken : Bytes) (now : Inflow StagedConnection) : Prop where
  plain : now.multiplexed = false
  heard : taken ++ now.source.arrived = (arrivals now.source.sink.written.length stages).1
  left : now.source.stages = (arrivals now.source.sink.written.length stages).2

theorem read_plain {inflow : Inflow StagedConnection} (plain : inflow.multiplexed = false)
    (limit : Nat) :
    Meets (ByteSource.read limit : EStateM Fault (Inflow StagedConnection) Bytes) inflow
      (fun bytes after => ∃ source, ByteSource.read limit inflow.source = .ok bytes source ∧
        after = { inflow with source })
      (fun fault after => ∃ source, ByteSource.read limit inflow.source = .error fault source ∧
        after = { inflow with source }) := by
  change Meets (Inflow.read limit) inflow _ _
  unfold Meets Inflow.read
  rw [if_pos plain]
  cases ByteSource.read limit inflow.source with
  | ok bytes source => exact ⟨source, rfl, rfl⟩
  | error fault source => exact ⟨source, rfl, rfl⟩

theorem plays {first now : Inflow StagedConnection} {taken said : Bytes}
    (begun : first.source = .start stages ending room) (plain : first.multiplexed = false)
    (converses : first.Converses taken said now) : Plays stages taken now := by
  induction converses with
  | start => exact ⟨plain, by rw [begun]; rfl, by rw [begun]; rfl⟩
  | @read now after taken said bytes limit _ done ih =>
      obtain ⟨source, ran, rfl⟩ := (read_plain ih.plain limit).of_ok done
      obtain ⟨split, stages, sink⟩ := (read_leaves limit now.source).of_ok ran
      refine ⟨ih.plain, ?_, ?_⟩
      · rw [List.append_assoc, split, sink, ih.heard]
      · rw [stages, sink, ih.left]
  | @retried now after taken said limit fault _ failed _ ih =>
      obtain ⟨source, ran, rfl⟩ := (read_plain ih.plain limit).of_error failed
      obtain rfl := (read_leaves limit now.source).of_error ran
      exact ih
  | flushed earlier done ih =>
      unfold Inflow.flush at done
      rw [if_pos (.inl ih.plain)] at done
      cases done
      exact ih
  | reported _ journal ih => exact ⟨ih.plain, ih.heard, ih.left⟩
  | @wrote now source taken said bytes _ done ih =>
      obtain ⟨sink, rfl, written⟩ := put_ok done
      have longer : now.source.sink.written.length ≤ sink.written.length := by
        rw [written, List.length_append]
        exact Nat.le_add_right _ _
      obtain ⟨due, left⟩ := arrivals_arrivals longer stages
      refine ⟨ih.plain, ?_, ?_⟩
      · change taken ++ (now.source.arrived ++ (arrivals sink.written.length now.source.stages).1) =
          (arrivals sink.written.length stages).1
        rw [← List.append_assoc, ih.heard, ih.left, due]
      · change (arrivals sink.written.length now.source.stages).2 =
          (arrivals sink.written.length stages).2
        rw [ih.left, left]
  | waited _ done ih =>
      cases done
      exact ih

/-- Such a peer is honest if it sends nothing before its time, whatever it is asked. -/
theorem honest {peer : Peer} {options : Options} {files : List ListEntry}
    {first : Inflow StagedConnection} (begun : first.source = .start stages ending room)
    (plain : first.multiplexed = false)
    (fits : ∀ requests marks, Requests files requests → marks ≤ 3 →
      (arrivals (bytes (word options requests marks)).length stages).1 <+:
        peer.stream requests marks) : peer.Honest options files first := by
  intro taken said now requests marks converses asked few same
  have told := converses.written recording
  have written : now.source.sink.written = bytes (word options requests marks) := by
    rw [← same]
    rw [begun] at told
    exact told
  have heard := (plays begun plain converses).heard
  rw [written] at heard
  exact (heard ▸ List.prefix_append taken _).trans (fits requests marks asked few)

/-- The stages in which a peer ends a run, from a moment when so many bytes had been written. -/
def closing (written : Nat) (farewell : Bytes) : List Stage :=
  [⟨written + Wire.intWidth, Inflow.reply farewell 0⟩,
    ⟨written + 2 * Wire.intWidth, Inflow.reply farewell 1⟩]

/-- Each end mark brings the answer to it. -/
theorem arrivals_closing (written : Nat) (farewell : Bytes) (marks : Nat) :
    arrivals (written + (marks + 1) * Wire.intWidth) ((closing written farewell).drop marks) =
      (Inflow.reply farewell marks, (closing written farewell).drop (marks + 1)) := by
  match marks with
  | 0 => simp [closing, arrivals, Wire.intWidth]
  | 1 => simp [closing, arrivals]
  | marks + 2 => simp [closing, arrivals, Inflow.reply]

/-- The state of a connection on which so many end marks were answered in stages. -/
structure Closes (written : Nat) (farewell : Bytes) (marks : Nat) (now : Inflow StagedConnection)
    (answers : Bytes) : Prop where
  plain : now.multiplexed = false
  roomy : now.source.sink.room = none
  half : now.source.ending = .half
  arrived : now.source.arrived = answers
  heard : now.source.sink.written.length = written + marks * Wire.intWidth
  stages : now.source.stages = (closing written farewell).drop marks

namespace Closes

variable {written marks : Nat} {farewell answers : Bytes} {now : Inflow StagedConnection}
  (closes : Closes written farewell marks now answers)

include closes

theorem hears :
    ∃ source, (ByteSink.put (Wire.intBytes Wire.doneIndex) : EStateM Fault StagedConnection Unit)
        now.source = .ok () source ∧
      Closes written farewell (marks + 1) { now with source }
        (answers ++ Inflow.reply farewell marks) ∧
      (now.source.arrived ≠ [] → source.arrived ≠ []) := by
  obtain ⟨plain, roomy, half, arrived, heard, stages⟩ := closes
  let sink : BoundedSink :=
    { now.source.sink with written := now.source.sink.written ++ Wire.intBytes Wire.doneIndex }
  have put : BoundedSink.put (Wire.intBytes Wire.doneIndex) now.source.sink = .ok () sink := by
    simp [BoundedSink.put, sink, roomy]
  have told : sink.written.length = written + (marks + 1) * Wire.intWidth := by
    have width : (Wire.intBytes Wire.doneIndex).length = Wire.intWidth := rfl
    simp only [sink, List.length_append, heard, width]
    rw [Nat.add_assoc, ← Nat.succ_mul]
  have due := arrivals_closing written farewell marks
  rw [← told, ← stages] at due
  refine ⟨{ now.source with sink }.refresh, ?_, ?_, fun present => ?_⟩
  · change StagedConnection.put _ _ = _
    unfold StagedConnection.put
    rw [put]
  · exact ⟨plain, roomy, half, by simp [refresh, due, arrived], told, by simp [refresh, due]⟩
  · simp [refresh, present]

theorem brings {limit : Nat} (positive : 0 < limit) (fits : limit ≤ answers.length) :
    Meets (ByteSource.read limit : EStateM Fault (Inflow StagedConnection) Bytes) now
      (fun got after => ∃ rest, answers = got ++ rest ∧ got ≠ [] ∧
        Closes written farewell marks after rest)
      (fun _ _ => False) := by
  obtain ⟨plain, roomy, half, rfl, heard, stages⟩ := closes
  have nonempty : now.source.arrived ≠ [] := List.ne_nil_of_length_pos (Nat.lt_of_lt_of_le positive fits)
  have takes : (ByteSource.read limit : EStateM Fault StagedConnection Bytes) now.source =
      .ok (now.source.arrived.take limit)
        { now.source with arrived := now.source.arrived.drop limit } := by
    change StagedConnection.read limit now.source = _
    unfold StagedConnection.read
    rw [if_pos nonempty]
  refine Meets.intro (fun got after ran => ?_) fun fault after failed => ?_
  · obtain ⟨source, taken, rfl⟩ := (read_plain plain limit).of_ok ran
    cases takes.symm.trans taken
    refine ⟨now.source.arrived.drop limit, (List.take_append_drop _ _).symm, ?_, ?_⟩
    · rw [Ne, List.take_eq_nil_iff]
      exact not_or.mpr ⟨Nat.ne_of_gt positive, nonempty⟩
    · exact ⟨plain, roomy, half, rfl, heard, stages⟩
  · obtain ⟨source, failed', -⟩ := (read_plain plain limit).of_error failed
    cases takes.symm.trans failed'

/-- Until the second end mark there is something to read if an answer is left. -/
theorem signals (few : marks ≤ 1) :
    now.source.signals = { readable := decide (answers ≠ []) } := by
  obtain ⟨-, -, -, arrived, -, stages⟩ := closes
  have going : now.source.complete = false := by
    unfold complete
    rw [stages]
    match marks, few with
    | 0, _ => rfl
    | 1, _ => rfl
  simp [StagedConnection.signals, going, arrived]

end Closes

/-- A connection whose last stages answer the end marks is one to a peer that only ends the run. -/
theorem concluding {farewell : Bytes} {heard : Inflow StagedConnection}
    (closes : Closes heard.source.sink.written.length farewell 0 heard []) :
    Inflow.Concluding farewell heard := by
  refine ⟨Closes heard.source.sink.written.length farewell, fun now => now.source.arrived ≠ [],
    ?_, closes⟩
  constructor
  case hears => exact fun owed => owed.hears
  case brings =>
    exact fun owed positive fits => (owed.brings positive fits).mono (fun _ _ => id)
      fun _ _ => False.elim
  case wakes =>
    intro marks now answers timeout owed few
    refine ⟨{ owed with }, decide (answers ≠ []), ?_, fun _ present => decide_eq_true present, ?_⟩
    · rw [owed.signals few]
      rfl
    · intro present
      rw [owed.arrived]
      exact of_decide_eq_true present
  case plain => exact fun owed present _ => owed.arrived ▸ present
  case flushes =>
    intro marks now answers owed _ framed
    cases owed.plain.symm.trans framed
  case reports => exact fun _ owed => ⟨{ owed with }, id⟩

end TreeSync.StagedConnection

import TreeSync.FileList.Codec
import TreeSync.Proofs.Mirroring
import TreeSync.Totals

namespace TreeSync

/-! Reading from sources that answer alike.

If every single read of two sources is answered alike, then so is whatever is put together
from reads. An inflow answers alike wherever its source, its mode and its count of payload
to come are the same: neither the handler of messages nor the journal is ever asked.
-/

open TreeSync.Action

namespace ByteSource

variable {σ : Type} [ByteSource σ] {alike : σ → σ → Prop}

/-- Whether each single read is answered alike. -/
def Answers (alike : σ → σ → Prop) : Prop :=
  ∀ limit, Mirrors alike (read limit : EStateM Fault σ Bytes) (read limit)

/-- A reader that goes on until it has what it wants, or the stream ends. -/
def Gathers (ended : EStateM Fault σ Bytes) (gather : Nat → EStateM Fault σ Bytes) : Prop :=
  ∀ wanted source, gather wanted source =
    if wanted = 0 then .ok [] source
    else
      match read wanted source with
      | .ok [] after => ended after
      | .ok (byte :: rest) after =>
          match gather (wanted - (byte :: rest).length) after with
          | .ok more final => .ok (byte :: rest ++ more) final
          | .error fault final => .error fault final
      | .error fault after =>
          if fault.isInterrupted then gather wanted after else .error fault after

theorem readExact_gathers : Gathers (throw .endOfStream) (readExact (σ := σ)) := by
  intro wanted source
  rw [readExact]
  split
  · rfl
  · split <;> next ran => rw [ran] <;> rfl

theorem readUpTo_gathers : Gathers (pure []) (readUpTo (σ := σ)) := by
  intro wanted source
  rw [readUpTo]
  split
  · rfl
  · split <;> next ran => rw [ran] <;> rfl

theorem Gathers.mirrors {ended : EStateM Fault σ Bytes} {gather : Nat → EStateM Fault σ Bytes}
    (gathers : Gathers ended gather) (ends : Mirrors alike ended ended) (answers : Answers alike)
    (wanted : Nat) : Mirrors alike (gather wanted) (gather wanted) := by
  intro now there held
  -- by the budget of the first source: a read that the rest goes on from has spent some of it
  induction spent : budget now using Nat.strongRecOn generalizing wanted now there with
  | ind left ih =>
      subst spent
      rw [gathers wanted now, gathers wanted there]
      split
      · exact .ok [] held
      · obtain ⟨got, after, after', ran, ran', still⟩ | ⟨fault, after, after', ran, ran', still⟩ :=
          (answers wanted now there held).split <;> rw [ran, ran']
        · cases got with
          | nil => exact ends after after' still
          | cons byte rest =>
              dsimp only
              obtain ⟨more, _, _, tail, tail', last⟩ | ⟨fault, _, _, tail, tail', last⟩ :=
                (ih _ (budget_lt_of_read ran) (wanted - (byte :: rest).length) after after' still
                  rfl).split <;> rw [tail, tail']
              · exact .ok _ last
              · exact .error fault last
        · dsimp only
          split
          · next again =>
            exact ih _ (budget_lt_of_interrupted ran again) wanted after after' still rfl
          · exact .error fault still

theorem Answers.readExact (answers : Answers alike) (wanted : Nat) :
    Mirrors alike (ByteSource.readExact wanted : EStateM Fault σ Bytes)
      (ByteSource.readExact wanted) :=
  readExact_gathers.mirrors (.throw _) answers wanted

theorem Answers.readUpTo (answers : Answers alike) (wanted : Nat) :
    Mirrors alike (ByteSource.readUpTo wanted : EStateM Fault σ Bytes)
      (ByteSource.readUpTo wanted) :=
  readUpTo_gathers.mirrors (.pure _) answers wanted

end ByteSource

namespace Wire

variable {σ : Type} [ByteSource σ] {alike : σ → σ → Prop}

theorem readInt_mirrors (answers : ByteSource.Answers alike) :
    Mirrors alike (readInt : EStateM Fault σ Int32) readInt :=
  .bind (answers.readExact intWidth) fun _ => .pure _

theorem readLong_mirrors (answers : ByteSource.Answers alike) :
    Mirrors alike (readLong : EStateM Fault σ Int64) readLong := by
  refine .bind (readInt_mirrors answers) fun value => .cond ?_ (.pure _)
  exact .bind (answers.readExact longWidth) fun _ => .pure _

theorem readSize_mirrors (answers : ByteSource.Answers alike) (what : String) :
    Mirrors alike (readSize what : EStateM Fault σ UInt64) (readSize what) :=
  .bind (readLong_mirrors answers) fun _ => .cond (.throw _) (.pure _)

theorem readDone_mirrors (answers : ByteSource.Answers alike) (context : String) :
    Mirrors alike (readDone context : EStateM Fault σ Unit) (readDone context) :=
  .bind (readInt_mirrors answers) fun _ => .cond (.pure _) (.throw _)

end Wire

theorem Totals.receive_mirrors {σ : Type} [ByteSource σ] {alike : σ → σ → Prop}
    (answers : ByteSource.Answers alike) :
    Mirrors alike (Totals.receive : EStateM Fault σ Totals) Totals.receive := by
  refine .bind (Wire.readSize_mirrors answers _) fun _ => ?_
  refine .bind (Wire.readSize_mirrors answers _) fun _ => ?_
  exact .bind (Wire.readSize_mirrors answers _) fun _ => .pure _

namespace Inflow

variable {σ : Type} [ByteSource σ]

/-- A relation of inflows that leaves open nothing but the handler and the journal. -/
structure Overlooks (alike : Inflow σ → Inflow σ → Prop) : Prop where
  same : ∀ {now there}, alike now there → ∃ handler journal, there = { now with handler, journal }
  moves : ∀ {now there}, alike now there → ∀ source remaining,
    alike { now with source, remaining } { there with source, remaining }
  delivers : ∀ code payload,
    Mirrors alike (deliver code payload : EStateM Fault (Inflow σ) Unit) (deliver code payload)

variable {alike : Inflow σ → Inflow σ → Prop}

theorem Overlooks.nextMessage (overlooks : Overlooks alike) :
    Mirrors alike (Inflow.nextMessage : EStateM Fault (Inflow σ) Bool) Inflow.nextMessage := by
  intro now there held
  obtain ⟨handler, journal, rfl⟩ := overlooks.same held
  have moved (source : σ) := overlooks.moves held source now.remaining
  unfold Inflow.nextMessage
  dsimp only
  split
  · next fault source _ => exact .error fault (moved source)
  · next source _ => exact .ok false (moved source)
  · next bytes source _ =>
    split
    · next cause _ => exact .error (Fault.header cause) (moved source)
    · next header _ =>
      split
      · exact .ok true (overlooks.moves held source header.length)
      · split
        · next fault later _ => exact .error fault (moved later)
        · next payload later _ =>
          obtain ⟨_, _, _, ran, ran', still⟩ | ⟨fault, _, _, ran, ran', still⟩ :=
            (overlooks.delivers header.code payload _ _ (moved later)).split <;> rw [ran, ran']
          · exact .ok true still
          · exact .error fault still

theorem read_eq (limit : Nat) (inflow : Inflow σ) : read limit inflow =
    if inflow.multiplexed = false then
      match ByteSource.read limit inflow.source with
      | .ok bytes source => .ok bytes { inflow with source }
      | .error fault source => .error fault { inflow with source }
    else if limit = 0 then .ok [] inflow
    else if inflow.remaining = 0 then
      match nextMessage inflow with
      | .ok true after => read limit after
      | .ok false after => .ok [] after
      | .error fault after => .error fault after
    else
      match ByteSource.read (min limit inflow.remaining) inflow.source with
      | .ok [] source => .error (.payloadCut inflow.remaining) { inflow with source }
      | .ok (byte :: rest) source =>
          let remaining := inflow.remaining - (byte :: rest).length
          .ok (byte :: rest) { inflow with source, remaining }
      | .error fault source => .error fault { inflow with source } := by
  rw [read]
  split
  · rfl
  · split
    · rfl
    · split
      · split <;> next ran => rw [ran]
      · rfl

theorem Overlooks.read (overlooks : Overlooks alike) : ByteSource.Answers alike := by
  intro limit now there held
  change Matched alike (Inflow.read limit now) (Inflow.read limit there)
  -- by the budget of the source: each message that is passed over has spent some of it
  induction spent : ByteSource.budget now.source using Nat.strongRecOn generalizing now there with
  | ind left ih =>
      subst spent
      obtain ⟨handler, journal, rfl⟩ := overlooks.same held
      have moved (source : σ) := overlooks.moves held source now.remaining
      rw [read_eq limit now, read_eq limit { now with handler, journal }]
      dsimp only
      split
      · split
        · next bytes source _ => exact .ok bytes (moved source)
        · next fault source _ => exact .error fault (moved source)
      · split
        · exact .ok [] held
        · split
          · obtain ⟨more, after, after', ran, ran', still⟩ | ⟨fault, after, after', ran, ran', still⟩ :=
              (overlooks.nextMessage now _ held).split <;> rw [ran, ran']
            · cases more with
              | false => exact .ok [] still
              | true =>
                  have less := nextMessage_budget ran
                  have header : MessageHeader.width = 4 := rfl
                  simp only [if_true] at less
                  exact ih _ (by omega) after after' still rfl
            · exact .error fault still
          · split
            · next source _ => exact .error (Fault.payloadCut now.remaining) (moved source)
            · next byte rest source _ => exact .ok _ (overlooks.moves held source _)
            · next fault source _ => exact .error fault (moved source)

theorem Overlooks.flush (overlooks : Overlooks alike) :
    Mirrors alike (Inflow.flush : EStateM Fault (Inflow σ) Unit) Inflow.flush := by
  intro now there held
  obtain ⟨handler, journal, rfl⟩ := overlooks.same held
  unfold Inflow.flush
  dsimp only
  split
  · exact .ok () held
  · obtain ⟨more, _, _, ran, ran', still⟩ | ⟨fault, _, _, ran, ran', still⟩ :=
      (overlooks.nextMessage now _ held).split <;> rw [ran, ran']
    · cases more with
      | false => exact .error Fault.closedBetweenMessages still
      | true => exact .ok () still
    · exact .error fault still

end Inflow

namespace FileList

variable {σ : Type} [ByteSource σ] {alike : Inflow σ → Inflow σ → Prop}

theorem readEntry_mirrors (overlooks : Inflow.Overlooks alike) :
    Mirrors alike (readEntry : EStateM Fault (Inflow σ) (Option ListEntry)) readEntry := by
  have answers := overlooks.read
  have ints := Wire.readInt_mirrors answers
  have named (length : Nat) :
      Mirrors alike (readNamed length : EStateM Fault (Inflow σ) ListEntry) (readNamed length) := by
    refine .bind (answers.readExact length) fun bytes => ?_
    dsimp only
    split
    · exact .throw _
    · refine .bind ints fun _ => .bind (Wire.readLong_mirrors answers) fun _ => ?_
      exact .bind (Wire.readSize_mirrors answers _) fun _ => .pure _
  have measured (length : Int32) :
      Mirrors alike (nameLength length : EStateM Fault (Inflow σ) Nat) (nameLength length) :=
    .cond (.throw _) (.cond (.throw _) (.pure _))
  refine .bind ints fun length => .cond (.pure _) ?_
  exact .bind (measured length) fun wanted => .bind (named wanted) fun _ => .pure _

theorem readEntries_eq (count : Nat) (inflow : Inflow σ) : readEntries count inflow =
    match readEntry inflow with
    | .error fault after => .error fault after
    | .ok none after => .ok [] after
    | .ok (some entry) after =>
        let journal := after.journal.debug .fileList 2 (describe count entry)
        match readEntries (count + 1) { after with journal } with
        | .ok rest final => .ok (entry :: rest) final
        | .error fault final => .error fault final := by
  rw [readEntries]
  split
  · next ran => exact ran ▸ rfl
  · next ran => exact ran ▸ rfl
  · next ran => exact ran ▸ rfl

variable (overlooks : Inflow.Overlooks alike)
  (reports : ∀ {now there}, alike now there → ∀ flag level message,
    alike { now with journal := now.journal.debug flag level message }
      { there with journal := there.journal.debug flag level message })

include overlooks reports

theorem readEntries_mirrors (count : Nat) :
    Mirrors alike (readEntries count : EStateM Fault (Inflow σ) (List ListEntry))
      (readEntries count) := by
  intro now there held
  -- by the budget of the source: each entry has spent some of it
  induction spent : ByteSource.budget now.source using Nat.strongRecOn
    generalizing count now there with
  | ind left ih =>
      subst spent
      rw [readEntries_eq count now, readEntries_eq count there]
      obtain ⟨taken, after, after', ran, ran', still⟩ | ⟨fault, after, after', ran, ran', still⟩ :=
        (readEntry_mirrors overlooks now there held).split <;> rw [ran, ran']
      · cases taken with
        | none => exact .ok [] still
        | some entry =>
            have less : ByteSource.budget after.source < ByteSource.budget now.source := by
              have cost : ByteSource.budget after.source + 4 ≤ ByteSource.budget now.source :=
                readEntry_spends.budget_le ran
              omega
            have reported := reports still .fileList 2 (describe count entry)
            dsimp only
            obtain ⟨rest, _, _, tail, tail', last⟩ | ⟨fault, _, _, tail, tail', last⟩ :=
              (ih _ less (count + 1) _ _ reported rfl).split <;> rw [tail, tail']
            · exact .ok _ last
            · exact .error fault last
      · exact .error fault still

theorem read_mirrors :
    Mirrors alike (FileList.read : EStateM Fault (Inflow σ) (List ListEntry)) FileList.read := by
  refine .bind (readEntries_mirrors overlooks reports 0) fun entries => ?_
  exact .bind (.change fun _ _ held => reports held _ _ _) fun _ => .pure entries

end FileList

end TreeSync

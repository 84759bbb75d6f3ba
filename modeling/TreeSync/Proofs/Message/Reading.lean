import TreeSync.FileList.Codec
import TreeSync.Proofs.Outcomes
import TreeSync.Totals

namespace TreeSync

/-! What reading does to the source it reads from.

A relation that each read of a source respects, whether the read fails or not, is
respected by whatever reads from that source, and through messages as well.
-/

open TreeSync.Action

namespace ByteSource

variable {σ : Type} [ByteSource σ] {relation : σ → σ → Prop}

/-- Whether each read relates the source to what it leaves of it. -/
def Respects (relation : σ → σ → Prop) : Prop :=
  ∀ limit, Keeps relation (read limit : EStateM Fault σ Bytes)

theorem readExact_keeps (accumulates : Accumulates relation) (reads : Respects relation)
    (wanted : Nat) : Keeps relation (readExact wanted : EStateM Fault σ Bytes) := by
  refine .of_leaves fun before => ?_
  fun_induction readExact wanted before with
  | case1 => exact accumulates.refl _
  | case2 wanted source _ after ended => exact (reads wanted).of_ok ended
  | case3 wanted source _ byte rest after first more final tail ih
  | case4 wanted source _ byte rest after first fault final tail ih =>
      rw [tail] at ih
      exact accumulates.trans ((reads wanted).of_ok first) ih
  | case5 wanted source _ fault after failed again ih =>
      exact ih.after accumulates ((reads wanted).of_error failed)
  | case6 wanted source _ fault after failed => exact (reads wanted).of_error failed

theorem readUpTo_keeps (accumulates : Accumulates relation) (reads : Respects relation)
    (wanted : Nat) : Keeps relation (readUpTo wanted : EStateM Fault σ Bytes) := by
  refine .of_leaves fun before => ?_
  fun_induction readUpTo wanted before with
  | case1 => exact accumulates.refl _
  | case2 wanted source _ after ended => exact (reads wanted).of_ok ended
  | case3 wanted source _ byte rest after first more final tail ih
  | case4 wanted source _ byte rest after first fault final tail ih =>
      rw [tail] at ih
      exact accumulates.trans ((reads wanted).of_ok first) ih
  | case5 wanted source _ fault after failed again ih =>
      exact ih.after accumulates ((reads wanted).of_error failed)
  | case6 wanted source _ fault after failed => exact (reads wanted).of_error failed

end ByteSource

namespace Wire

variable {σ : Type} [ByteSource σ] {relation : σ → σ → Prop}

theorem readInt_keeps (accumulates : Accumulates relation) (reads : ByteSource.Respects relation) :
    Keeps relation (readInt : EStateM Fault σ Int32) :=
  .bind accumulates (ByteSource.readExact_keeps accumulates reads _) fun _ _ =>
    .pure accumulates trivial

theorem readLong_keeps (accumulates : Accumulates relation) (reads : ByteSource.Respects relation) :
    Keeps relation (readLong : EStateM Fault σ Int64) := by
  refine .bind accumulates (readInt_keeps accumulates reads) fun value _ => .cond ?_ ?_
  · exact .bind accumulates (ByteSource.readExact_keeps accumulates reads _) fun _ _ =>
      .pure accumulates trivial
  · exact .pure accumulates trivial

theorem readSize_keeps (accumulates : Accumulates relation) (reads : ByteSource.Respects relation)
    (what : String) : Keeps relation (readSize what : EStateM Fault σ UInt64) :=
  .bind accumulates (readLong_keeps accumulates reads) fun _ _ =>
    .cond (.throw accumulates) (.pure accumulates trivial)

theorem readDone_keeps (accumulates : Accumulates relation) (reads : ByteSource.Respects relation)
    (context : String) : Keeps relation (readDone context : EStateM Fault σ Unit) :=
  .bind accumulates (readInt_keeps accumulates reads) fun _ _ =>
    .cond (.pure accumulates trivial) (.throw accumulates)

end Wire

theorem Totals.receive_keeps {σ : Type} [ByteSource σ] {relation : σ → σ → Prop}
    (accumulates : Accumulates relation) (reads : ByteSource.Respects relation) :
    Keeps relation (Totals.receive : EStateM Fault σ Totals) := by
  have reading (what : String) := Wire.readSize_keeps accumulates reads what
  exact .bind accumulates (reading _) fun _ _ => .bind accumulates (reading _) fun _ _ =>
    .bind accumulates (reading _) fun _ _ => .pure accumulates trivial

namespace Inflow

variable {σ : Type} {relation : σ → σ → Prop}

/-- What reading does to an inflow: its source is read from, and its mode stays. -/
structure Drawn (relation : σ → σ → Prop) (before after : Inflow σ) : Prop where
  source : relation before.source after.source
  multiplexed : after.multiplexed = before.multiplexed

theorem Drawn.accumulates (accumulates : Accumulates relation) : Accumulates (Drawn relation) where
  refl inflow := ⟨accumulates.refl inflow.source, rfl⟩
  trans earlier later :=
    ⟨accumulates.trans earlier.source later.source, later.multiplexed.trans earlier.multiplexed⟩

theorem Drawn.report (accumulates : Accumulates relation) (inflow : Inflow σ) (journal : Journal) :
    Drawn relation inflow { inflow with journal } :=
  ⟨accumulates.refl inflow.source, rfl⟩

theorem deliver_draws (accumulates : Accumulates relation) (code : MessageCode) (payload : Bytes) :
    Keeps (Drawn relation) (deliver code payload : EStateM Fault (Inflow σ) Unit) := by
  refine .of_leaves fun inflow => ?_
  unfold deliver
  split
  · exact ⟨accumulates.refl _, rfl⟩
  · split
    · exact ⟨accumulates.refl _, rfl⟩
    · exact ⟨accumulates.refl _, rfl⟩

variable [ByteSource σ]

/-- What whatever reads from an inflow respects, if each of its parts does. -/
structure Tolerates (relation : Inflow σ → Inflow σ → Prop) : Prop where
  accumulates : Accumulates relation
  reads : ByteSource.Respects fun before after : σ =>
    ∀ inflow : Inflow σ, relation { inflow with source := before } { inflow with source := after }
  counts : ∀ (inflow : Inflow σ) remaining, relation inflow { inflow with remaining }
  delivers : ∀ code payload, Keeps relation (deliver code payload : EStateM Fault (Inflow σ) Unit)
  reports : ∀ (inflow : Inflow σ) flag level message,
    relation inflow { inflow with journal := inflow.journal.debug flag level message }

theorem Drawn.tolerates (accumulates : Accumulates relation)
    (reads : ByteSource.Respects relation) : Tolerates (Drawn relation) where
  accumulates := Drawn.accumulates accumulates
  reads limit := (reads limit).mono (fun _ _ read _ => ⟨read, rfl⟩) fun _ _ => trivial
  counts inflow _ := ⟨accumulates.refl inflow.source, rfl⟩
  delivers := deliver_draws accumulates
  reports inflow _ _ _ := .report accumulates inflow _

theorem fillHeader_keeps (accumulates : Accumulates relation)
    (reads : ByteSource.Respects relation) (filled : Bytes) :
    Keeps relation (fillHeader filled : EStateM Fault σ (Option Bytes)) := by
  refine .of_leaves fun before => ?_
  fun_induction fillHeader filled before with
  | case1 => exact accumulates.refl _
  | case2 source _ after ended => exact (reads _).of_ok ended
  | case3 filled source _ after ended => exact (reads _).of_ok ended
  | case4 filled source _ byte rest after first ih =>
      exact ih.after accumulates ((reads _).of_ok first)
  | case5 filled source _ fault after failed again ih =>
      exact ih.after accumulates ((reads _).of_error failed)
  | case6 filled source _ fault after failed => exact (reads _).of_error failed

section

variable {relation : Inflow σ → Inflow σ → Prop}

theorem Tolerates.sources (tolerates : Tolerates relation) : Accumulates fun before after : σ =>
    ∀ inflow : Inflow σ, relation { inflow with source := before } { inflow with source := after } where
  refl _ _ := tolerates.accumulates.refl _
  trans earlier later inflow := tolerates.accumulates.trans (earlier inflow) (later inflow)

theorem nextMessage_keeps (tolerates : Tolerates relation) :
    Keeps relation (nextMessage : EStateM Fault (Inflow σ) Bool) := by
  refine .of_leaves fun inflow => ?_
  unfold nextMessage
  have filled := (fillHeader_keeps tolerates.sources tolerates.reads []).leaves inflow.source
  split
  · next fault source ran =>
    rw [ran] at filled
    exact filled inflow
  · next source ran =>
    rw [ran] at filled
    exact filled inflow
  · next bytes source ran =>
    rw [ran] at filled
    split
    · exact filled inflow
    · next header decoded =>
      split
      · exact tolerates.accumulates.trans (filled inflow) (tolerates.counts _ _)
      · have read := (ByteSource.readExact_keeps tolerates.sources tolerates.reads header.length).leaves
          source
        split
        · next fault after ran =>
          rw [ran] at read
          exact tolerates.accumulates.trans (filled inflow) (read inflow)
        · next payload after ran =>
          rw [ran] at read
          have came : relation inflow { inflow with source := after } :=
            tolerates.accumulates.trans (filled inflow) (read inflow)
          have delivered := (tolerates.delivers header.code payload).leaves
            { inflow with source := after }
          have whole := delivered.after tolerates.accumulates came
          split <;> next ended => rwa [ended] at whole

theorem read_keeps (tolerates : Tolerates relation) : ByteSource.Respects relation := by
  refine fun limit => .of_leaves fun before => ?_
  change Leaves relation before (read limit before)
  fun_induction read limit before with
  | case1 inflow plain bytes source first => exact (tolerates.reads _).of_ok first inflow
  | case2 inflow plain fault source failed => exact ((tolerates.reads _).of_error failed) inflow
  | case3 inflow => exact tolerates.accumulates.refl inflow
  | case4 inflow _ _ _ after advanced ih =>
      exact ih.after tolerates.accumulates ((nextMessage_keeps tolerates).of_ok advanced)
  | case5 inflow _ _ _ after advanced => exact (nextMessage_keeps tolerates).of_ok advanced
  | case6 inflow _ _ _ fault after failed => exact (nextMessage_keeps tolerates).of_error failed
  | case7 inflow _ _ _ source first => exact (tolerates.reads _).of_ok first inflow
  | case8 inflow _ _ _ byte rest source first =>
      exact tolerates.accumulates.trans ((tolerates.reads _).of_ok first inflow) (tolerates.counts _ _)
  | case9 inflow _ _ _ fault source failed => exact (tolerates.reads _).of_error failed inflow

theorem flush_keeps (tolerates : Tolerates relation) :
    Keeps relation (flush : EStateM Fault (Inflow σ) Unit) := by
  refine .of_leaves fun inflow => ?_
  unfold flush
  have advanced := (nextMessage_keeps tolerates).leaves inflow
  split
  · exact tolerates.accumulates.refl inflow
  · split <;> next ran => rwa [ran] at advanced

end

section

variable (accumulates : Accumulates relation) (reads : ByteSource.Respects relation)

include accumulates reads

theorem read_draws : ByteSource.Respects (Drawn relation : Inflow σ → Inflow σ → Prop) :=
  read_keeps (Drawn.tolerates accumulates reads)

theorem flush_draws : Keeps (Drawn relation) (flush : EStateM Fault (Inflow σ) Unit) :=
  flush_keeps (Drawn.tolerates accumulates reads)

end

end Inflow

namespace FileList

open Inflow

variable {σ : Type} [ByteSource σ] {relation : Inflow σ → Inflow σ → Prop}

theorem readEntry_keeps (tolerates : Tolerates relation) :
    Keeps relation (readEntry : EStateM Fault (Inflow σ) (Option ListEntry)) := by
  have reads := read_keeps tolerates
  have trans := tolerates.accumulates
  have ints := Wire.readInt_keeps trans reads
  have named (length : Nat) :
      Keeps relation (readNamed length : EStateM Fault (Inflow σ) ListEntry) := by
    refine .bind trans (ByteSource.readExact_keeps trans reads length) fun bytes _ => ?_
    dsimp only
    split
    · exact .throw trans
    · exact .bind trans ints fun _ _ => .bind trans (Wire.readLong_keeps trans reads) fun _ _ =>
        .bind trans (Wire.readSize_keeps trans reads _) fun _ _ => .pure trans trivial
  have measured (length : Int32) :
      Keeps relation (nameLength length : EStateM Fault (Inflow σ) Nat) :=
    .cond (.throw trans) (.cond (.throw trans) (.pure trans trivial))
  refine .bind trans ints fun length _ => .cond (.pure trans trivial) ?_
  exact .bind trans (measured length) fun wanted _ => .bind trans (named wanted) fun _ _ =>
    .pure trans trivial

theorem readEntries_keeps (tolerates : Tolerates relation) (count : Nat) :
    Keeps relation (readEntries count : EStateM Fault (Inflow σ) (List ListEntry)) := by
  have trans := tolerates.accumulates
  refine .of_leaves fun before => ?_
  fun_induction readEntries count before with
  | case1 count inflow fault after failed => exact (readEntry_keeps tolerates).of_error failed
  | case2 count inflow after taken => exact (readEntry_keeps tolerates).of_ok taken
  | case3 count inflow entry after taken journal rest final tail ih
  | case4 count inflow entry after taken journal fault final tail ih =>
      rw [tail] at ih
      have first := (readEntry_keeps tolerates).of_ok taken
      exact trans.trans first (trans.trans (tolerates.reports after _ _ _) ih)

theorem read_keeps (tolerates : Tolerates relation) :
    Keeps relation (FileList.read : EStateM Fault (Inflow σ) (List ListEntry)) := by
  have trans := tolerates.accumulates
  refine .bind trans (readEntries_keeps tolerates 0) fun entries _ => ?_
  exact .bind trans (.change fun inflow => tolerates.reports inflow _ _ _) fun _ _ =>
    .pure trans trivial

theorem read_draws {relation : σ → σ → Prop} (accumulates : Accumulates relation)
    (reads : ByteSource.Respects relation) :
    Keeps (Drawn relation) (FileList.read : EStateM Fault (Inflow σ) (List ListEntry)) :=
  read_keeps (Drawn.tolerates accumulates reads)

end FileList

end TreeSync

import TreeSync.FileList.Codec
import TreeSync.Proofs.Stream.Carrying

namespace TreeSync

/-! Why a decoder gives up.

A source that brings its bytes and then ends leaves a decoder two ways to fail. Either it was
sent something that cannot be read, or it wanted more than came, and then the source has
ended. Messages add no third way, as long as nobody refuses one.
-/

open TreeSync.Action ByteSource

variable {σ α β : Type}

inductive GivesUp (dry : σ → Prop) (fault : Fault) (after : σ) : Prop where
  | malformed (kind : fault.kind = .invalidData)
  | ended (kind : fault.kind = .unexpectedEof) (last : dry after)

/-- A source that has bytes to come flows until it is dry. -/
structure Drains [ByteSource σ] (flows dry : σ → Prop) : Prop where
  read : ∀ {source : σ} {limit : Nat}, flows source → 0 < limit →
    Meets (ByteSource.read limit) source (fun got after => flows after ∧ (got = [] → dry after))
      (fun fault after => (fault.isInterrupted = true → flows after) ∧
        (fault.isInterrupted = false → GivesUp dry fault after))

theorem GivesUp.final {dry : σ → Prop} {fault : Fault} {after : σ}
    (gaveUp : GivesUp dry fault after) : fault.isInterrupted = false := by
  unfold Fault.isInterrupted
  cases gaveUp with
  | malformed kind => rw [kind]; rfl
  | ended kind => rw [kind]; rfl

namespace Drains

variable [ByteSource σ] {flows dry : σ → Prop} (drains : Drains flows dry) {limit : Nat}
  {before after : σ}

include drains

theorem got {bytes : Bytes} (here : flows before) (positive : 0 < limit)
    (ran : ByteSource.read limit before = .ok bytes after) :
    flows after ∧ (bytes = [] → dry after) :=
  (drains.read here positive).of_ok ran

theorem again {fault : Fault} (here : flows before) (positive : 0 < limit)
    (failed : ByteSource.read limit before = .error fault after)
    (interrupted : fault.isInterrupted = true) : flows after :=
  ((drains.read here positive).of_error failed).1 interrupted

theorem gaveUp {fault : Fault} (here : flows before) (positive : 0 < limit)
    (failed : ByteSource.read limit before = .error fault after)
    (final : ¬ fault.isInterrupted = true) : GivesUp dry fault after :=
  ((drains.read here positive).of_error failed).2 (by simpa using final)

end Drains

/-- Whether a step on a source that flows leaves it so, or gives up for one of the two reasons. -/
def Sifts (flows dry : σ → Prop) (step : EStateM Fault σ α) : Prop :=
  ∀ source, flows source → Meets step source (fun _ after => flows after) (GivesUp dry)

namespace Sifts

variable {flows dry : σ → Prop}

theorem pure (value : α) : Sifts flows dry (Pure.pure value) :=
  fun _ here => here

theorem throw {fault : Fault} (kind : fault.kind = .invalidData) :
    Sifts flows dry (MonadExcept.throw fault : EStateM Fault σ α) :=
  fun _ _ => GivesUp.malformed kind

theorem bind {first : EStateM Fault σ β} {next : β → EStateM Fault σ α}
    (start : Sifts flows dry first) (later : ∀ value, Sifts flows dry (next value)) :
    Sifts flows dry (first >>= next) :=
  fun source here => (start source here).bind fun value after there => later value after there

theorem cond {condition : Prop} [Decidable condition] {yes no : EStateM Fault σ α}
    (holds : Sifts flows dry yes) (fails : Sifts flows dry no) :
    Sifts flows dry (if condition then yes else no) := by
  split
  · exact holds
  · exact fails

variable [ByteSource σ] (drains : Drains flows dry)

include drains

theorem readExact (wanted : Nat) : Sifts flows dry (ByteSource.readExact wanted) := by
  intro source here
  unfold Meets
  -- by the reads: one that brings nothing is the end, and one that was interrupted is no loss
  fun_induction ByteSource.readExact wanted source with
  | case1 => exact here
  | case2 wanted source some after ended =>
      exact .ended rfl ((drains.got here (Nat.pos_of_ne_zero some) ended).2 rfl)
  | case3 wanted source some byte rest after first more final tail ih
  | case4 wanted source some byte rest after first fault final tail ih =>
      have later := ih (drains.got here (Nat.pos_of_ne_zero some) first).1
      rwa [tail] at later
  | case5 wanted source some fault after failed again ih =>
      exact ih (drains.again here (Nat.pos_of_ne_zero some) failed again)
  | case6 wanted source some fault after failed final =>
      exact drains.gaveUp here (Nat.pos_of_ne_zero some) failed final

theorem readInt : Sifts flows dry Wire.readInt :=
  (readExact drains Wire.intWidth).bind fun _ => pure _

theorem readLong : Sifts flows dry Wire.readLong :=
  (readInt drains).bind fun _ => cond ((readExact drains Wire.longWidth).bind fun _ => pure _) (pure _)

theorem readSize (what : String) : Sifts flows dry (Wire.readSize what) :=
  (readLong drains).bind fun _ => cond (throw rfl) (pure _)

end Sifts

/-- A source that brings its bytes flows until none are left. -/
theorem Carries.drains [ByteSource σ] :
    Drains (fun source : σ => ∃ bytes, Carries source bytes) fun source => Carries source [] where
  read {source limit} here positive := by
    obtain ⟨bytes, here⟩ := here
    refine (Carries.serves.read here positive).mono ?_ ?_
    · intro got after met
      obtain ⟨rest, _, there, last⟩ := met
      exact ⟨⟨rest, there⟩, fun nothing => last nothing ▸ there⟩
    · intro fault after met
      refine ⟨fun _ => ⟨bytes, met.2⟩, fun final => ?_⟩
      rw [met.1] at final
      cases final

variable [ByteSource σ]

/-- An inflow from a source that brings its bytes; nobody refuses the messages. -/
structure Inflow.Flows (inflow : Inflow σ) : Prop where
  source : ∃ bytes, Carries inflow.source bytes
  unattended : inflow.handler = none

def Inflow.Dry (inflow : Inflow σ) : Prop :=
  Carries inflow.source []

/-- Whoever reads through messages gives up when a reader of the source beneath does. -/
theorem GivesUp.through {fault : Fault} {inflow : Inflow σ}
    (gaveUp : GivesUp (fun source => Carries source []) fault inflow.source) :
    GivesUp Inflow.Dry fault inflow := by
  cases gaveUp with
  | malformed kind => exact .malformed kind
  | ended kind last => exact .ended kind last

namespace Inflow

theorem fillHeader_drains {filled : Bytes} {source : σ} (here : ∃ bytes, Carries source bytes) :
    Meets (fillHeader filled) source
      (fun header after => (∃ bytes, Carries after bytes) ∧ (header = none → Carries after []))
      (GivesUp fun after => Carries after []) := by
  unfold Meets
  fun_induction fillHeader filled source with
  | case1 => exact ⟨here, fun missing => absurd missing (Option.some_ne_none _)⟩
  | case2 source after wanted ended =>
      have met := Carries.drains.got here (Nat.sub_pos_of_lt (Nat.lt_of_not_le wanted)) ended
      exact ⟨met.1, fun _ => met.2 rfl⟩
  | case3 filled source wanted after ended =>
      have met := Carries.drains.got here (Nat.sub_pos_of_lt (Nat.lt_of_not_le wanted)) ended
      exact .ended rfl (met.2 rfl)
  | case4 filled source wanted byte rest after first ih =>
      exact ih (Carries.drains.got here (Nat.sub_pos_of_lt (Nat.lt_of_not_le wanted)) first).1
  | case5 filled source wanted fault after failed again ih =>
      exact ih (Carries.drains.again here (Nat.sub_pos_of_lt (Nat.lt_of_not_le wanted)) failed again)
  | case6 filled source wanted fault after failed final =>
      exact Carries.drains.gaveUp here (Nat.sub_pos_of_lt (Nat.lt_of_not_le wanted)) failed final

theorem deliver_flows {inflow : Inflow σ} (here : inflow.Flows) (code : MessageCode)
    (payload : Bytes) :
    deliver code payload inflow =
      .ok () { inflow with journal := inflow.journal.route code payload } := by
  unfold deliver
  rw [here.unattended]

theorem nextMessage_drains {inflow : Inflow σ} (here : inflow.Flows) :
    Meets nextMessage inflow (fun more after => after.Flows ∧ (more = false → after.Dry))
      (GivesUp Dry) := by
  have filled : Meets (fillHeader []) inflow.source _ _ := fillHeader_drains here.source
  unfold Meets at filled
  unfold Meets nextMessage
  cases ran : fillHeader [] inflow.source with
  | error fault source =>
      rw [ran] at filled
      exact filled.through
  | ok header source =>
      rw [ran] at filled
      cases header with
      | none => exact ⟨⟨filled.1, here.unattended⟩, fun _ => filled.2 rfl⟩
      | some bytes =>
          dsimp only
          cases MessageHeader.decode bytes with
          | error cause => exact .malformed rfl
          | ok header =>
              dsimp only
              by_cases data : header.code = .data
              · rw [if_pos data]
                exact ⟨⟨filled.1, here.unattended⟩, nofun⟩
              · rw [if_neg data]
                have whole := Sifts.readExact Carries.drains header.length source filled.1
                unfold Meets at whole
                cases taken : readExact header.length source with
                | error fault after =>
                    rw [taken] at whole
                    exact whole.through
                | ok payload after =>
                    rw [taken] at whole
                    have there : Flows { inflow with source := after } := ⟨whole, here.unattended⟩
                    dsimp only
                    rw [deliver_flows there]
                    exact ⟨⟨whole, here.unattended⟩, nofun⟩

theorem drains : Drains (Flows (σ := σ)) Dry where
  read {inflow limit} here positive := by
    change Meets (Inflow.read limit) inflow _ _
    have final {fault : Fault} {after : Inflow σ} (gaveUp : GivesUp Dry fault after) :
        (fault.isInterrupted = true → after.Flows) ∧
          (fault.isInterrupted = false → GivesUp Dry fault after) :=
      ⟨fun again => absurd (gaveUp.final.symm.trans again) (by decide), fun _ => gaveUp⟩
    unfold Meets
    fun_induction Inflow.read limit inflow with
    | case1 inflow plain bytes source first =>
        have met := Carries.drains.got here.source positive first
        exact ⟨⟨met.1, here.unattended⟩, met.2⟩
    | case2 inflow plain fault source first =>
        have met := (Carries.drains.read here.source positive).of_error first
        exact ⟨fun again => ⟨met.1 again, here.unattended⟩, fun last => (met.2 last).through⟩
    | case3 inflow _ zero => omega
    | case4 inflow _ _ _ after advanced ih =>
        exact ih ((nextMessage_drains here).of_ok advanced).1
    | case5 inflow _ _ _ after advanced =>
        have met := (nextMessage_drains here).of_ok advanced
        exact ⟨met.1, fun _ => met.2 rfl⟩
    | case6 inflow _ _ _ fault after advanced =>
        exact final ((nextMessage_drains here).of_error advanced)
    | case7 inflow _ _ more source first =>
        have present : 0 < min limit inflow.remaining := by omega
        exact final (.ended rfl ((Carries.drains.got here.source present first).2 rfl))
    | case8 inflow _ _ more byte rest source first =>
        have present : 0 < min limit inflow.remaining := by omega
        refine ⟨⟨(Carries.drains.got here.source present first).1, here.unattended⟩, fun nothing => ?_⟩
        exact absurd nothing (List.cons_ne_nil byte rest)
    | case9 inflow _ _ more fault source first =>
        have present : 0 < min limit inflow.remaining := by omega
        have met := (Carries.drains.read here.source present).of_error first
        exact ⟨fun again => ⟨met.1 again, here.unattended⟩, fun last => (met.2 last).through⟩

end Inflow

namespace FileList

open Inflow

theorem readEntry_sifts : Sifts (Flows (σ := σ)) Dry readEntry := by
  have named (length : Nat) : Sifts (Flows (σ := σ)) Dry (readNamed length) := by
    refine (Sifts.readExact drains length).bind fun name => ?_
    dsimp only
    cases acceptName ⟨name⟩ with
    | error cause => exact .throw rfl
    | ok fine =>
        exact (Sifts.readInt drains).bind fun _ => (Sifts.readLong drains).bind fun _ =>
          (Sifts.readSize drains _).bind fun _ => .pure _
  have measured (length : Int32) : Sifts (Flows (σ := σ)) Dry (nameLength length) :=
    .cond (.throw rfl) (.cond (.throw rfl) (.pure _))
  exact (Sifts.readInt drains).bind fun length => .cond (.pure _)
    ((measured length).bind fun wanted => (named wanted).bind fun _ => .pure _)

theorem readEntries_sifts (count : Nat) : Sifts (Flows (σ := σ)) Dry (readEntries count) := by
  intro inflow here
  unfold Meets
  fun_induction readEntries count inflow with
  | case1 count inflow fault after failed => exact (readEntry_sifts inflow here).of_error failed
  | case2 count inflow after ended => exact (readEntry_sifts inflow here).of_ok ended
  | case3 count inflow entry after taken journal rest final tail ih
  | case4 count inflow entry after taken journal fault final tail ih =>
      have there := (readEntry_sifts inflow here).of_ok taken
      have later := ih ⟨there.source, there.unattended⟩
      rwa [tail] at later

/-- A list that cannot be read is malformed, or the stream ended before it did. -/
theorem read_sifts : Sifts (Flows (σ := σ)) Dry read :=
  (readEntries_sifts 0).bind fun _ _ here => ⟨here.source, here.unattended⟩

end FileList

end TreeSync

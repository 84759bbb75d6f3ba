import TreeSync.FileList.Codec
import TreeSync.Proofs.Message.Framing
import TreeSync.Totals

namespace TreeSync

/-! What reads and decodes to through messages is what it is without them. -/

open TreeSync.Action ByteSource

variable {σ τ α : Type} [ByteSource σ] [ByteSource τ]

namespace Inflow

/-- An inflow brings payload: of a plain stream all of it, else that of the data messages. -/
inductive Brings (inflow : Inflow σ) : Bytes → Prop where
  | plain {bytes : Bytes} (plain : inflow.multiplexed = false)
      (source : Carries inflow.source bytes) : Brings inflow bytes
  | framed {current : Bytes} {messages : List SentMessage}
      (awaits : Awaits inflow current messages) :
      Brings inflow (current ++ Framing.payload messages)

namespace Brings

variable {inflow : Inflow σ} {bytes : Bytes}

theorem serves : Serves (Brings (σ := σ)) where
  read {inflow bytes limit} brings positive := by
    change Meets (Inflow.read limit) inflow _ _
    cases brings with
    | plain plain source =>
        unfold Meets Inflow.read
        rw [if_pos plain]
        have got := Carries.serves.read source positive
        unfold Meets at got
        cases first : ByteSource.read limit inflow.source with
        | ok piece after =>
            rw [first] at got
            obtain ⟨rest, whole, there, last⟩ := got
            exact ⟨rest, whole, .plain plain there, last⟩
        | error fault after =>
            rw [first] at got
            exact ⟨got.1, .plain plain got.2⟩
    | framed awaits =>
        refine (awaits.read positive).mono ?_ ?_
        · intro got after met
          obtain ⟨⟨passed, left, rest, rfl, pieces, there, _⟩, drained⟩ := met
          rw [Framing.payload_append, ← List.append_assoc, pieces, List.append_assoc]
          refine ⟨left ++ Framing.payload rest, rfl, .framed there, ?_⟩
          intro nothing
          have whole := (drained nothing).1
          rw [Framing.payload_append, ← List.append_assoc, pieces, List.append_assoc] at whole
          exact (List.append_eq_nil_iff.mp whole).2
        · intro fault after met
          obtain ⟨interrupted, passed, left, rest, rfl, pieces, there, _⟩ := met
          rw [Framing.payload_append, ← List.append_assoc, pieces, List.nil_append]
          exact ⟨interrupted, .framed there⟩

theorem recording (brings : inflow.Brings bytes) (journal : Journal) :
    Brings { inflow with journal } bytes := by
  cases brings with
  | plain plain source => exact .plain plain source
  | framed awaits =>
      exact .framed ⟨awaits.multiplexed, awaits.remaining, awaits.source, awaits.sendable,
        awaits.accepts⟩

end Brings

end Inflow

/-! Decoders that read alike. -/

namespace Agree

variable {stands : σ → Bytes → Prop} {stands' : τ → Bytes → Prop}

section

omit [ByteSource σ] [ByteSource τ]

theorem cond {condition : Prop} [Decidable condition] {yes no : EStateM Fault σ α}
    {yes' no' : EStateM Fault τ α} (holds : Agree stands stands' yes yes')
    (fails : Agree stands stands' no no') :
    Agree stands stands' (if condition then yes else no) (if condition then yes' else no') := by
  split
  · exact holds
  · exact fails

end

variable (serves : Serves stands) (serves' : Serves stands')

include serves serves'

theorem readInt : Agree stands stands' Wire.readInt Wire.readInt :=
  (readExact serves serves' Wire.intWidth).bind fun _ => pure _

theorem readLong : Agree stands stands' Wire.readLong Wire.readLong :=
  (readInt serves serves').bind fun _ =>
    cond ((readExact serves serves' Wire.longWidth).bind fun _ => pure _) (pure _)

theorem readSize (what : String) :
    Agree stands stands' (Wire.readSize what) (Wire.readSize what) :=
  (readLong serves serves').bind fun _ => cond (throw _) (pure _)

theorem readDone (context : String) :
    Agree stands stands' (Wire.readDone context) (Wire.readDone context) :=
  (readInt serves serves').bind fun _ => cond (pure _) (throw _)

theorem receiveTotals : Agree stands stands' Totals.receive Totals.receive :=
  (readSize serves serves' _).bind fun _ => (readSize serves serves' _).bind fun _ =>
    (readSize serves serves' _).bind fun _ => pure _

end Agree

namespace FileList

open Inflow (Brings)

theorem nameLength_agree (length : Int32) :
    Agree (Brings (σ := σ)) (Brings (σ := τ)) (nameLength length) (nameLength length) :=
  .cond (.throw _) (.cond (.throw _) (.pure _))

theorem readNamed_agree (length : Nat) :
    Agree (Brings (σ := σ)) (Brings (σ := τ)) (readNamed length) (readNamed length) := by
  refine (Agree.readExact Brings.serves Brings.serves length).bind fun name => ?_
  dsimp only
  cases acceptName ⟨name⟩ with
  | error cause => exact .throw _
  | ok fine =>
      exact (Agree.readInt Brings.serves Brings.serves).bind fun _ =>
        (Agree.readLong Brings.serves Brings.serves).bind fun _ =>
          (Agree.readSize Brings.serves Brings.serves _).bind fun _ => .pure _

theorem readEntry_agree : Agree (Brings (σ := σ)) (Brings (σ := τ)) readEntry readEntry :=
  (Agree.readInt Brings.serves Brings.serves).bind fun length =>
    .cond (.pure _) ((nameLength_agree length).bind fun wanted =>
      (readNamed_agree wanted).bind fun _ => .pure _)

theorem readEntries_more {count : Nat} {inflow after : Inflow σ} {inflow' after' : Inflow τ}
    {entry : ListEntry} (taken : readEntry inflow = .ok (some entry) after)
    (taken' : readEntry inflow' = .ok (some entry) after')
    (later : Alike Brings Brings
      (readEntries (count + 1)
        { after with journal := after.journal.debug .fileList 2 (describe count entry) })
      (readEntries (count + 1)
        { after' with journal := after'.journal.debug .fileList 2 (describe count entry) })) :
    Alike Brings Brings (readEntries count inflow) (readEntries count inflow') := by
  rw [readEntries, taken, readEntries.eq_def count inflow', taken']
  dsimp only
  unfold Alike at later
  split at later
  · next rest final rest' final' ran ran' =>
    rw [ran, ran']
    exact ⟨congrArg (entry :: ·) later.1, later.2⟩
  · next fault final fault' final' ran ran' =>
    rw [ran, ran']
    exact later
  · exact later.elim

theorem readEntries_agree (count : Nat) :
    Agree (Brings (σ := σ)) (Brings (σ := τ)) (readEntries count) (readEntries count) := by
  intro inflow inflow' bytes here there
  induction count, inflow using readEntries.induct generalizing inflow' bytes with
  | case1 count inflow fault after failed =>
      obtain ⟨after', failed'⟩ := readEntry_agree.of_error here there failed
      rw [readEntries, failed, readEntries, failed']
      rfl
  | case2 count inflow after ended =>
      obtain ⟨after', rest, ended', stays, stays'⟩ := readEntry_agree.of_ok here there ended
      rw [readEntries, ended, readEntries, ended']
      exact ⟨rfl, rest, stays, stays'⟩
  | case3 count inflow entry after taken journal _ _ _ ih
  | case4 count inflow entry after taken journal _ _ _ ih =>
      obtain ⟨after', left, taken', stays, stays'⟩ := readEntry_agree.of_ok here there taken
      exact readEntries_more taken taken' (ih _ left (stays.recording journal) (stays'.recording _))

theorem read_agree : Agree (Brings (σ := σ)) (Brings (σ := τ)) read read := by
  refine (readEntries_agree 0).bind fun entries => ?_
  intro inflow inflow' bytes here there
  exact ⟨rfl, bytes, here.recording _, there.recording _⟩

end FileList

namespace Inflow

open Framing

/-- The payload that reads and flushes in any order brought since the start, and the inflow they
left; each of them may have failed. -/
inductive Delivers (start : Inflow σ) : Bytes → Inflow σ → Prop where
  | nothing : Delivers start [] start
  | read {delivered got : Bytes} {now after : Inflow σ} {limit : Nat}
      (earlier : Delivers start delivered now) (positive : 0 < limit)
      (done : Inflow.read limit now = .ok got after) : Delivers start (delivered ++ got) after
  | readFailed {delivered : Bytes} {now after : Inflow σ} {limit : Nat} {fault : Fault}
      (earlier : Delivers start delivered now) (positive : 0 < limit)
      (failed : Inflow.read limit now = .error fault after) : Delivers start delivered after
  | flush {delivered : Bytes} {now : Inflow σ} (earlier : Delivers start delivered now) :
      Delivers start delivered (stateAfter Inflow.flush now)

theorem Delivers.yields {start now : Inflow σ} {messages : List SentMessage} {delivered : Bytes}
    (delivers : Delivers start delivered now) (awaits : Awaits start [] messages) :
    Yields start [] messages delivered now := by
  induction delivers with
  | nothing => exact awaits.yields (.nothing rfl rfl)
  | read earlier positive done ih =>
      obtain ⟨passed, left, rest, whole, pieces, awaits', heard⟩ := ih
      exact .trans whole pieces heard ((awaits'.read positive).of_ok done).1
  | readFailed earlier positive failed ih =>
      obtain ⟨passed, left, rest, whole, pieces, awaits', heard⟩ := ih
      have stays := ((awaits'.read positive).of_error failed).2
      simpa using Yields.trans whole pieces heard stays
  | flush earlier ih =>
      obtain ⟨passed, left, rest, whole, pieces, awaits', heard⟩ := ih
      have stays := Meets.stateAfter (awaits'.flush.mono (fun _ _ met => met)
        (fun _ _ met => met.2.1))
      simpa using Yields.trans whole pieces heard stays

/-- Decoders get from an inflow what they get from a source without messages. -/
structure DecodesAs (inflow : Inflow σ) (source : τ) : Prop where
  int : Alike Brings Carries (Wire.readInt inflow) (Wire.readInt source)
  long : Alike Brings Carries (Wire.readLong inflow) (Wire.readLong source)
  done : ∀ context,
    Alike Brings Carries (Wire.readDone context inflow) (Wire.readDone context source)
  list : Alike Brings Brings (FileList.read inflow) (FileList.read ({ source } : Inflow τ))
  totals : Alike Brings Carries (Totals.receive inflow) (Totals.receive source)

theorem Brings.decodesAs {inflow : Inflow σ} {source : τ} {bytes : Bytes}
    (brings : inflow.Brings bytes) (carries : Carries source bytes) :
    inflow.DecodesAs source where
  int := Agree.readInt serves Carries.serves _ _ _ brings carries
  long := Agree.readLong serves Carries.serves _ _ _ brings carries
  done context := Agree.readDone serves Carries.serves context _ _ _ brings carries
  list := FileList.read_agree _ _ _ brings (.plain rfl carries)
  totals := Agree.receiveTotals serves Carries.serves _ _ _ brings carries

/-- What holds once `delivered` has been read of a stream of messages. -/
structure Transparent (start : Inflow σ) (messages : List SentMessage) (delivered : Bytes)
    (now : Inflow σ) : Prop where
  /-- What was delivered is where the payload of the messages passed so far starts, short of
  what is to come of the last; all others among them were heard, each once and in order. -/
  inOrder : ∃ passed current rest, messages = passed ++ rest ∧
    payload passed = delivered ++ current ∧ now.remaining = current.length ∧
    Hears start now (outOfBand passed)
  /-- Reads fail on interruptions only, and bring nothing only at the very end. -/
  read : ∀ {limit : Nat}, 0 < limit → Meets (Inflow.read limit) now
    (fun got after => got = [] → delivered = payload messages ∧
      Hears start after (outOfBand messages))
    (fun fault _ => fault.isInterrupted = true)
  /-- Flushes fail at the very end only. -/
  flush : Meets Inflow.flush now (fun _ _ => True)
    (fun fault after => fault = .closedBetweenMessages ∧ delivered = payload messages ∧
      Hears start after (outOfBand messages))
  decodes : ∀ {left : Bytes}, payload messages = delivered ++ left →
    ∀ {τ : Type} [ByteSource τ] {source : τ}, Carries source left → now.DecodesAs source

/-- However reads and flushes are mixed and however its bytes arrive, a stream of messages is
read as its payload, and what is not payload is heard on the way. -/
theorem delivers_transparent {start now : Inflow σ} {messages : List SentMessage}
    {delivered : Bytes} (sendable : Sendable messages) (multiplexed : start.multiplexed = true)
    (fresh : start.remaining = 0) (accepts : start.Accepts)
    (carries : Carries start.source (wire messages)) (delivers : Delivers start delivered now) :
    Transparent start messages delivered now := by
  obtain ⟨passed, current, rest, rfl, pieces, awaits, heard⟩ :=
    delivers.yields ⟨multiplexed, fresh, carries, sendable, accepts⟩
  have whole : payload (passed ++ rest) = delivered ++ (current ++ payload rest) := by
    rw [payload_append, ← List.append_assoc, ← pieces, List.nil_append]
  have last {after : Inflow σ} (drained : Drained now current rest after) :
      delivered = payload (passed ++ rest) ∧ Hears start after (outOfBand (passed ++ rest)) := by
    constructor
    · rw [whole, drained.1, List.append_nil]
    · rw [outOfBand_append]
      exact heard.trans drained.2
  exact {
    inOrder := ⟨passed, current, rest, rfl, pieces, awaits.remaining, heard⟩
    read := fun positive => (awaits.read positive).mono
      (fun got after met nothing => last (met.2 nothing)) (fun _ _ met => met.1)
    flush := awaits.flush.mono (fun _ _ _ => trivial)
      (fun _ _ met => ⟨met.1, last met.2.2⟩)
    decodes := fun {left} split _ _ _ carries => by
      obtain rfl := List.append_cancel_left (whole.symm.trans split)
      exact (Brings.framed awaits).decodesAs carries }

/-- A message for the journal, and a number cut in two by one that says nothing. -/
def cutMessages : List SentMessage :=
  [(.info, [104, 105, 10]), (.data, [42, 0]), (.noOp, []), (.data, [0, 0])]

/-- Their bytes come one by one at first, and then after an interruption. -/
def cutStart : Inflow ScriptedSource where
  source := ⟨wire cutMessages, [.atMost 1, .fails (.bare .interrupted), .atMost 2]⟩
  multiplexed := true

theorem delivers_transparent_of_cutStart :
    ∃ now, Delivers cutStart [42] now ∧ Transparent cutStart cutMessages [42] now := by
  have first : endsIn (Inflow.read 1 (stateAfter Inflow.flush cutStart))
      (fun got _ => decide (got = [42])) = true := by
    decide +kernel
  obtain ⟨got, now, done, same⟩ := of_endsIn first
  obtain rfl : got = [42] := of_decide_eq_true same
  have delivers : Delivers cutStart [42] now := .read (.flush .nothing) Nat.one_pos done
  have sendable : Sendable cutMessages := by
    unfold Sendable
    decide
  have steady : cutStart.source.Steady := by
    intro planned listed
    have one : planned = .atMost 1 ∨ planned = .fails (.bare .interrupted) ∨
        planned = .atMost 2 := by
      simpa [cutStart] using listed
    obtain rfl | rfl | rfl := one <;> decide
  exact ⟨now, delivers, delivers_transparent sendable rfl rfl nofun
    (ScriptedSource.carries steady) delivers⟩

end Inflow

end TreeSync

import TreeSync.Proofs.Message.Taking
import TreeSync.Proofs.Message.Transparency
import TreeSync.Proofs.Stream.Decoding

namespace TreeSync

/-! What a decoder takes spells the value it yields.

The bytes alone settle the value and where they end, so of two readers that find the same
bytes ahead neither can take more of them than the other.
-/

open TreeSync.Action

variable {σ α β : Type} [ByteSource σ]

/-- A stream without messages on which just these bytes are still to come. -/
structure Inflow.Plainly (inflow : Inflow ScriptedSource) (bytes : Bytes) : Prop where
  plain : inflow.multiplexed = false
  pending : inflow.source.pending = bytes
  free : inflow.source.plan = []

def Inflow.plainly (bytes : Bytes) : Inflow ScriptedSource where
  source := ⟨bytes, []⟩

theorem Inflow.plainly_of (bytes : Bytes) : (plainly bytes).Plainly bytes :=
  ⟨rfl, rfl, rfl⟩

theorem Inflow.Plainly.serves : Serves Inflow.Plainly where
  read {inflow bytes limit} here positive := by
    obtain ⟨plain, rfl, free⟩ := here
    obtain ⟨source, multiplexed, remaining, handler, journal⟩ := inflow
    obtain ⟨pending, plan⟩ := source
    dsimp only at plain free
    subst plain free
    change Meets (Inflow.read limit) _ _ _
    unfold Meets Inflow.read
    refine ⟨pending.drop limit, (List.take_append_drop limit pending).symm, ⟨rfl, rfl, rfl⟩, ?_⟩
    intro nothing
    rcases List.take_eq_nil_iff.mp nothing with zero | empty
    · omega
    · have empty : pending = [] := empty
      rw [empty, List.drop_nil]

/-- Whether a decoder that finds these bytes ahead yields the value and leaves what follows. -/
def Spells (decode : EStateM Fault (Inflow ScriptedSource) α) (value : α) (bytes : Bytes) : Prop :=
  ∀ inflow rest, Inflow.Plainly inflow (bytes ++ rest) →
    ∃ after, decode inflow = .ok value after ∧ after.Plainly rest

namespace Spells

variable {decode : EStateM Fault (Inflow ScriptedSource) α} {value value' : α}
  {bytes bytes' rest rest' : Bytes}

/-- No other value is spelled by the front of the same bytes. -/
theorem unique (first : Spells decode value bytes) (second : Spells decode value' bytes')
    (same : bytes ++ rest = bytes' ++ rest') : value = value' ∧ bytes = bytes' :=
  Decodes.unique (fun one other => one.pending.symm.trans other.pending) first second
    (Inflow.plainly_of _) same

theorem pure : Spells (Pure.pure value) value [] :=
  Decodes.pure value

theorem bind {start : EStateM Fault (Inflow ScriptedSource) β}
    {next : β → EStateM Fault (Inflow ScriptedSource) α} {middle : β} {more : Bytes}
    (first : Spells start middle bytes) (later : Spells (next middle) value more) :
    Spells (start >>= next) value (bytes ++ more) :=
  Decodes.bind first later

theorem change {change : Inflow ScriptedSource → Inflow ScriptedSource}
    (apart : ∀ inflow bytes, Inflow.Plainly inflow bytes → (change inflow).Plainly bytes) :
    Spells (modify change) () [] :=
  fun inflow rest here => ⟨change inflow, rfl, apart inflow rest here⟩

end Spells

/-- Whether a step that succeeds has taken bytes which spell the value it yields. -/
def Parses (step : EStateM Fault (Inflow σ) α)
    (decode : EStateM Fault (Inflow ScriptedSource) α) : Prop :=
  ∀ before value after, step before = .ok value after →
    ∃ bytes, before.Takes bytes after ∧ Spells decode value bytes

namespace Parses

omit [ByteSource σ] in
theorem pure [ByteSource σ] (value : α) :
    Parses (Pure.pure value : EStateM Fault (Inflow σ) α) (Pure.pure value) := by
  intro _ _ _ ran
  cases ran
  exact ⟨[], .nothing, .pure⟩

theorem throw {decode : EStateM Fault (Inflow ScriptedSource) α} (fault : Fault) :
    Parses (MonadExcept.throw fault : EStateM Fault (Inflow σ) α) decode := by
  intro _ _ _ ran
  cases ran

theorem bind {step : EStateM Fault (Inflow σ) β} {rest : β → EStateM Fault (Inflow σ) α}
    {decode : EStateM Fault (Inflow ScriptedSource) β}
    {next : β → EStateM Fault (Inflow ScriptedSource) α} (first : Parses step decode)
    (later : ∀ value, Parses (rest value) (next value)) :
    Parses (step >>= rest) (decode >>= next) := by
  intro before value after ran
  obtain ⟨middle, between, head, tail⟩ := of_bind_ok ran
  obtain ⟨bytes, taken, spelled⟩ := first before middle between head
  obtain ⟨more, taken', spelled'⟩ := later middle between value after tail
  exact ⟨bytes ++ more, taken.trans taken', spelled.bind spelled'⟩

theorem cond {condition : Prop} [Decidable condition] {yes no : EStateM Fault (Inflow σ) α}
    {yes' no' : EStateM Fault (Inflow ScriptedSource) α} (holds : Parses yes yes')
    (fails : Parses no no') :
    Parses (if condition then yes else no) (if condition then yes' else no') := by
  split
  · exact holds
  · exact fails

theorem report (change : Journal → Journal) :
    Parses (modify fun inflow : Inflow σ => { inflow with journal := change inflow.journal })
      (modify fun inflow => { inflow with journal := change inflow.journal }) := by
  intro _ _ _ ran
  cases ran
  exact ⟨[], .reported .nothing _, .change fun _ _ here => ⟨here.plain, here.pending, here.free⟩⟩

theorem readExact (wanted : Nat) :
    Parses (σ := σ) (ByteSource.readExact wanted) (ByteSource.readExact wanted) := by
  intro before bytes after ran
  refine ⟨bytes, Inflow.readExact_takes ran, fun inflow rest here => ?_⟩
  exact Inflow.Plainly.serves.readExact_front (ByteSource.readExact_length ran).symm here

theorem readInt : Parses (σ := σ) Wire.readInt Wire.readInt :=
  (readExact Wire.intWidth).bind fun _ => pure _

theorem readLong : Parses (σ := σ) Wire.readLong Wire.readLong :=
  readInt.bind fun _ => cond ((readExact Wire.longWidth).bind fun _ => pure _) (pure _)

theorem readSize (what : String) : Parses (σ := σ) (Wire.readSize what) (Wire.readSize what) :=
  readLong.bind fun _ => cond (throw _) (pure _)

theorem readDone (context : String) :
    Parses (σ := σ) (Wire.readDone context) (Wire.readDone context) :=
  readInt.bind fun _ => cond (pure _) (throw _)

theorem receiveTotals : Parses (σ := σ) Totals.receive Totals.receive :=
  (readSize _).bind fun _ => (readSize _).bind fun _ => (readSize _).bind fun _ => pure _

end Parses

namespace FileList

/-- The list, and the word on whether the peer could read all of its tree. -/
def readWhole : EStateM Fault (Inflow σ) (List ListEntry × Int32) := do
  let files ← read
  let integrity ← Wire.readInt
  return (files, integrity)

theorem readEntry_parses : Parses (σ := σ) readEntry readEntry := by
  have named (length : Nat) : Parses (σ := σ) (readNamed length) (readNamed length) := by
    refine (Parses.readExact length).bind fun name => ?_
    dsimp only
    cases acceptName ⟨name⟩ with
    | error cause => exact .throw _
    | ok fine =>
        exact Parses.readInt.bind fun _ => Parses.readLong.bind fun _ =>
          (Parses.readSize _).bind fun _ => .pure _
  have measured (length : Int32) : Parses (σ := σ) (nameLength length) (nameLength length) :=
    .cond (.throw _) (.cond (.throw _) (.pure _))
  exact Parses.readInt.bind fun length => .cond (.pure _)
    ((measured length).bind fun wanted => (named wanted).bind fun _ => .pure _)

theorem readEntries_parses (count : Nat) : Parses (σ := σ) (readEntries count) (readEntries count) := by
  intro inflow files after ran
  -- on the recursion of the reader; one entry more is spelled by its bytes and those of the rest
  fun_induction readEntries count inflow generalizing files after with
  | case1 => cases ran
  | case2 count inflow after ended =>
      cases ran
      obtain ⟨bytes, taken, spelled⟩ := readEntry_parses _ _ _ ended
      refine ⟨bytes, taken, fun other rest here => ?_⟩
      obtain ⟨left, done, there⟩ := spelled other rest here
      rw [readEntries, done]
      exact ⟨left, rfl, there⟩
  | case3 count inflow entry between took journal rest final tail ih =>
      cases ran
      obtain ⟨bytes, taken, spelled⟩ := readEntry_parses _ _ _ took
      obtain ⟨more, taken', spelled'⟩ := ih _ _ tail
      refine ⟨bytes ++ more, (Inflow.Takes.reported taken journal).trans taken', ?_⟩
      intro other following here
      rw [List.append_assoc] at here
      obtain ⟨left, done, there⟩ := spelled other _ here
      obtain ⟨last, done', there'⟩ := spelled'
        { left with journal := left.journal.debug .fileList 2 (describe count entry) } following
        ⟨there.plain, there.pending, there.free⟩
      rw [readEntries, done]
      dsimp only
      rw [done']
      exact ⟨last, rfl, there'⟩
  | case4 => cases ran

theorem read_parses : Parses (σ := σ) read read := by
  refine (readEntries_parses 0).bind fun entries => ?_
  let tell (journal : Journal) : Journal :=
    journal.debug .fileList 1 s!"received file list with {entries.length} entries"
  exact (Parses.report tell).bind fun _ => .pure _

end FileList

end TreeSync

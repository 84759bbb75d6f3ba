import TreeSync.Proofs.FileList.RoundTrip

namespace TreeSync

/-! Lists that a writer sends and no reader takes.

The writer asks no more of an entry than a name whose length is an int. What else the reader
asks is found out at the other end, entry by entry: the first one that it objects to settles
how the list is refused.
-/

open TreeSync.Action

/-- A size from half of what a word holds on is a long below zero. -/
theorem Wire.toInt_toInt64_neg {size : UInt64} (large : 0x8000000000000000 ≤ size.toNat) :
    size.toInt64.toInt < 0 := by
  rw [← Int64.toInt_toBitVec]
  refine BitVec.toInt_neg_iff.mpr ?_
  have half : 2 ^ 64 ≤ 2 * size.toNat := by omega
  simpa using half

/-- Whether a decoder that finds these bytes ahead refuses them for this reason. -/
def Refuses {σ α : Type} (stands : σ → Bytes → Prop) (decode : EStateM Fault σ α) (fault : Fault)
    (bytes : Bytes) : Prop :=
  ∀ source rest, stands source (bytes ++ rest) → ∃ after, decode source = .error fault after

namespace Refuses

variable {σ α β : Type} {stands : σ → Bytes → Prop} {fault : Fault} {bytes more : Bytes}

theorem throw : Refuses stands (MonadExcept.throw fault : EStateM Fault σ α) fault [] :=
  fun source _ _ => ⟨source, rfl⟩

/-- What follows the refused bytes is not looked at. -/
theorem early {decode : EStateM Fault σ α} (refuses : Refuses stands decode fault bytes)
    (more : Bytes) : Refuses stands decode fault (bytes ++ more) := by
  intro source rest here
  rw [List.append_assoc] at here
  exact refuses source _ here

theorem bind {start : EStateM Fault σ β} {next : β → EStateM Fault σ α}
    (refuses : Refuses stands start fault bytes) : Refuses stands (start >>= next) fault bytes := by
  intro source rest here
  obtain ⟨after, failed⟩ := refuses source rest here
  exact ⟨after, bind_error failed⟩

theorem after {start : EStateM Fault σ β} {next : β → EStateM Fault σ α} {middle : β}
    (first : Decodes stands start middle bytes) (later : Refuses stands (next middle) fault more) :
    Refuses stands (start >>= next) fault (bytes ++ more) := by
  intro source rest here
  rw [List.append_assoc] at here
  obtain ⟨between, ran, left⟩ := first source _ here
  obtain ⟨after, failed⟩ := later between rest left
  exact ⟨after, (bind_ok ran).trans failed⟩

theorem readSize [ByteSource σ] (serves : Serves stands) (what : String) {size : UInt64}
    (large : 0x8000000000000000 ≤ size.toNat) :
    Refuses stands (Wire.readSize what) (.negativeSize what size.toInt64.toInt)
      (Wire.writeLong size.toInt64).bytes := by
  rw [← List.append_nil (Wire.writeLong _).bytes]
  refine .after (Decodes.readLong serves.feeds _) ?_
  rw [if_pos (Wire.toInt_toInt64_neg large)]
  exact .throw

end Refuses

namespace FileList

open Wire

variable {entry : ListEntry} {entries : List ListEntry}

/-- Why a reader refuses an entry, if it does. The length is looked at before the name is read,
the size after it. -/
def objection? (entry : ListEntry) : Option Fault :=
  if maxNameLength < entry.path.bytes.length then
    some (.refusedName (.tooLong entry.path.bytes.length))
  else
    match acceptName entry.path with
    | .error cause => some (.refusedName cause)
    | .ok () =>
        if 0x8000000000000000 ≤ entry.size.toNat then
          some (.negativeSize "file size" entry.size.toInt64.toInt)
        else none

theorem carriable_iff : entry.Carriable ↔ objection? entry = none := by
  unfold objection?
  constructor
  · intro carriable
    rw [if_neg (Nat.not_lt.mpr carriable.short), carriable.accepted]
    exact if_neg (Nat.not_le.mpr carriable.small)
  · intro nothing
    split at nothing
    · cases nothing
    · next short =>
      split at nothing
      · cases nothing
      · next accepted =>
        split at nothing
        · cases nothing
        · next small => exact ⟨accepted, Nat.not_lt.mp short, Nat.not_le.mp small⟩

/-- The writer refuses just the names whose length an int does not hold. -/
theorem writeEntry_refusal :
    (writeEntry entry).refusal = none ↔
      entry.path.bytes ≠ [] ∧ entry.path.bytes.length < 0x80000000 := by
  constructor
  · intro whole
    rw [← Nat.not_le, ← not_or]
    intro refused
    rw [writeEntry, if_pos refused] at whole
    cases whole
  · rintro ⟨named, fits⟩
    exact (writeEntry_fits named fits).1

theorem of_write_refusal (whole : (write entries).refusal = none) :
    ∀ entry ∈ entries, (writeEntry entry).refusal = none := by
  have wholes := (Emission.refusal_andThen_iff.mp whole).1
  exact List.forall_mem_map.mp (Emission.refusal_concat_iff.mp wholes)

/-- What a list that was written looks like on the wire, whatever its entries are. -/
theorem bytes_write (whole : (write entries).refusal = none) :
    (write entries).bytes = listBytes entries := by
  refine (write_whole fun entry listed => ?_).2
  obtain ⟨named, fits⟩ := writeEntry_refusal.mp (of_write_refusal whole entry listed)
  exact writeEntry_fits named fits

section

variable {σ : Type} [ByteSource σ] {stands : Inflow σ → Bytes → Prop} (serves : Serves stands)
  {fault : Fault}

include serves

theorem readEntry_refuses (named : entry.path.bytes ≠ [])
    (fits : entry.path.bytes.length < 0x80000000) (objected : objection? entry = some fault) :
    Refuses stands readEntry fault (entryBytes entry) := by
  have value : (Int32.ofNat entry.path.bytes.length).toInt = entry.path.bytes.length :=
    toInt_ofNat fits
  have positive : Int32.ofNat entry.path.bytes.length ≠ 0 := ofNat_length_ne_zero named fits
  refine .after (Decodes.readInt serves.feeds _) ?_
  rw [if_neg positive]
  unfold objection? at objected
  split at objected
  · next long =>
    cases objected
    have refused :
        (nameLength (Int32.ofNat entry.path.bytes.length) : EStateM Fault (Inflow σ) Nat) =
        throw (.refusedName (.tooLong entry.path.bytes.length)) := by
      rw [nameLength, value, Int.toNat_natCast, if_neg (by omega), if_pos long]
    rw [refused]
    exact (Refuses.throw.bind).early _
  · next short =>
    rw [nameLength_ofNat (Nat.not_lt.mp short), pure_bind]
    refine .bind (.after (serves.feeds _) ?_)
    dsimp only
    split at objected
    · next cause refused =>
      cases objected
      rw [refused]
      exact Refuses.throw.early _
    · next accepted =>
      split at objected
      · next large =>
        cases objected
        rw [accepted]
        refine .after (Decodes.readInt serves.feeds _) (.after (Decodes.readLong serves.feeds _) ?_)
        exact (Refuses.readSize serves "file size" large).bind
      · cases objected

variable (apart : ∀ inflow bytes (journal : Journal), stands inflow bytes →
  stands { inflow with journal } bytes)

include apart

/-- The first entry that is objected to ends the reading. -/
theorem readEntries_refuses (whole : ∀ entry ∈ entries, (writeEntry entry).refusal = none)
    (objected : entries.findSome? objection? = some fault) (count : Nat) :
    Refuses stands (readEntries count) fault (listBytes entries) := by
  induction entries generalizing count with
  | nil => cases objected
  | cons entry entries ih =>
      intro inflow rest here
      obtain ⟨first, others⟩ := List.forall_mem_cons.mp whole
      have cut : listBytes (entry :: entries) ++ rest =
          entryBytes entry ++ (listBytes entries ++ rest) := by
        simp [listBytes]
      rw [cut] at here
      rw [List.findSome?_cons] at objected
      split at objected
      · next cause objection =>
        cases objected
        obtain ⟨named, fits⟩ := writeEntry_refusal.mp first
        obtain ⟨after, failed⟩ := readEntry_refuses serves named fits objection inflow _ here
        exact ⟨after, by rw [readEntries, failed]⟩
      · next nothing =>
        obtain ⟨between, ran, left⟩ :=
          readEntry_decodes serves (carriable_iff.mpr nothing) inflow _ here
        obtain ⟨after, failed⟩ := ih others objected (count + 1) _ rest (apart _ _
          (between.journal.debug .fileList 2 (describe count entry)) left)
        refine ⟨after, ?_⟩
        rw [readEntries, ran]
        dsimp only
        rw [failed]

end

/-- What reading comes to, whatever state it leaves. -/
def EndsAs {σ α : Type} (result : EStateM.Result Fault σ α) : Except Fault α → Prop
  | .ok value => ∃ after, result = .ok value after
  | .error fault => ∃ after, result = .error fault after

/-- What a reader makes of a list, by the first objection it has. -/
def verdict (entries : List ListEntry) : Except Fault (List ListEntry) :=
  match entries.findSome? objection? with
  | none => .ok entries
  | some fault => .error fault

theorem read_endsAs {σ : Type} [ByteSource σ] {stands : Inflow σ → Bytes → Prop}
    (serves : Serves stands) (apart : ∀ inflow bytes (journal : Journal), stands inflow bytes →
      stands { inflow with journal } bytes) (whole : (write entries).refusal = none)
    {inflow : Inflow σ} {rest : Bytes} (here : stands inflow (listBytes entries ++ rest)) :
    EndsAs (read inflow) (verdict entries) := by
  unfold verdict
  split
  · next nothing =>
    have carriable (entry : ListEntry) (listed : entry ∈ entries) : entry.Carriable :=
      carriable_iff.mpr (List.findSome?_eq_none_iff.mp nothing entry listed)
    obtain ⟨after, ran, _⟩ := read_decodes serves apart carriable inflow rest here
    exact ⟨after, ran⟩
  · next fault objected =>
    have refuses := readEntries_refuses serves apart (of_write_refusal whole) objected 0
    exact refuses.bind inflow rest here

/-- What is read of bytes that are followed by any others. -/
structure ReadsAs (bytes : Bytes) (outcome : Except Fault (List ListEntry)) : Prop where
  brought : ∀ {σ : Type} [ByteSource σ] {inflow : Inflow σ} {rest : Bytes},
    inflow.Brings (bytes ++ rest) → EndsAs (read inflow) outcome
  /-- The same of bytes that stand in memory. -/
  parsed : ∀ rest, EndsAs (read (.plainly (bytes ++ rest))) outcome

/-- Of every list that the writer does not refuse the reader makes the same entries, unless it
objects to one; it gives up at the first of these then, and for no other reason. -/
theorem read_written (whole : (write entries).refusal = none) :
    ReadsAs (write entries).bytes (verdict entries) := by
  rw [bytes_write whole]
  constructor
  · intro σ _ inflow rest here
    exact read_endsAs Inflow.Brings.serves (fun _ _ journal brings => brings.recording journal)
      whole here
  · intro rest
    exact read_endsAs Inflow.Plainly.serves
      (fun _ _ _ here => ⟨here.plain, here.pending, here.free⟩) whole (Inflow.plainly_of _)

/-- A file whose size is the first that a long does not hold. -/
def vastEntry : ListEntry := ⟨⟨[98]⟩, 0o100644, 0, 0x8000000000000000⟩

/-- A file whose name is one byte too long. -/
def wordyEntry : ListEntry := ⟨⟨.replicate 4097 97⟩, 0o100644, 0, 0⟩

theorem read_written_of_vast :
    (write [looseEntry, vastEntry]).refusal = none ∧
      verdict [looseEntry, vastEntry] =
        .error (.negativeSize "file size" (-9223372036854775808)) ∧
      ReadsAs (write [looseEntry, vastEntry]).bytes (verdict [looseEntry, vastEntry]) :=
  ⟨by decide, rfl, read_written (by decide)⟩

/-- The writer takes what the reader then refuses: a size below zero, a name too long. -/
theorem write_accepts_unreadable :
    ((write [vastEntry]).refusal = none ∧
      ∃ after, read (Inflow.plainly (write [vastEntry]).bytes) =
        .error (.negativeSize "file size" (-9223372036854775808)) after) ∧
    ((write [wordyEntry]).refusal = none ∧
      ∃ after, read (Inflow.plainly (write [wordyEntry]).bytes) =
        .error (.refusedName (.tooLong 4097)) after) := by
  have vast : failsIn (read (Inflow.plainly (write [vastEntry]).bytes)) (fun fault _ =>
      decide (fault = .negativeSize "file size" (-9223372036854775808))) = true := by
    decide +kernel
  have wordy : failsIn (read (Inflow.plainly (write [wordyEntry]).bytes)) (fun fault _ =>
      decide (fault = .refusedName (.tooLong 4097))) = true := by
    decide +kernel
  obtain ⟨fault, after, failed, same⟩ := of_failsIn vast
  obtain rfl := of_decide_eq_true same
  obtain ⟨fault', after', failed', same'⟩ := of_failsIn wordy
  obtain rfl := of_decide_eq_true same'
  exact ⟨⟨by decide, after, failed⟩, by decide +kernel, after', failed'⟩

end FileList

end TreeSync

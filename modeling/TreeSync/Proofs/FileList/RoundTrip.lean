import TreeSync.Proofs.Message.Parsing
import TreeSync.Proofs.Stream.Sending

namespace TreeSync

/-! File lists survive the wire.

What the writer sends for entries that the reader accepts, the reader turns into the same
entries, whatever follows them. Every entry that was read is one that it accepts again.
-/

open TreeSync.Action

/-- What the reader asks of an entry: a name it accepts, of a length it accepts, and a size that
a long holds. The mode and the time may be any. -/
structure ListEntry.Carriable (entry : ListEntry) : Prop where
  accepted : acceptName entry.path = .ok ()
  short : entry.path.bytes.length ≤ maxNameLength
  small : entry.size.toNat < 0x8000000000000000

/-- An accepted name is not empty. -/
theorem acceptName_nil : acceptName ⟨[]⟩ ≠ .ok () := by
  have refused : acceptName ⟨[]⟩ = .error (.malformed ⟨[]⟩) := rfl
  rw [refused]
  nofun

theorem ListEntry.Carriable.named {entry : ListEntry} (carriable : entry.Carriable) :
    entry.path.bytes ≠ [] := by
  intro nothing
  apply acceptName_nil
  rw [← nothing]
  exact carriable.accepted

namespace FileList

open Wire

variable {entry : ListEntry} {entries : List ListEntry}

/-- An entry as the writer lays it out. -/
def entryBytes (entry : ListEntry) : Bytes :=
  intBytes (Int32.ofNat entry.path.bytes.length) ++ (entry.path.bytes ++
    (intBytes entry.mode.toInt32 ++
      ((writeLong entry.mtime).bytes ++ (writeLong entry.size.toInt64).bytes)))

/-- All entries, and the zero that ends a list. -/
def listBytes (entries : List ListEntry) : Bytes :=
  (entries.map entryBytes).flatten ++ intBytes 0

/-- All the writer asks of an entry: a name, of a length that an int holds. -/
theorem writeEntry_fits (named : entry.path.bytes ≠ [])
    (fits : entry.path.bytes.length < 0x80000000) :
    (writeEntry entry).refusal = none ∧ (writeEntry entry).bytes = entryBytes entry := by
  have taken : ¬ (entry.path.bytes = [] ∨ 0x80000000 ≤ entry.path.bytes.length) := by
    rintro (none | long)
    · exact named none
    · omega
  have time := refusal_writeLong entry.mtime
  have size := refusal_writeLong entry.size.toInt64
  rw [writeEntry, if_neg taken]
  simp only [Emission.concat, List.foldr_cons, List.foldr_nil, writeInt]
  constructor
  · simp [Emission.andThen, Emission.write, time, size]
  · simp [Emission.andThen, Emission.bytes, entryBytes, Emission.write, time, size]

theorem write_whole (whole : ∀ entry ∈ entries,
    (writeEntry entry).refusal = none ∧ (writeEntry entry).bytes = entryBytes entry) :
    (write entries).refusal = none ∧ (write entries).bytes = listBytes entries := by
  have wholes : (Emission.concat (entries.map writeEntry)).refusal = none :=
    Emission.refusal_concat_iff.mpr
      (List.forall_mem_map.mpr fun entry listed => (whole entry listed).1)
  have sames : ((entries.map writeEntry).map Emission.bytes).flatten =
      (entries.map entryBytes).flatten := by
    rw [List.map_map]
    exact congrArg List.flatten (List.map_congr_left fun entry listed => (whole entry listed).2)
  rw [write, Emission.refusal_andThen wholes, Emission.bytes_andThen wholes,
    Emission.bytes_concat wholes, sames, bytes_writeInt]
  exact ⟨rfl, rfl⟩

theorem write_carriable (carriable : ∀ entry ∈ entries, entry.Carriable) :
    (write entries).refusal = none ∧ (write entries).bytes = listBytes entries := by
  refine write_whole fun entry listed => writeEntry_fits (carriable entry listed).named ?_
  have short := (carriable entry listed).short
  unfold maxNameLength at short
  omega

theorem nameLength_ofNat {σ : Type} {length : Nat} (short : length ≤ maxNameLength) :
    (nameLength (Int32.ofNat length) : EStateM Fault (Inflow σ) Nat) = pure length := by
  have value : (Int32.ofNat length).toInt = length :=
    toInt_ofNat (by unfold maxNameLength at short; omega)
  rw [nameLength, value, Int.toNat_natCast, if_neg (by omega), if_neg (by omega)]

section

variable {σ : Type} [ByteSource σ] {stands : Inflow σ → Bytes → Prop} (serves : Serves stands)

include serves

theorem readNamed_decodes (carriable : entry.Carriable) :
    Decodes stands (readNamed entry.path.bytes.length) entry
      (entry.path.bytes ++ (intBytes entry.mode.toInt32 ++
        ((writeLong entry.mtime).bytes ++ (writeLong entry.size.toInt64).bytes))) := by
  refine (serves.feeds _).bind ?_
  dsimp only
  rw [carriable.accepted]
  refine (Decodes.readInt serves.feeds _).bind ((Decodes.readLong serves.feeds _).bind ?_)
  have whole := (Decodes.readSize serves.feeds "file size" carriable.small).thenPure
    fun size => (⟨entry.path, entry.mode.toInt32.toUInt32, entry.mtime, size⟩ : ListEntry)
  simpa using whole

theorem readEntry_decodes (carriable : entry.Carriable) :
    Decodes stands readEntry (some entry) (entryBytes entry) := by
  have short := carriable.short
  have positive : Int32.ofNat entry.path.bytes.length ≠ 0 :=
    ofNat_length_ne_zero carriable.named (by unfold maxNameLength at short; omega)
  refine (Decodes.readInt serves.feeds _).bind (.whenFalse positive ?_)
  rw [nameLength_ofNat short, pure_bind]
  exact (readNamed_decodes serves carriable).thenPure Option.some

theorem readEntry_ends : Decodes stands readEntry none (intBytes 0) := by
  rw [← List.append_nil (intBytes 0)]
  exact (Decodes.readInt serves.feeds 0).bind (.whenTrue rfl (.pure none))

variable (apart : ∀ inflow bytes (journal : Journal), stands inflow bytes →
  stands { inflow with journal } bytes)

include apart

theorem readEntries_decodes (carriable : ∀ entry ∈ entries, entry.Carriable) (count : Nat) :
    Decodes stands (readEntries count) entries (listBytes entries) := by
  induction entries generalizing count with
  | nil =>
      intro inflow rest here
      obtain ⟨after, ran, left⟩ := readEntry_ends serves inflow rest here
      exact ⟨after, by rw [readEntries, ran], left⟩
  | cons entry entries ih =>
      intro inflow rest here
      obtain ⟨first, others⟩ := List.forall_mem_cons.mp carriable
      have cut : listBytes (entry :: entries) ++ rest =
          entryBytes entry ++ (listBytes entries ++ rest) := by
        simp [listBytes]
      rw [cut] at here
      obtain ⟨between, ran, left⟩ := readEntry_decodes serves first inflow _ here
      obtain ⟨after, ran', left'⟩ := ih others (count + 1) _ rest (apart _ _
        (between.journal.debug .fileList 2 (describe count entry)) left)
      refine ⟨after, ?_, left'⟩
      rw [readEntries, ran]
      dsimp only
      rw [ran']

theorem read_decodes (carriable : ∀ entry ∈ entries, entry.Carriable) :
    Decodes stands read entries (listBytes entries) := by
  rw [← List.append_nil (listBytes entries)]
  refine (readEntries_decodes serves apart carriable 0).bind ?_
  intro inflow rest here
  exact ⟨_, rfl, apart _ _ _ here⟩

end

section

variable {σ : Type} [ByteSource σ] {before after : Inflow σ}

theorem readSize_small {what : String} {size : UInt64}
    (ran : readSize what before = .ok size after) :
    size.toNat < 0x8000000000000000 := by
  obtain ⟨value, between, _, ran⟩ := of_bind_ok ran
  split at ran
  · cases ran
  · next positive =>
    cases ran
    have low : 0 ≤ value.toBitVec.toInt := by simpa using positive
    have half := BitVec.toInt_pos_iff.mp low
    change value.toBitVec.toNat < _
    omega

theorem readNamed_carriable {length : Nat} (short : length ≤ maxNameLength)
    (ran : readNamed length before = .ok entry after) : entry.Carriable := by
  obtain ⟨name, between, taken, ran⟩ := of_bind_ok ran
  have whole := ByteSource.readExact_length taken
  dsimp only at ran
  cases accepted : acceptName ⟨name⟩ with
  | error cause =>
      rw [accepted] at ran
      cases ran
  | ok fine =>
      rw [accepted] at ran
      obtain ⟨mode, _, _, ran⟩ := of_bind_ok ran
      obtain ⟨mtime, _, _, ran⟩ := of_bind_ok ran
      obtain ⟨size, _, sized, ran⟩ := of_bind_ok ran
      cases ran
      exact ⟨accepted, whole ▸ short, readSize_small sized⟩

theorem readEntry_carriable (ran : readEntry before = .ok (some entry) after) :
    entry.Carriable := by
  obtain ⟨length, between, _, ran⟩ := of_bind_ok ran
  split at ran
  · cases ran
  · obtain ⟨wanted, middle, measured, ran⟩ := of_bind_ok ran
    obtain ⟨named, last, read, made⟩ := of_bind_ok ran
    cases made
    refine readNamed_carriable ?_ read
    unfold nameLength at measured
    split at measured
    · cases measured
    · split at measured
      · cases measured
      · next short =>
        cases measured
        omega

theorem readEntries_carriable {count : Nat} (ran : readEntries count before = .ok entries after) :
    ∀ entry ∈ entries, entry.Carriable := by
  fun_induction readEntries count before generalizing entries after with
  | case1 => cases ran
  | case2 =>
      cases ran
      exact List.forall_mem_nil _
  | @case3 _ _ _ _ taken _ _ _ tail ih =>
      cases ran
      exact List.forall_mem_cons.mpr ⟨readEntry_carriable taken, ih tail⟩
  | case4 => cases ran

theorem read_carriable (ran : read before = .ok entries after) :
    ∀ entry ∈ entries, entry.Carriable := by
  obtain ⟨files, between, taken, ran⟩ := of_bind_ok ran
  cases ran
  exact readEntries_carriable taken

end

/-- Whether entries can be written, and are read back wherever their bytes are found. -/
structure RoundTrips (entries : List ListEntry) : Prop where
  whole : (write entries).refusal = none
  /-- Every sink that takes all it is given is given just the bytes of the list. -/
  written : ∀ {κ : Type} [ByteSink κ] {sent : κ → Bytes → Prop} {sink : κ} {said : Bytes},
    ByteSink.Accepts sent → sent sink said →
      ∃ after, (write entries).send sink = .ok () after ∧ sent after (said ++ (write entries).bytes)
  /-- What follows them is left: it is all that is still to come. -/
  readBack : ∀ {σ : Type} [ByteSource σ] {inflow : Inflow σ} {rest : Bytes},
    inflow.Brings ((write entries).bytes ++ rest) →
      ∃ after, read inflow = .ok entries after ∧ after.Brings rest
  /-- The same of bytes that stand in memory. -/
  parsed : ∀ rest, ∃ after : Inflow ScriptedSource,
    read (.plainly ((write entries).bytes ++ rest)) = .ok entries after ∧
      after.source.pending = rest

theorem roundTrips (carriable : ∀ entry ∈ entries, entry.Carriable) : RoundTrips entries := by
  obtain ⟨whole, same⟩ := write_carriable carriable
  refine ⟨whole, ?_, ?_, ?_⟩
  · intro κ _ sent sink said accepts held
    have all := Emission.send_meets accepts whole held
    unfold Meets at all
    split at all
    · next after ran => exact ⟨after, ran, all⟩
    · exact all.elim
  · intro σ _ inflow rest here
    rw [same] at here
    exact read_decodes Inflow.Brings.serves (fun _ _ journal brings => brings.recording journal)
      carriable inflow rest here
  · intro rest
    rw [same]
    obtain ⟨after, ran, left⟩ := read_decodes Inflow.Plainly.serves
      (fun _ _ _ here => ⟨here.plain, here.pending, here.free⟩) carriable _ rest
      (Inflow.plainly_of _)
    exact ⟨after, ran, left.pending⟩

/-- Whatever the reader accepts in an entry survives the wire, and so does every list that was
read: written again, however it was spelled before, it is read as the same entries. -/
theorem write_roundTrips :
    (∀ entries : List ListEntry, (∀ entry ∈ entries, entry.Carriable) → RoundTrips entries) ∧
      ∀ {σ : Type} [ByteSource σ] {before after : Inflow σ} {entries : List ListEntry},
        read before = .ok entries after → RoundTrips entries :=
  ⟨fun _ carriable => roundTrips carriable, fun ran => roundTrips (read_carriable ran)⟩

/-- A root of unknown kind from before the epoch, and a file with a size that needs a word. -/
def wideEntries : List ListEntry :=
  [⟨⟨selfName⟩, 0xffffffff, -1, 0⟩, ⟨⟨[100, 47, 255]⟩, 0o100644, 0x80000000, 0x7fffffffffffffff⟩]

def looseEntry : ListEntry :=
  ⟨⟨[97]⟩, 0o100644, -5, 3⟩

/-- One entry with a time in four bytes though it is negative, and a size in twelve though it is
small, then the end of the list and one byte more. -/
def looseBytes : Bytes :=
  [1, 0, 0, 0, 97, 164, 129, 0, 0, 251, 255, 255, 255,
    255, 255, 255, 255, 3, 0, 0, 0, 0, 0, 0, 0, 0, 0, 0, 0, 7]

theorem write_roundTrips_of_loose :
    (∀ entry ∈ wideEntries, entry.Carriable) ∧ RoundTrips wideEntries ∧
      (∃ after, read (Inflow.plainly looseBytes) = .ok [looseEntry] after) ∧
      (write [looseEntry]).bytes ++ [7] ≠ looseBytes ∧ RoundTrips [looseEntry] := by
  have carriable : ∀ entry ∈ wideEntries, entry.Carriable := by
    intro entry listed
    have either : entry = wideEntries[0] ∨ entry = wideEntries[1] := by
      simpa [wideEntries] using listed
    obtain rfl | rfl := either
    · exact ⟨rfl, by decide, by decide⟩
    · exact ⟨rfl, by decide, by decide⟩
  have loose : endsIn (read (Inflow.plainly looseBytes))
      (fun files _ => decide (files = [looseEntry])) = true := by
    decide +kernel
  obtain ⟨files, after, ran, same⟩ := of_endsIn loose
  obtain rfl : files = [looseEntry] := of_decide_eq_true same
  exact ⟨carriable, write_roundTrips.1 wideEntries carriable, ⟨after, ran⟩, by decide,
    write_roundTrips.2 ran⟩

end FileList

end TreeSync

import TreeSync.Proofs.FileList.RoundTrip

namespace TreeSync

/-! Records that are not complete.

No part of a record that falls short of the whole reads as a record: the reader runs out of
bytes. So it is with what a writer leaves behind that gave up halfway, whatever stopped it.
-/

open TreeSync.Action

variable {σ κ α β : Type}

/-- Whether a step failed because the bytes came to an end. -/
def RunsOut (result : EStateM.Result Fault σ α) : Prop :=
  ∃ fault after, result = .error fault after ∧ fault.kind = .unexpectedEof

/-- What falls short of two pieces falls short of the first, or has it and falls short of the
second. -/
theorem short_of_append {bytes more part rest : Bytes} (whole : bytes ++ more = part ++ rest) :
    (∃ missing, bytes = part ++ missing ∧ missing ≠ []) ∨
      ∃ part', part = bytes ++ part' ∧ more = part' ++ rest := by
  rcases List.append_eq_append_iff.mp whole with ⟨part', rfl, same⟩ | ⟨missing, rfl, same⟩
  · exact .inr ⟨part', rfl, same⟩
  · by_cases none : missing = []
    · subst none
      exact .inr ⟨[], by simp, same.symm⟩
    · exact .inl ⟨missing, rfl, none⟩

/-- Whether a decoder runs out where the bytes to come are these, short of some at the end. -/
def Starves (stands : σ → Bytes → Prop) (decode : EStateM Fault σ α) (bytes : Bytes) : Prop :=
  ∀ source part rest, bytes = part ++ rest → rest ≠ [] → stands source part →
    RunsOut (decode source)

namespace Starves

variable {stands : σ → Bytes → Prop} {bytes more : Bytes}

theorem bind {start : EStateM Fault σ β} {next : β → EStateM Fault σ α} {middle : β}
    (first : Starves stands start bytes) (decodes : Decodes stands start middle bytes)
    (later : Starves stands (next middle) more) :
    Starves stands (start >>= next) (bytes ++ more) := by
  intro source part rest whole short here
  rcases short_of_append whole with ⟨missing, whole', present⟩ | ⟨part', rfl, whole'⟩
  · obtain ⟨fault, after, failed, kind⟩ := first source part missing whole' present here
    exact ⟨fault, after, bind_error failed, kind⟩
  · obtain ⟨between, ran, left⟩ := decodes source part' here
    rw [bind_ok ran]
    exact later between part' rest whole' short left

theorem nothing (decode : EStateM Fault σ α) : Starves stands decode [] := by
  intro source part rest whole short here
  exact absurd (List.append_eq_nil_iff.mp whole.symm).2 short

/-- What is worked out of the value alone takes no more bytes. -/
theorem thenNothing {start : EStateM Fault σ β} {middle : β} (first : Starves stands start bytes)
    (decodes : Decodes stands start middle bytes) (next : β → EStateM Fault σ α) :
    Starves stands (start >>= next) bytes := by
  have both : Starves stands (start >>= next) (bytes ++ []) :=
    first.bind decodes (nothing (next middle))
  rwa [List.append_nil] at both

theorem whenTrue {condition : Prop} [Decidable condition] {yes no : EStateM Fault σ α}
    (holds : condition) (starves : Starves stands yes bytes) :
    Starves stands (if condition then yes else no) bytes := by
  rwa [if_pos holds]

theorem whenFalse {condition : Prop} [Decidable condition] {yes no : EStateM Fault σ α}
    (fails : ¬ condition) (starves : Starves stands no bytes) :
    Starves stands (if condition then yes else no) bytes := by
  rwa [if_neg fails]

variable [ByteSource σ] (serves : Serves stands)

include serves

theorem readExact (bytes : Bytes) :
    Starves stands (ByteSource.readExact bytes.length) bytes := by
  intro source part rest whole short here
  have size : part.length < bytes.length := by
    have present := List.length_pos_iff.mpr short
    rw [whole, List.length_append]
    omega
  have read := serves.readExact bytes.length here
  unfold Meets at read
  cases ran : ByteSource.readExact bytes.length source with
  | ok got after =>
      rw [ran] at read
      exact absurd read.1 (Nat.not_le.mpr size)
  | error fault after =>
      rw [ran] at read
      exact ⟨fault, after, rfl, by rw [read.2]; rfl⟩

theorem readInt (value : Int32) : Starves stands Wire.readInt (Wire.intBytes value) :=
  (readExact serves (Wire.intBytes value)).thenNothing (serves.feeds _) _

theorem readLong (value : Int64) : Starves stands Wire.readLong (Wire.writeLong value).bytes := by
  by_cases small : Wire.fitsInt value
  · rw [Wire.bytes_writeLong_small small]
    exact (readInt serves _).thenNothing (Decodes.readInt serves.feeds _) _
  · rw [Wire.bytes_writeLong_wide small]
    refine (readInt serves _).bind (Decodes.readInt serves.feeds _) (.whenTrue rfl ?_)
    exact (readExact serves (Wire.wordBytes value)).thenNothing (serves.feeds _) _

theorem readSize (what : String) (size : UInt64) :
    Starves stands (Wire.readSize what) (Wire.writeLong size.toInt64).bytes :=
  (readLong serves _).thenNothing (Decodes.readLong serves.feeds _) _

end Starves

namespace Totals

variable [ByteSource σ] {stands : σ → Bytes → Prop}

theorem receive_starves (serves : Serves stands) {totals : Totals}
    (fits : totals.Fits) : Starves stands receive totals.send.bytes := by
  rw [bytes_send fits]
  refine (Starves.readSize serves _ _).bind (Decodes.readSize serves.feeds _ fits.read) ?_
  refine (Starves.readSize serves _ _).bind (Decodes.readSize serves.feeds _ fits.written) ?_
  exact (Starves.readSize serves _ _).thenNothing (Decodes.readSize serves.feeds _ fits.size) _

end Totals

namespace FileList

open Wire

variable [ByteSource σ] {stands : Inflow σ → Bytes → Prop} (serves : Serves stands)
  {entry : ListEntry} {entries : List ListEntry}

include serves

theorem readNamed_starves (carriable : entry.Carriable) :
    Starves stands (readNamed entry.path.bytes.length)
      (entry.path.bytes ++ (intBytes entry.mode.toInt32 ++
        ((writeLong entry.mtime).bytes ++ (writeLong entry.size.toInt64).bytes))) := by
  refine (Starves.readExact serves _).bind (serves.feeds _) ?_
  dsimp only
  rw [carriable.accepted]
  refine (Starves.readInt serves _).bind (Decodes.readInt serves.feeds _) ?_
  refine (Starves.readLong serves _).bind (Decodes.readLong serves.feeds _) ?_
  exact (Starves.readSize serves "file size" _).thenNothing
    (Decodes.readSize serves.feeds "file size" carriable.small) _

theorem readEntry_starves (carriable : entry.Carriable) :
    Starves stands readEntry (entryBytes entry) := by
  have short := carriable.short
  have present : Int32.ofNat entry.path.bytes.length ≠ 0 :=
    ofNat_length_ne_zero carriable.named (by unfold maxNameLength at short; omega)
  refine (Starves.readInt serves _).bind (Decodes.readInt serves.feeds _) (.whenFalse present ?_)
  rw [nameLength_ofNat short, pure_bind]
  exact (readNamed_starves serves carriable).thenNothing (readNamed_decodes serves carriable) _

variable (apart : ∀ inflow bytes (journal : Journal), stands inflow bytes →
  stands { inflow with journal } bytes)

include apart

theorem readEntries_starves (carriable : ∀ entry ∈ entries, entry.Carriable) (count : Nat) :
    Starves stands (readEntries count) (listBytes entries) := by
  intro inflow part rest whole short here
  induction entries generalizing count inflow part with
  | nil =>
      have ends : Starves stands readEntry (intBytes 0) :=
        (Starves.readInt serves 0).thenNothing (Decodes.readInt serves.feeds 0) _
      obtain ⟨fault, after, failed, kind⟩ := ends inflow part rest whole short here
      exact ⟨fault, after, by rw [readEntries, failed], kind⟩
  | cons entry entries ih =>
      obtain ⟨first, others⟩ := List.forall_mem_cons.mp carriable
      have cut : listBytes (entry :: entries) = entryBytes entry ++ listBytes entries := by
        simp [listBytes]
      rw [cut] at whole
      rcases short_of_append whole with ⟨missing, whole', present⟩ | ⟨part', rfl, whole'⟩
      · obtain ⟨fault, after, failed, kind⟩ :=
          readEntry_starves serves first inflow part missing whole' present here
        exact ⟨fault, after, by rw [readEntries, failed], kind⟩
      · obtain ⟨between, ran, left⟩ := readEntry_decodes serves first inflow part' here
        obtain ⟨fault, after, failed, kind⟩ := ih others (count + 1) _ part' whole'
          (apart _ _ (between.journal.debug .fileList 2 (describe count entry)) left)
        refine ⟨fault, after, ?_, kind⟩
        rw [readEntries, ran]
        dsimp only
        rw [failed]

theorem read_starves (carriable : ∀ entry ∈ entries, entry.Carriable) :
    Starves stands read (listBytes entries) :=
  (readEntries_starves serves apart carriable 0).thenNothing
    (readEntries_decodes serves apart carriable 0) _

end FileList

namespace ByteSink

/-- Whether a sink that is given bytes takes all of them or fails short of the last. `sent` tells
what it was given so far. -/
def Tears [ByteSink κ] (sent : κ → Bytes) : Prop :=
  ∀ before bytes, Meets (put bytes) before (fun _ after => sent after = sent before ++ bytes)
    (fun _ after => ∃ part rest, bytes = part ++ rest ∧ rest ≠ [] ∧
      sent after = sent before ++ part)

/-- Whatever room a sink has. -/
theorem tears_bounded : Tears BoundedSink.written := by
  intro before bytes
  change Meets (BoundedSink.put bytes) before _ _
  unfold Meets BoundedSink.put
  cases before.room with
  | none => rfl
  | some room =>
      by_cases fits : bytes.length ≤ room
      · simp [fits]
      · simp only [fits, if_false]
        refine ⟨bytes.take room, bytes.drop room, (List.take_append_drop room bytes).symm, ?_, rfl⟩
        rw [Ne, List.drop_eq_nil_iff]
        exact fits

end ByteSink

namespace Emission

/-- The bytes that an emission is on the way to: those it has, unless it is refused before the
last of them. -/
def Toward (emission : Emission) (bytes : Bytes) : Prop :=
  ∃ rest, bytes = emission.bytes ++ rest ∧ (rest = [] ↔ emission.refusal = none)

theorem toward_whole {emission : Emission} (whole : emission.refusal = none) :
    emission.Toward emission.bytes :=
  ⟨[], (List.append_nil _).symm, by simp [whole]⟩

theorem toward_refuse {bytes : Bytes} (nonempty : bytes ≠ []) (fault : Fault) :
    (refuse fault).Toward bytes :=
  ⟨bytes, rfl, by simp [refuse, nonempty]⟩

theorem andThen_assoc (first next last : Emission) :
    (first.andThen next).andThen last = first.andThen (next.andThen last) := by
  cases whole : first.refusal with
  | some fault => simp [andThen, whole]
  | none =>
      cases whole' : next.refusal with
      | some fault => simp [andThen, whole, whole']
      | none => simp [andThen, whole, whole']

theorem Toward.andThen {first next : Emission} {bytes more : Bytes} (before : first.Toward bytes)
    (after : next.Toward more) : (first.andThen next).Toward (bytes ++ more) := by
  obtain ⟨rest, rfl, refused⟩ := before
  obtain ⟨rest', rfl, refused'⟩ := after
  cases whole : first.refusal with
  | none =>
      obtain rfl := refused.mpr whole
      refine ⟨rest', ?_, ?_⟩
      · rw [bytes_andThen whole, List.append_nil, List.append_assoc]
      · rw [refusal_andThen whole, refused']
  | some fault =>
      have stopped : first.andThen next = first := by simp [Emission.andThen, whole]
      have nonempty : rest ≠ [] := by simp [refused, whole]
      rw [stopped]
      exact ⟨rest ++ (next.bytes ++ rest'), List.append_assoc _ _ _, by simp [nonempty, whole]⟩

variable [ByteSink κ] {sent : κ → Bytes}

theorem forM_put_tears (tears : ByteSink.Tears sent) (pieces : List Bytes) (before : κ) :
    Meets (pieces.forM ByteSink.put) before
      (fun _ after => sent after = sent before ++ pieces.flatten)
      (fun _ after => ∃ part rest, pieces.flatten = part ++ rest ∧ rest ≠ [] ∧
        sent after = sent before ++ part) := by
  induction pieces generalizing before with
  | nil => exact Meets.pure (by simp)
  | cons piece more ih =>
      refine (tears before piece).followedBy ?_ fun _ middle held => ?_
      · intro fault after torn
        obtain ⟨part, rest, whole, short, held⟩ := torn
        exact ⟨part, rest ++ more.flatten, by simp [whole], by simp [short], held⟩
      · refine (ih middle).mono ?_ ?_
        · intro _ after held'
          simp [held', held]
        · intro fault after torn
          obtain ⟨part, rest, whole, short, held'⟩ := torn
          exact ⟨piece ++ part, rest, by simp [whole], short, by simp [held', held]⟩

/-- What stopped an emission was refused or not taken: it was sent short of what it was on the
way to. -/
theorem send_tears (tears : ByteSink.Tears sent) {emission : Emission} {bytes : Bytes}
    (toward : emission.Toward bytes) {before after : κ} {fault : Fault}
    (failed : emission.send before = .error fault after) :
    ∃ part rest, bytes = part ++ rest ∧ rest ≠ [] ∧ sent after = sent before ++ part := by
  obtain ⟨beyond, rfl, refused⟩ := toward
  have all : Meets emission.send before (fun _ _ => True) (fun _ after =>
      ∃ part rest, emission.bytes ++ beyond = part ++ rest ∧ rest ≠ [] ∧
        sent after = sent before ++ part) := by
    refine (forM_put_tears tears emission.pieces before).followedBy ?_ fun _ middle held => ?_
    · intro fault after torn
      obtain ⟨part, rest, whole, short, held⟩ := torn
      exact ⟨part, rest ++ beyond, by simp [bytes, whole], by simp [short], held⟩
    · cases stops : emission.refusal with
      | none => exact Meets.pure trivial
      | some fault =>
          refine Meets.throw ⟨emission.bytes, beyond, rfl, ?_, held⟩
          simp [refused, stops]
  exact all.of_error failed

end Emission

namespace FileList

open Wire

theorem listBytes_ne_nil (entries : List ListEntry) : listBytes entries ≠ [] := by
  have four : (intBytes 0).length = 4 := length_intBytes 0
  intro nothing
  rw [(List.append_eq_nil_iff.mp nothing).2] at four
  cases four

/-- What is written of a list is on the way to the entries before the first without a name. -/
theorem write_toward {entries : List ListEntry}
    (limited : ∀ entry ∈ entries, entry.path.bytes ≠ [] → entry.Carriable) :
    (write entries).Toward (listBytes (entries.takeWhile fun entry => entry.path.bytes ≠ [])) := by
  induction entries with
  | nil => exact Emission.toward_whole rfl
  | cons entry entries ih =>
      obtain ⟨first, others⟩ := List.forall_mem_cons.mp limited
      have split : write (entry :: entries) = (writeEntry entry).andThen (write entries) := by
        simp [write, Emission.concat, Emission.andThen_assoc]
      rw [split]
      by_cases named : entry.path.bytes = []
      · have refused : (writeEntry entry).andThen (write entries) =
            .refuse (.unencodableName 0) := by
          simp [writeEntry, named, Emission.andThen, Emission.refuse]
        rw [refused]
        exact Emission.toward_refuse (listBytes_ne_nil _) _
      · have short := (first named).short
        obtain ⟨whole, same⟩ := writeEntry_fits named (by unfold maxNameLength at short; omega)
        have kept : listBytes ((entry :: entries).takeWhile fun entry => entry.path.bytes ≠ []) =
            (writeEntry entry).bytes ++
              listBytes (entries.takeWhile fun entry => entry.path.bytes ≠ []) := by
          simp [listBytes, named, same]
        rw [kept]
        exact (Emission.toward_whole whole).andThen (ih others)

end FileList

namespace Totals

/-- A count that can be written in place of one that is too large. -/
def cap (count : UInt64) : UInt64 :=
  if count.toNat < 0x8000000000000000 then count else 0

def capped (totals : Totals) : Totals :=
  ⟨cap totals.read, cap totals.written, cap totals.size⟩

theorem writeCount_toward (count : UInt64) :
    (writeCount (cap count)).refusal = none ∧
      (writeCount count).Toward (writeCount (cap count)).bytes := by
  by_cases small : count.toNat < 0x8000000000000000
  · have whole : (writeCount count).refusal = none := by
      rw [writeCount, if_pos small]
      exact Wire.refusal_writeLong _
    rw [cap, if_pos small]
    exact ⟨whole, Emission.toward_whole whole⟩
  · have refused : writeCount count = .refuse (.unencodableStatistic count.toNat) := by
      rw [writeCount, if_neg small]
    rw [cap, if_neg small, refused]
    exact ⟨rfl, Emission.toward_refuse (by decide) _⟩

/-- What is written of totals is on the way to some that can be written. -/
theorem send_toward (totals : Totals) :
    totals.capped.send.refusal = none ∧ totals.send.Toward totals.capped.send.bytes := by
  obtain ⟨read, reading⟩ := writeCount_toward totals.read
  obtain ⟨written, writing⟩ := writeCount_toward totals.written
  obtain ⟨size, sizing⟩ := writeCount_toward totals.size
  have whole : totals.capped.send.refusal = none := by
    simp [send, capped, Emission.refusal_concat_iff, read, written, size]
  have bytes : totals.capped.send.bytes = _ := Emission.bytes_concat whole
  have last := sizing.andThen (Emission.toward_whole (rfl : ({} : Emission).refusal = none))
  rw [show ({} : Emission).bytes = [] from rfl, List.append_nil] at last
  rw [bytes]
  simp only [List.map_cons, List.map_nil, List.flatten_cons, List.flatten_nil, List.append_nil]
  exact ⟨whole, reading.andThen (writing.andThen last)⟩

end Totals

/-! What is read of a part. -/

/-- Whoever brings these bytes and no more, no list is read of them. -/
structure NoList (part : Bytes) : Prop where
  brought : ∀ {σ : Type} [ByteSource σ] {inflow : Inflow σ}, inflow.Brings part →
    RunsOut (FileList.read inflow)
  /-- The same of bytes that stand in memory. -/
  parsed : RunsOut (FileList.read (.plainly part))

/-- Whoever brings these bytes and no more, no totals are read of them. -/
structure NoTotals (part : Bytes) : Prop where
  brought : ∀ {σ : Type} [ByteSource σ] {inflow : Inflow σ}, inflow.Brings part →
    RunsOut (Totals.receive inflow)
  /-- The same of a source without messages. -/
  carried : ∀ {σ : Type} [ByteSource σ] {source : σ}, Carries source part →
    RunsOut (Totals.receive source)

variable {part rest : Bytes}

theorem FileList.noList {entries : List ListEntry}
    (carriable : ∀ entry ∈ entries, entry.Carriable) (whole : listBytes entries = part ++ rest)
    (short : rest ≠ []) : NoList part where
  brought here :=
    read_starves Inflow.Brings.serves (fun _ _ journal brings => brings.recording journal) carriable
      _ part rest whole short here
  parsed :=
    read_starves Inflow.Plainly.serves (fun _ _ _ here => ⟨here.plain, here.pending, here.free⟩)
      carriable _ part rest whole short (Inflow.plainly_of _)

theorem Totals.noTotals {totals : Totals} (writable : totals.send.refusal = none)
    (whole : totals.send.bytes = part ++ rest) (short : rest ≠ []) : NoTotals part where
  brought here := receive_starves Inflow.Brings.serves (refusal_send_iff.mp writable) _ part rest whole short here
  carried here := receive_starves Carries.serves (refusal_send_iff.mp writable) _ part rest whole short here

/-- Of a list and of totals that can be written no part is read that is not the whole. What a
writer leaves behind that failed is such a part, whether it refused an entry or a count itself or
its sink took no more: nobody takes it for a list or for totals. -/
theorem incomplete_runsOut :
    (∀ entries : List ListEntry, (∀ entry ∈ entries, entry.Carriable) →
      ∀ part rest, (FileList.write entries).bytes = part ++ rest → rest ≠ [] → NoList part) ∧
    (∀ totals : Totals, totals.send.refusal = none →
      ∀ part rest, totals.send.bytes = part ++ rest → rest ≠ [] → NoTotals part) ∧
    (∀ entries : List ListEntry,
      (∀ entry ∈ entries, entry.path.bytes ≠ [] → entry.Carriable) →
      ∀ {κ : Type} [ByteSink κ] {sent : κ → Bytes}, ByteSink.Tears sent →
      ∀ {before after : κ} {fault : Fault},
        (FileList.write entries).send before = .error fault after →
        ∃ part, sent after = sent before ++ part ∧ NoList part) ∧
    (∀ totals : Totals,
      ∀ {κ : Type} [ByteSink κ] {sent : κ → Bytes}, ByteSink.Tears sent →
      ∀ {before after : κ} {fault : Fault}, totals.send.send before = .error fault after →
        ∃ part, sent after = sent before ++ part ∧ NoTotals part) := by
  refine ⟨?_, fun totals writable part rest => Totals.noTotals writable, ?_, ?_⟩
  · intro entries carriable part rest whole short
    rw [(FileList.write_carriable carriable).2] at whole
    exact FileList.noList carriable whole short
  · intro entries limited κ _ sent tears before after fault failed
    obtain ⟨part, rest, whole, short, held⟩ :=
      Emission.send_tears tears (FileList.write_toward limited) failed
    refine ⟨part, held, FileList.noList (fun entry listed => ?_) whole short⟩
    exact limited entry (List.takeWhile_subset _ listed)
      (by simpa using List.all_eq_true.mp List.all_takeWhile entry listed)
  · intro totals κ _ sent tears before after fault failed
    obtain ⟨writable, toward⟩ := totals.send_toward
    obtain ⟨part, rest, whole, short, held⟩ := Emission.send_tears tears toward failed
    exact ⟨part, held, Totals.noTotals writable whole short⟩

/-- A file without a name. -/
def namelessEntry : ListEntry := ⟨⟨[]⟩, 0o100644, 0, 0⟩

/-- Totals of which the second does not fit a long. -/
def vastTotals : Totals := ⟨5, 0x8000000000000000, 7⟩

theorem incomplete_runsOut_of_nameless :
    NoList ((FileList.write [FileList.looseEntry]).bytes.take 10) ∧
    NoTotals [5, 0, 0, 0, 6] ∧
    (∃ after : BoundedSink,
      (FileList.write [FileList.looseEntry, namelessEntry]).send ({} : BoundedSink) =
        .error (.unencodableName 0) after ∧ NoList after.written) ∧
    (∃ after : BoundedSink,
      (FileList.write [FileList.looseEntry]).send ({ room := some 7 } : BoundedSink) =
        .error .connectionFull after ∧ after.written = [1, 0, 0, 0, 97, 164, 129] ∧
        NoList after.written) ∧
    (∃ after : BoundedSink,
      vastTotals.send.send ({} : BoundedSink) =
        .error (.unencodableStatistic 0x8000000000000000) after ∧
        after.written = [5, 0, 0, 0] ∧ NoTotals after.written) := by
  obtain ⟨lists, totals, tornLists, tornTotals⟩ := incomplete_runsOut
  have loose : FileList.looseEntry.Carriable := ⟨rfl, by decide, by decide⟩
  have one : ∀ entry ∈ [FileList.looseEntry], entry.Carriable := by
    simpa using loose
  refine ⟨?_, ?_, ?_, ?_, ?_⟩
  · exact lists _ one _ _ (List.take_append_drop 10 _).symm (by decide)
  · exact totals ⟨5, 6, 7⟩ (by decide) [5, 0, 0, 0, 6] _ rfl (by decide)
  · have ran : (FileList.write [FileList.looseEntry, namelessEntry]).send ({} : BoundedSink) =
        .error (.unencodableName 0) _ := rfl
    obtain ⟨part, held, nothing⟩ := tornLists _ (by simp [loose, namelessEntry])
      ByteSink.tears_bounded ran
    exact ⟨_, ran, held ▸ nothing⟩
  · have ran : (FileList.write [FileList.looseEntry]).send ({ room := some 7 } : BoundedSink) =
        .error .connectionFull _ := rfl
    obtain ⟨part, held, nothing⟩ := tornLists _ (fun entry listed _ => one entry listed)
      ByteSink.tears_bounded ran
    exact ⟨_, ran, rfl, held ▸ nothing⟩
  · have ran : vastTotals.send.send ({} : BoundedSink) =
        .error (.unencodableStatistic 0x8000000000000000) _ := rfl
    obtain ⟨part, held, nothing⟩ := tornTotals vastTotals ByteSink.tears_bounded ran
    exact ⟨_, ran, rfl, held ▸ nothing⟩

end TreeSync

import TreeSync.Proofs.Stream.Carrying
import TreeSync.Proofs.Stream.Numbers
import TreeSync.Totals

namespace TreeSync

/-! Decoders that get a value out of the bytes which encode it.

The bytes that follow are left alone, so decoders in a row get the values whose encodings
stand in a row.
-/

open TreeSync.Action

variable {σ α β : Type} {stands : σ → Bytes → Prop}

/-- Whether a decoder that finds these bytes ahead yields the value and leaves what follows. -/
def Decodes (stands : σ → Bytes → Prop) (decode : EStateM Fault σ α) (value : α)
    (bytes : Bytes) : Prop :=
  ∀ source rest, stands source (bytes ++ rest) →
    ∃ after, decode source = .ok value after ∧ stands after rest

/-- Whether what is read whole of the bytes ahead is their front. -/
def Feeds [ByteSource σ] (stands : σ → Bytes → Prop) : Prop :=
  ∀ bytes, Decodes stands (ByteSource.readExact bytes.length) bytes bytes

theorem Serves.feeds [ByteSource σ] (serves : Serves stands) : Feeds stands :=
  fun _ _ _ here => serves.readExact_front rfl here

namespace Decodes

variable {bytes more : Bytes}

theorem pure (value : α) : Decodes stands (Pure.pure value) value [] :=
  fun source _ here => ⟨source, rfl, here⟩

/-- Where a source stands for one string of bytes only, no other value is encoded by the front of
the same bytes. -/
theorem unique {decode : EStateM Fault σ α} {value value' : α} {source : σ} {rest rest' : Bytes}
    (settled : ∀ {source bytes bytes'}, stands source bytes → stands source bytes' → bytes = bytes')
    (first : Decodes stands decode value bytes) (second : Decodes stands decode value' more)
    (here : stands source (bytes ++ rest)) (same : bytes ++ rest = more ++ rest') :
    value = value' ∧ bytes = more := by
  obtain ⟨after, ran, left⟩ := first source rest here
  obtain ⟨after', ran', left'⟩ := second source rest' (same ▸ here)
  rw [ran'] at ran
  cases ran
  rw [settled left left'] at same
  exact ⟨rfl, List.append_cancel_right same⟩

theorem bind {start : EStateM Fault σ β} {next : β → EStateM Fault σ α} {middle : β} {value : α}
    (first : Decodes stands start middle bytes) (later : Decodes stands (next middle) value more) :
    Decodes stands (start >>= next) value (bytes ++ more) := by
  intro source rest here
  rw [List.append_assoc] at here
  obtain ⟨between, ran, left⟩ := first source _ here
  obtain ⟨after, ran', left'⟩ := later between rest left
  exact ⟨after, (bind_ok ran).trans ran', left'⟩

/-- What is worked out of the value alone takes no more bytes. -/
theorem thenPure {start : EStateM Fault σ β} {middle : β} (first : Decodes stands start middle bytes)
    (result : β → α) :
    Decodes stands (start >>= fun value => Pure.pure (result value)) (result middle) bytes := by
  have both : Decodes stands (start >>= fun value => Pure.pure (result value)) (result middle)
      (bytes ++ []) := first.bind (pure (result middle))
  rwa [List.append_nil] at both

theorem whenTrue {condition : Prop} [Decidable condition] {yes no : EStateM Fault σ α} {value : α}
    (holds : condition) (decodes : Decodes stands yes value bytes) :
    Decodes stands (if condition then yes else no) value bytes := by
  rwa [if_pos holds]

theorem whenFalse {condition : Prop} [Decidable condition] {yes no : EStateM Fault σ α} {value : α}
    (fails : ¬ condition) (decodes : Decodes stands no value bytes) :
    Decodes stands (if condition then yes else no) value bytes := by
  rwa [if_neg fails]

variable [ByteSource σ] (feeds : Feeds stands)

include feeds

theorem readInt (value : Int32) : Decodes stands Wire.readInt value (Wire.intBytes value) := by
  have taken := (feeds (Wire.intBytes value)).thenPure Wire.intOfBytes
  rwa [Wire.intOfBytes_intBytes] at taken

theorem readWord (value : Int64) :
    Decodes stands (return Wire.wordOfBytes (← ByteSource.readExact Wire.longWidth)) value
      (Wire.wordBytes value) := by
  have taken := (feeds (Wire.wordBytes value)).thenPure Wire.wordOfBytes
  rwa [Wire.wordOfBytes_wordBytes] at taken

/-- A long is read in whichever of its forms it comes. -/
theorem readForm {value : Int64} (form : Wire.IsLong value bytes) :
    Decodes stands Wire.readLong value bytes := by
  cases form with
  | plain small other same =>
      rw [← List.append_nil (Wire.intBytes _)]
      refine (readInt feeds small).bind (.whenFalse other ?_)
      rw [same, Int64.ofInt_toInt]
      exact pure value
  | escaped => exact (readInt feeds Wire.escape).bind (.whenTrue rfl (readWord feeds value))

theorem readLong (value : Int64) :
    Decodes stands Wire.readLong value (Wire.writeLong value).bytes :=
  readForm feeds (Wire.isLong_writeLong value)

theorem readSize (what : String) {size : UInt64} (small : size.toNat < 0x8000000000000000) :
    Decodes stands (Wire.readSize what) size (Wire.writeLong size.toInt64).bytes := by
  have value := Wire.toInt_toInt64 small
  rw [← List.append_nil (Wire.writeLong _).bytes]
  refine (readLong feeds size.toInt64).bind (.whenFalse (by omega) ?_)
  rw [UInt64.toUInt64_toInt64]
  exact pure size

theorem readDone (context : String) :
    Decodes stands (Wire.readDone context) () (Wire.intBytes Wire.doneIndex) := by
  rw [← List.append_nil (Wire.intBytes _)]
  exact (readInt feeds Wire.doneIndex).bind (.whenTrue rfl (pure ()))

end Decodes

namespace Totals

variable {totals : Totals} {count : UInt64}

theorem refusal_writeCount_iff :
    (writeCount count).refusal = none ↔ count.toNat < 0x8000000000000000 := by
  unfold writeCount
  split
  · next small => exact iff_of_true (Wire.refusal_writeLong _) small
  · next large => exact iff_of_false nofun large

theorem writeCount_small (small : count.toNat < 0x8000000000000000) :
    writeCount count = Wire.writeLong count.toInt64 :=
  if_pos small

/-- Whether a long holds each of the counts. -/
structure Fits (totals : Totals) : Prop where
  read : totals.read.toNat < 0x8000000000000000
  written : totals.written.toNat < 0x8000000000000000
  size : totals.size.toNat < 0x8000000000000000

/-- Totals are refused just if one of the counts is. -/
theorem refusal_send_iff : totals.send.refusal = none ↔ totals.Fits := by
  have counts : totals.send.refusal = none ↔ (writeCount totals.read).refusal = none ∧
      (writeCount totals.written).refusal = none ∧ (writeCount totals.size).refusal = none := by
    simp [send, Emission.refusal_concat_iff]
  rw [counts, refusal_writeCount_iff, refusal_writeCount_iff, refusal_writeCount_iff]
  exact ⟨fun ⟨read, written, size⟩ => ⟨read, written, size⟩, fun fits => ⟨fits.1, fits.2, fits.3⟩⟩

/-- Totals that are sent are sent as three longs in a row. -/
theorem bytes_send (fits : totals.Fits) :
    totals.send.bytes = (Wire.writeLong totals.read.toInt64).bytes ++
      ((Wire.writeLong totals.written.toInt64).bytes ++
        (Wire.writeLong totals.size.toInt64).bytes) := by
  have bytes : totals.send.bytes = _ := Emission.bytes_concat (refusal_send_iff.mpr fits)
  rw [bytes, writeCount_small fits.read, writeCount_small fits.written, writeCount_small fits.size]
  simp

theorem receive_decodes [ByteSource σ] (feeds : Feeds stands) (fits : totals.Fits) :
    Decodes stands receive totals totals.send.bytes := by
  have last := (Decodes.readSize feeds "total_size" fits.size).thenPure
    fun size => (⟨totals.read, totals.written, size⟩ : Totals)
  rw [bytes_send fits]
  exact (Decodes.readSize feeds _ fits.read).bind ((Decodes.readSize feeds _ fits.written).bind last)

end Totals

end TreeSync

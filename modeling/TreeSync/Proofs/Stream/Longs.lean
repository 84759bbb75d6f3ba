import TreeSync.Proofs.Stream.Decoding
import TreeSync.Proofs.Stream.Sending

namespace TreeSync

/-! Longs and totals as a codec.

A long comes in several forms, and a reader takes each of them for what it is. None of the forms
begins another, so whatever follows a long is left for the next reader. Totals are three longs of
which none is negative.
-/

open TreeSync.Action

variable {σ κ α : Type} {stands : σ → Bytes → Prop} {sent : κ → Bytes → Prop}

/-- Where the encoding of one value begins that of another, they are the same. -/
theorem ScriptedSource.eq_of_isPrefix {decode : EStateM Fault ScriptedSource α} {value other : α}
    {bytes more : Bytes}
    (first : Decodes (fun source bytes => source.Steady ∧ source.pending = bytes) decode value bytes)
    (second : Decodes (fun source bytes => source.Steady ∧ source.pending = bytes) decode other more)
    (front : bytes <+: more) : bytes = more ∧ value = other := by
  obtain ⟨rest, rfl⟩ := front
  have here : Steady ⟨bytes ++ rest, []⟩ := nofun
  have unique := Decodes.unique (fun one other => one.2.symm.trans other.2) first second ⟨here, rfl⟩
    (List.append_nil (bytes ++ rest)).symm
  exact ⟨unique.2, unique.1⟩

namespace Serves

variable [ByteSource σ] {source after : σ} {bytes : Bytes}

theorem front_of_readExact (serves : Serves stands) {wanted : Nat} {got : Bytes}
    (here : stands source bytes) (ran : ByteSource.readExact wanted source = .ok got after) :
    ∃ rest, bytes = got ++ rest ∧ stands after rest := by
  obtain ⟨-, rfl, left⟩ := (serves.readExact wanted here).of_ok ran
  exact ⟨_, (List.take_append_drop wanted bytes).symm, left⟩

theorem front_of_readInt (serves : Serves stands) {value : Int32} (here : stands source bytes)
    (ran : Wire.readInt source = .ok value after) :
    ∃ rest, bytes = Wire.intBytes value ++ rest ∧ stands after rest := by
  obtain ⟨got, between, took, made⟩ := of_bind_ok ran
  cases made
  rw [Wire.intBytes_intOfBytes (ByteSource.readExact_length took)]
  exact serves.front_of_readExact here took

/-- What is taken for a long is one of its forms. -/
theorem front_of_readLong (serves : Serves stands) {value : Int64} (here : stands source bytes)
    (ran : Wire.readLong source = .ok value after) :
    ∃ form rest, bytes = form ++ rest ∧ stands after rest ∧ Wire.IsLong value form := by
  obtain ⟨small, between, head, tail⟩ := of_bind_ok ran
  obtain ⟨rest, rfl, there⟩ := serves.front_of_readInt here head
  split at tail
  · next same =>
    obtain ⟨got, last, took, made⟩ := of_bind_ok tail
    cases made
    obtain ⟨rest, rfl, left⟩ := serves.front_of_readExact there took
    refine ⟨Wire.intBytes small ++ got, rest, (List.append_assoc _ _ _).symm, left, ?_⟩
    rw [same, ← Wire.wordBytes_wordOfBytes (ByteSource.readExact_length took),
      Wire.wordOfBytes_wordBytes]
    exact .escaped
  · next other =>
    cases tail
    have low := small.le_toInt
    have high := small.toInt_lt
    exact ⟨_, rest, rfl, there, .plain small other
      (Int64.toInt_ofInt_of_le (by omega) (by omega)).symm⟩

end Serves

theorem Wire.readSize_lt [ByteSource σ] {what : String} {size : UInt64} {source after : σ}
    (ran : readSize what source = .ok size after) : size.toNat < 0x8000000000000000 := by
  obtain ⟨value, between, -, tail⟩ := of_bind_ok ran
  split at tail
  · cases tail
  · next positive =>
    cases tail
    have least : 0 ≤ value := Int64.le_iff_toInt_le.mpr (Int.not_lt.mp positive)
    rw [Int64.toNat_toUInt64_of_le least]
    exact value.toNatClampNeg_lt

/-- Totals that are read are ones that could be sent. -/
theorem Totals.fits_of_receive [ByteSource σ] {totals : Totals} {source after : σ}
    (ran : receive source = .ok totals after) : totals.Fits := by
  obtain ⟨read, _, first, ran⟩ := of_bind_ok ran
  obtain ⟨written, _, second, ran⟩ := of_bind_ok ran
  obtain ⟨size, _, third, made⟩ := of_bind_ok ran
  cases made
  exact ⟨Wire.readSize_lt first, Wire.readSize_lt second, Wire.readSize_lt third⟩

/-- That values go over a wire: a sink takes just those that fit, and these are read back with what
follows left untouched. No others are ever read, and no encoding begins another. -/
structure Codec [ByteSink κ] (sent : κ → Bytes → Prop) (stands : σ → Bytes → Prop)
    (encode : α → Emission) (decode : EStateM Fault σ α) (fits : α → Prop) : Prop where
  taken : ∀ value before said, sent before said →
    ((∃ after, (encode value).send before = .ok () after) ↔ fits value)
  written : ∀ value before said after, sent before said →
    (encode value).send before = .ok () after → sent after (said ++ (encode value).bytes)
  read : ∀ value, fits value → Decodes stands decode value (encode value).bytes
  yielded : ∀ source value after, decode source = .ok value after → fits value
  apart : ∀ value other, fits value → fits other → (encode value).bytes <+: (encode other).bytes →
    (encode value).bytes = (encode other).bytes ∧ value = other

theorem Codec.ofDecodes [ByteSink κ] (accepts : ByteSink.Accepts sent) {encode : α → Emission}
    {decode : EStateM Fault σ α} {decode' : EStateM Fault ScriptedSource α} {fits : α → Prop}
    (whole : ∀ value, (encode value).refusal = none ↔ fits value)
    (read : ∀ value, fits value → Decodes stands decode value (encode value).bytes)
    (read' : ∀ value, fits value → Decodes (fun source bytes => source.Steady ∧ source.pending = bytes)
      decode' value (encode value).bytes)
    (yielded : ∀ source value after, decode source = .ok value after → fits value) :
    Codec sent stands encode decode fits where
  taken value _ _ held := (Emission.send_ok_iff accepts held).trans (whole value)
  written _ _ _ _ held ran :=
    (Emission.send_meets accepts (Emission.whole_of_send ran) held).of_ok ran
  read := read
  yielded := yielded
  apart value other fits fits' := ScriptedSource.eq_of_isPrefix (read' value fits) (read' other fits')

/-- Longs of every value and totals whose counts fit go over the wire. What is read of a long is
one of its forms, whichever the peer chose, and none of these begins another. -/
theorem longs_totals_codec [ByteSource σ] [ByteSink κ] (serves : Serves stands)
    (accepts : ByteSink.Accepts sent) :
    Codec sent stands Wire.writeLong Wire.readLong (fun _ => True) ∧
      (∀ source bytes value after, stands source bytes → Wire.readLong source = .ok value after →
        ∃ form rest, bytes = form ++ rest ∧ stands after rest ∧ Wire.IsLong value form ∧
          Decodes stands Wire.readLong value form ∧
          Decodes stands Wire.readLong value (Wire.writeLong value).bytes) ∧
      (∀ value other form form', Wire.IsLong value form → Wire.IsLong other form' →
        form <+: form' → form = form' ∧ value = other) ∧
      Codec sent stands Totals.send Totals.receive Totals.Fits := by
  have scripted := ScriptedSource.serves.feeds
  refine ⟨?_, ?_, ?_, ?_⟩
  · exact .ofDecodes accepts (fun value => iff_of_true (Wire.refusal_writeLong value) trivial)
      (fun value _ => Decodes.readLong serves.feeds value)
      (fun value _ => Decodes.readLong scripted value) fun _ _ _ _ => trivial
  · intro source bytes value after here ran
    obtain ⟨form, rest, whole, left, long⟩ := serves.front_of_readLong here ran
    exact ⟨form, rest, whole, left, long, Decodes.readForm serves.feeds long,
      Decodes.readLong serves.feeds value⟩
  · intro value other form form' long long'
    exact ScriptedSource.eq_of_isPrefix (Decodes.readForm scripted long)
      (Decodes.readForm scripted long')
  · exact .ofDecodes accepts (fun _ => Totals.refusal_send_iff)
      (fun _ fits => Totals.receive_decodes serves.feeds fits)
      (fun _ fits => Totals.receive_decodes scripted fits) fun _ _ _ => Totals.fits_of_receive

/-- A negative long that arrives in pieces is read back, and the byte behind it is still there.
Totals of small counts are sent. -/
theorem longs_totals_codec_scripted :
    (∃ after, Wire.readLong (⟨(Wire.writeLong (-5)).bytes ++ [7],
        [.atMost 3, .fails (.system .interrupted), .atMost 2]⟩ : ScriptedSource) = .ok (-5) after ∧
      after.pending = [7]) ∧
      ∃ after, (Totals.send ⟨1, 2, 3⟩).send ({} : BoundedSink) = .ok () after := by
  obtain ⟨longs, -, -, totals⟩ := longs_totals_codec ScriptedSource.serves @BoundedSink.accepts
  have steady : ScriptedSource.Steady ⟨(Wire.writeLong (-5)).bytes ++ [7],
      [.atMost 3, .fails (.system .interrupted), .atMost 2]⟩ :=
    List.forall_mem_cons.mpr ⟨Nat.succ_pos 2,
      List.forall_mem_cons.mpr ⟨rfl, List.forall_mem_singleton.mpr (Nat.succ_pos 1)⟩⟩
  obtain ⟨after, ran, -, left⟩ := longs.read (-5) trivial _ [7] ⟨steady, rfl⟩
  exact ⟨⟨after, ran, left⟩, (totals.taken ⟨1, 2, 3⟩ {} [] ⟨rfl, rfl⟩).mpr
    ⟨by decide, by decide, by decide⟩⟩

end TreeSync

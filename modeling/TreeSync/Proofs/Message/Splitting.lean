import TreeSync.Proofs.Message.Ahead
import TreeSync.Proofs.Stream.Sending

namespace TreeSync

/-! Headers as a codec, and a message split off from what follows it.

A word is the header of a message just if its top byte is a tag, and then it is the only word of
that header. A message is sent as its header and its payload or, if no header could announce it,
not at all; an inflow takes off the wire what was sent, and not a byte of what follows.
-/

open TreeSync.Action ByteSource

namespace MessageHeader

variable {header : MessageHeader} {code : MessageCode} {length word : Nat}

/-- The four bytes of a word, the lowest first. -/
def lanes (raw : UInt32) : Bytes :=
  [raw.toUInt8, (raw >>> 8).toUInt8, (raw >>> 16).toUInt8, (raw >>> 24).toUInt8]

/-- Whether the top byte of a word is the tag of a message code. -/
def Tagged (raw : UInt32) : Prop :=
  tagBase ≤ (raw >>> 24).toNat ∧ ∃ code : MessageCode, code.number = (raw >>> 24).toNat - tagBase

theorem encode_toNat (raw : UInt32) : LittleEndian.encode width raw.toNat = lanes raw := by
  have lane (shift : UInt32) (small : shift.toNat < 32) :
      (raw >>> shift).toUInt8 = UInt8.ofNat (raw.toNat / 2 ^ shift.toNat) := by
    apply UInt8.toNat_inj.mp
    rw [UInt32.toNat_toUInt8, UInt32.toNat_shiftRight, Nat.mod_eq_of_lt small,
      Nat.shiftRight_eq_div_pow, UInt8.toNat_ofNat']
  have first : raw.toUInt8 = UInt8.ofNat raw.toNat := by
    apply UInt8.toNat_inj.mp
    rw [UInt32.toNat_toUInt8, UInt8.toNat_ofNat']
  simp only [lanes, first, lane 8 (by decide), lane 16 (by decide), lane 24 (by decide), width,
    LittleEndian.encode, Nat.div_div_eq_div_mul]
  rfl

theorem word_div_lengthBound (header : MessageHeader) :
    header.word / lengthBound = header.code.number + tagBase := by
  have fits := header.length_lt
  unfold word lengthBound at *
  omega

theorem toNat_top (raw : UInt32) : (raw >>> 24).toNat = raw.toNat / lengthBound := by
  rw [UInt32.toNat_shiftRight, Nat.shiftRight_eq_div_pow]
  rfl

theorem word_of_tag (tag : code.number + tagBase = word / lengthBound) :
    MessageHeader.word ⟨code, word % lengthBound, Nat.mod_lt _ (by decide)⟩ = word := by
  change (code.number + tagBase) * lengthBound + word % lengthBound = word
  rw [tag]
  exact Nat.div_add_mod' word lengthBound

/-- A header is taken from its own word and from no other. -/
theorem ofWord_eq_ok_iff : ofWord word = .ok header ↔ header.word = word := by
  constructor
  · intro taken
    simp only [ofWord] at taken
    split at taken
    · cases taken
    · next above =>
      split at taken
      · next code found =>
        cases taken
        have number := MessageCode.number_of_ofNumber? found
        exact word_of_tag (by omega)
      · cases taken
  · rintro rfl
    exact ofWord_word header

/-- Just the words with a tag on top are headers. -/
theorem exists_ofWord_iff (raw : UInt32) :
    (∃ header, ofWord raw.toNat = .ok header) ↔ Tagged raw := by
  unfold Tagged
  rw [toNat_top]
  constructor
  · rintro ⟨header, taken⟩
    have top := header.word_div_lengthBound
    rw [ofWord_eq_ok_iff.mp taken] at top
    rw [top]
    exact ⟨Nat.le_add_left _ _, header.code, (Nat.add_sub_cancel _ _).symm⟩
  · rintro ⟨above, code, number⟩
    have tag : code.number + tagBase = raw.toNat / lengthBound := by omega
    exact ⟨_, ofWord_eq_ok_iff.mpr (word_of_tag tag)⟩

/-- What a word is the header of is encoded as that word. -/
theorem encode_of_ofWord {raw : UInt32} (taken : ofWord raw.toNat = .ok header) :
    header.encode = lanes raw := by
  rw [encode, ofWord_eq_ok_iff.mp taken, encode_toNat]

theorem make_eq_ok_iff :
    make code length = .ok header ↔ header.code = code ∧ header.length = length := by
  unfold make
  constructor
  · intro made
    split at made <;> cases made
    exact ⟨rfl, rfl⟩
  · rintro ⟨rfl, rfl⟩
    exact dif_pos header.length_lt

theorem lt_lengthBound_iff : length < lengthBound ↔ length ≤ maxLength := by
  unfold maxLength lengthBound
  omega

/-- Just the lengths that a header has room for are announced. -/
theorem exists_make_iff : (∃ header, make code length = .ok header) ↔ length ≤ maxLength := by
  rw [← lt_lengthBound_iff]
  constructor
  · rintro ⟨header, made⟩
    obtain ⟨-, rfl⟩ := make_eq_ok_iff.mp made
    exact header.length_lt
  · intro fits
    exact ⟨⟨code, length, fits⟩, make_eq_ok_iff.mpr ⟨rfl, rfl⟩⟩

end MessageHeader

namespace MessageCode

variable {κ : Type} [ByteSink κ] {code : MessageCode} {payload : Bytes}

theorem send_made {header : MessageHeader}
    (made : MessageHeader.make code payload.length = .ok header) :
    code.send payload = { pieces := [header.encode, payload] } := by
  unfold send
  rw [made]

/-- What no header can announce is refused before a byte of it is sent. -/
theorem send_oversized (large : MessageHeader.maxLength < payload.length) (before : κ) :
    (code.send payload).send before = .error (.oversizedMessage payload.length) before := by
  have much : ¬ payload.length < MessageHeader.lengthBound := by
    rw [MessageHeader.lt_lengthBound_iff]
    omega
  unfold send MessageHeader.make
  rw [dif_neg much]
  rfl

end MessageCode

namespace Inflow

variable {σ : Type} [ByteSource σ] {stands : σ → Bytes → Prop} {now first : Inflow σ} {rest : Bytes}
  {message : SentMessage} {limit : Nat}

/-- Where there is a message to come, a read first does what flushing does. -/
theorem read_flush (framed : now.multiplexed = true) (between : now.remaining = 0)
    (positive : 0 < limit) (more : ∀ after, nextMessage now ≠ .ok false after) :
    Inflow.read limit now =
      match flush now with
      | .ok _ after => Inflow.read limit after
      | .error fault after => .error fault after := by
  rw [read_eq, if_neg (by simp [framed]), if_neg (Nat.ne_of_gt positive), if_pos between,
    flush_between framed between]
  cases ran : nextMessage now with
  | ok some after =>
      cases some with
      | true => rfl
      | false => exact absurd ran (more after)
  | error fault after => rfl

/-- What is like `first`, but for the payload of a data message that is still to come before
`rest`. -/
def Within (stands : σ → Bytes → Prop) (first : Inflow σ) (rest : Bytes) (now : Inflow σ)
    (content : Bytes) : Prop :=
  ∃ source, now = { first with source, remaining := content.length } ∧
    stands source (content ++ rest)

/-- A read within a data message brings a piece of its payload, and nothing else changes. -/
theorem Within.supplies (serves : Serves stands) (framed : first.multiplexed = true) :
    Supplies (Within stands first rest) where
  read {now content limit} within positive known := by
    obtain ⟨source, rfl, there⟩ := within
    have present : ¬ content.length = 0 := by omega
    have brings := serves.read there positive
    change Meets (Inflow.read limit) _ _ _
    unfold Meets at brings ⊢
    rw [read_eq, if_neg (by simp [framed]), if_neg (Nat.ne_of_gt positive), if_neg present]
    dsimp only
    rw [Nat.min_eq_left known]
    cases ran : ByteSource.read limit source with
    | ok got after =>
        rw [ran] at brings
        obtain ⟨later, whole, stays, last⟩ := brings
        obtain ⟨left, rfl, rfl⟩ :=
          piece_of_front whole (Nat.le_trans (ByteSource.read_length ran) known)
        cases got with
        | nil =>
            have empty := (List.append_eq_nil_iff.mp (last rfl)).1
            subst empty
            exact absurd rfl present
        | cons byte more =>
            refine ⟨List.cons_ne_nil _ _, left, rfl, after, ?_, stays⟩
            rw [List.length_append, Nat.add_sub_cancel_left]
    | error fault after =>
        rw [ran] at brings
        exact ⟨brings.1, after, rfl, brings.2⟩

/-- How an inflow between two messages takes the next one off the wire, which goes on with
`rest`. -/
structure Splits (stands : σ → Bytes → Prop) (message : SentMessage) (rest : Bytes)
    (now : Inflow σ) : Prop where
  /-- A read first does what flushing does. -/
  reads : ∀ limit, 0 < limit → Inflow.read limit now =
    match flush now with
    | .ok _ after => Inflow.read limit after
    | .error fault after => .error fault after
  /-- A message out of band is delivered as it was sent. -/
  heard : message.1 ≠ .data → ∃ source, stands source rest ∧
    flush now = deliver message.1 message.2 { now with source }
  /-- The payload of a data message is what comes next, and nobody hears of it. -/
  handed : message.1 = .data → ∃ middle source,
    flush now = .ok () { now with source := middle, remaining := message.2.length } ∧
    readExact message.2.length { now with source := middle, remaining := message.2.length } =
      .ok message.2 { now with source } ∧
    stands middle (message.2 ++ rest) ∧ stands source rest

/-- Flushing settles the next message and leaves what follows it on the wire. -/
theorem flush_settles (serves : Serves stands) (fine : (message.1.send message.2).refusal = none)
    (framed : now.multiplexed = true) (between : now.remaining = 0)
    (here : stands now.source ((message.1.send message.2).bytes ++ rest)) :
    ∃ source, stands source (Framing.payload [message] ++ rest) ∧
      flush now = settle message { now with source } ∧
      ∀ after, nextMessage now ≠ .ok false after := by
  obtain ⟨source, there, ran⟩ := nextMessage_front serves fine here
  have dealt : nextMessage now = _ := ran now.handler
  refine ⟨source, there, ?_, fun after => ?_⟩
  · rw [flush_between framed between, dealt]
    cases settled : settle message { now with source } with
    | ok _ after => rw [bind_ok settled]; rfl
    | error fault after => rw [bind_error settled]
  · rw [dealt]
    cases settled : settle message { now with source } with
    | ok _ after => rw [bind_ok settled]; nofun
    | error fault after => rw [bind_error settled]; nofun

theorem Splits.of_sent (serves : Serves stands)
    (fine : (message.1.send message.2).refusal = none) (framed : now.multiplexed = true)
    (between : now.remaining = 0)
    (here : stands now.source ((message.1.send message.2).bytes ++ rest)) :
    Splits stands message rest now := by
  obtain ⟨code, content⟩ := message
  obtain ⟨source, there, flushed, more⟩ := flush_settles serves fine framed between here
  refine ⟨fun limit positive => read_flush framed between positive more, fun other => ?_,
    fun data => ?_⟩
  · rw [Framing.payload_other content other] at there
    refine ⟨source, there, ?_⟩
    rw [flushed, settle, if_neg other]
  · obtain rfl : code = .data := data
    rw [Framing.payload_data] at there
    have within : Within stands now rest { now with source, remaining := content.length }
        (content ++ []) := ⟨source, by rw [List.append_nil], by rwa [List.append_nil]⟩
    obtain ⟨_, taken, source', rfl, stays⟩ :=
      (Within.supplies serves framed).feeds content _ [] within
    refine ⟨source, source', flushed, ?_, there, stays⟩
    rw [taken, List.length_nil, ← between]

end Inflow

variable {σ κ : Type} {stands : σ → Bytes → Prop} {sent : κ → Bytes → Prop}

/-- Just the words with a tag on top are headers, each the header that is encoded as that word.
Just the lengths below the bound are announced, and what announces them is decoded whatever
follows. Each message that a header can announce is sent as that header and the payload, and an
inflow takes it apart from what follows it; of any other message not a byte is sent. -/
theorem headers_messages_codec [ByteSource σ] [ByteSink κ] (serves : Serves stands)
    (accepts : ByteSink.Accepts sent) :
    (∀ raw : UInt32,
      ((∃ header, MessageHeader.ofWord raw.toNat = .ok header) ↔ MessageHeader.Tagged raw) ∧
      ∀ header, MessageHeader.ofWord raw.toNat = .ok header →
        header.encode = MessageHeader.lanes raw) ∧
    (∀ code length,
      ((∃ header, MessageHeader.make code length = .ok header) ↔
        length ≤ MessageHeader.maxLength) ∧
      ∀ header, MessageHeader.make code length = .ok header →
        header.code = code ∧ header.length = length ∧
          ∀ rest, MessageHeader.decode (header.encode ++ rest) = .ok header) ∧
    ∀ (code : MessageCode) (payload : Bytes),
      (payload.length ≤ MessageHeader.maxLength →
        ∃ header, MessageHeader.make code payload.length = .ok header ∧
          (∀ before said, sent before said → ∃ after,
            (code.send payload).send before = .ok () after ∧
              sent after (said ++ (header.encode ++ payload))) ∧
          ∀ (now : Inflow σ) rest, now.multiplexed = true → now.remaining = 0 →
            stands now.source ((header.encode ++ payload) ++ rest) →
              Inflow.Splits stands (code, payload) rest now) ∧
      (MessageHeader.maxLength < payload.length →
        ∃ fault : Fault, fault.kind = .invalidInput ∧
          ∀ before : κ, (code.send payload).send before = .error fault before) := by
  refine ⟨fun raw => ⟨MessageHeader.exists_ofWord_iff raw, fun _ => MessageHeader.encode_of_ofWord⟩,
    fun code length => ⟨MessageHeader.exists_make_iff, fun header made => ?_⟩,
    fun code payload => ⟨fun fits => ?_, fun large => ?_⟩⟩
  · obtain ⟨same, size⟩ := MessageHeader.make_eq_ok_iff.mp made
    exact ⟨same, size, Framing.decode_encode_append header⟩
  · obtain ⟨header, made⟩ := MessageHeader.exists_make_iff.mpr fits
    have sending := MessageCode.send_made made
    have fine : (code.send payload).refusal = none := by rw [sending]
    have bytes : (code.send payload).bytes = header.encode ++ payload := by
      simp [sending, Emission.bytes]
    refine ⟨header, made, fun before said held => ?_, fun now rest framed between here => ?_⟩
    · obtain ⟨⟨⟩, after, ran, told⟩ := (Emission.send_meets accepts fine held).succeeds
      rw [bytes] at told
      exact ⟨after, ran, told⟩
    · rw [← bytes] at here
      exact .of_sent serves fine framed between here
  · exact ⟨.oversizedMessage payload.length, rfl, MessageCode.send_oversized large⟩

/-- An inflow with a handler, to which an error comes in pieces and after it another byte. -/
def Inflow.inPieces : Inflow ScriptedSource where
  source := ⟨[2, 0, 0, 10, 33, 34, 7], [.atMost 3, .fails (.system .interrupted), .atMost 2]⟩
  multiplexed := true
  handler := some {}

/-- A sign of life of five bytes, an error that goes over the wire, and a payload that is one byte
too long. -/
theorem headers_messages_codec_scripted :
    (∃ header, MessageHeader.ofWord 0x31000005 = .ok header ∧ header.encode = [5, 0, 0, 0x31]) ∧
      (∃ after, (MessageCode.send .error [33, 34]).send ({ written := [9] } : BoundedSink) =
          .ok () after ∧ after.written = [9, 2, 0, 0, 10, 33, 34]) ∧
      (∃ source : ScriptedSource, source.pending = [7] ∧ Inflow.inPieces.flush =
        .ok () { Inflow.inPieces with source, handler := some { taken := [(.error, [33, 34])] } }) ∧
      ∃ fault : Fault, fault.kind = .invalidInput ∧
        (MessageCode.send .noOp (List.replicate 0x1000000 0)).send ({} : BoundedSink) =
          .error fault {} := by
  obtain ⟨words, -, messages⟩ :=
    headers_messages_codec ScriptedSource.serves @BoundedSink.accepts
  have steady : Inflow.inPieces.source.Steady :=
    List.forall_mem_cons.mpr ⟨Nat.succ_pos 2,
      List.forall_mem_cons.mpr ⟨rfl, List.forall_mem_singleton.mpr (Nat.succ_pos 1)⟩⟩
  have tagged : MessageHeader.Tagged 0x31000005 := ⟨by decide, .noOp, by decide⟩
  obtain ⟨header, taken⟩ := (words 0x31000005).1.mpr tagged
  obtain ⟨error, made, sends, splits⟩ := (messages .error [33, 34]).1 (by decide)
  obtain rfl : ⟨.error, 2, by decide⟩ = error := Except.ok.inj made
  obtain ⟨after, ran, told⟩ := sends { written := [9] } [9] ⟨rfl, rfl⟩
  obtain ⟨source, left, heard⟩ :=
    (splits Inflow.inPieces [7] rfl rfl ⟨steady, rfl⟩).heard (by decide)
  obtain ⟨fault, kind, refused⟩ :=
    (messages .noOp (List.replicate 0x1000000 0)).2 (by simp only [List.length_replicate]; decide)
  exact ⟨⟨header, taken, (words 0x31000005).2 header taken⟩, ⟨after, ran, told.written⟩,
    ⟨source, left.2, heard⟩, fault, kind, refused {}⟩

end TreeSync

import TreeSync.Proofs.Message.Framing

namespace TreeSync

/-! A stream of messages that is cut short.

Wherever the cut falls, a reader gets the payload that stands before it, hears the messages that
are complete before it, and then learns of the cut: only a cut between two messages passes for
the end of the stream.
-/

open TreeSync.Action ByteSource

namespace ByteSource

/-- What repeated reads brought, and how they ended: without a fault where one brought nothing. -/
structure Readout (σ : Type) where
  delivered : Bytes
  fault : Option Fault
  last : σ

variable {σ : Type}

/-- What was brought in all, with `got` before the rest. -/
def Readout.following (got : Bytes) (out : Readout σ) : Readout σ :=
  { out with delivered := got ++ out.delivered }

variable [ByteSource σ]

/-- Reads again and again, into buffers of the sizes `sizes turn`, `sizes (turn + 1)` and so on,
until a read brings nothing or fails. Interrupted reads are tried again. -/
def readOut (sizes : Nat → Nat) (turn : Nat) (source : σ) : Readout σ :=
  match _done : read (sizes turn) source with
  | .ok [] after => ⟨[], none, after⟩
  | .ok (byte :: rest) after => (readOut sizes (turn + 1) after).following (byte :: rest)
  | .error fault after =>
      if _again : fault.isInterrupted then readOut sizes (turn + 1) after
      else ⟨[], some fault, after⟩
termination_by budget source
decreasing_by
  · exact budget_lt_of_read _done
  · exact budget_lt_of_interrupted _done _again

end ByteSource

namespace Framing

/-- The bytes of a message on the wire, each with whether it is payload of a data message. -/
def located (message : SentMessage) : List (UInt8 × Bool) :=
  (message.1.send message.2).bytes.mapIdx fun place byte =>
    (byte, decide (message.1 = .data ∧ MessageHeader.width ≤ place))

/-- The payload of data messages among the first `cut` bytes on the wire. -/
def payloadBefore (messages : List SentMessage) (cut : Nat) : Bytes :=
  ((messages.flatMap located).take cut).filterMap fun place =>
    if place.2 then some place.1 else none

/-- The messages that end within the first `cut` bytes on the wire. -/
def completeBefore : List SentMessage → Nat → List SentMessage
  | [], _ => []
  | message :: rest, cut =>
      let size := (message.1.send message.2).bytes.length
      if size ≤ cut then message :: completeBefore rest (cut - size) else []

/-- Whether the first `cut` bytes on the wire are whole messages. -/
def Boundary (messages : List SentMessage) (cut : Nat) : Prop :=
  ∃ passed rest, messages = passed ++ rest ∧ cut = (wire passed).length

theorem boundary_iff_take {messages : List SentMessage} {cut : Nat} :
    Boundary messages cut ↔
      ∃ count ∈ List.range (messages.length + 1), cut = (wire (messages.take count)).length := by
  constructor
  · intro boundary
    obtain ⟨passed, rest, rfl, size⟩ := boundary
    refine ⟨passed.length, ?_, by rwa [List.take_left]⟩
    rw [List.mem_range, List.length_append]
    omega
  · intro counted
    obtain ⟨count, _, size⟩ := counted
    exact ⟨messages.take count, messages.drop count, (List.take_append_drop _ _).symm, size⟩

instance (messages : List SentMessage) (cut : Nat) : Decidable (Boundary messages cut) :=
  decidable_of_iff _ boundary_iff_take.symm

section

variable {message : SentMessage} {messages : List SentMessage} {cut : Nat}

theorem Sendable.head (sendable : Sendable (message :: messages)) :
    (message.1.send message.2).refusal = none :=
  sendable _ List.mem_cons_self

theorem Sendable.tail (sendable : Sendable (message :: messages)) : Sendable messages :=
  fun other listed => sendable other (List.mem_cons_of_mem _ listed)

theorem send_length (fine : (message.1.send message.2).refusal = none) :
    (message.1.send message.2).bytes.length = MessageHeader.width + message.2.length := by
  obtain ⟨header, _, _, bytes⟩ := send_bytes fine
  rw [bytes, List.length_append, MessageHeader.encode, LittleEndian.length_encode]

theorem located_eq {header : MessageHeader}
    (bytes : (message.1.send message.2).bytes = header.encode ++ message.2) :
    located message =
      header.encode.map (·, false) ++ message.2.map (·, decide (message.1 = .data)) := by
  have width : header.encode.length = MessageHeader.width := LittleEndian.length_encode _ _
  unfold located
  rw [bytes, List.mapIdx_append]
  congr 1
  · refine List.ext_getElem (by simp) fun place within _ => ?_
    rw [List.length_mapIdx, width] at within
    simp [within]
  · refine List.ext_getElem (by simp) fun place _ _ => ?_
    simp [width]

theorem payloadBefore_zero (messages : List SentMessage) : payloadBefore messages 0 = [] := by
  simp [payloadBefore]

theorem filterMap_marked (bytes : Bytes) (marked : Bool) :
    ((bytes.map (·, marked)).filterMap fun place : UInt8 × Bool =>
      if place.2 then some place.1 else none) = if marked then bytes else [] := by
  rw [List.filterMap_map]
  cases marked with
  | true => exact List.filterMap_some
  | false => exact List.filterMap_eq_nil_iff.mpr fun _ _ => rfl

theorem payloadBefore_cons (fine : (message.1.send message.2).refusal = none) :
    payloadBefore (message :: messages) cut =
      (payload [message]).take (cut - MessageHeader.width) ++
        payloadBefore messages (cut - (MessageHeader.width + message.2.length)) := by
  obtain ⟨header, _, _, bytes⟩ := send_bytes fine
  have width : header.encode.length = MessageHeader.width := LittleEndian.length_encode _ _
  have size : (located message).length = MessageHeader.width + message.2.length := by
    rw [located_eq bytes, List.length_append, List.length_map, List.length_map, width]
  have front : ((located message).take cut).filterMap
      (fun place => if place.2 then some place.1 else none) =
        (payload [message]).take (cut - MessageHeader.width) := by
    rw [located_eq bytes, List.take_append, List.filterMap_append, ← List.map_take, ← List.map_take,
      filterMap_marked, filterMap_marked, List.length_map, width]
    by_cases data : message.1 = .data <;> simp [payload, data]
  unfold payloadBefore
  rw [List.flatMap_cons, List.take_append, List.filterMap_append, front, size]

theorem completeBefore_cons (fine : (message.1.send message.2).refusal = none) :
    completeBefore (message :: messages) cut =
      if MessageHeader.width + message.2.length ≤ cut then
        message :: completeBefore messages (cut - (MessageHeader.width + message.2.length))
      else [] := by
  rw [completeBefore, send_length fine]

theorem completeBefore_zero (sendable : Sendable messages) : completeBefore messages 0 = [] := by
  cases messages with
  | nil => rfl
  | cons message rest =>
      rw [completeBefore_cons sendable.head]
      exact if_neg (by simp [MessageHeader.width])

theorem boundary_zero (messages : List SentMessage) : Boundary messages 0 :=
  ⟨[], messages, rfl, rfl⟩

theorem boundary_cons (fine : (message.1.send message.2).refusal = none) (positive : 0 < cut) :
    Boundary (message :: messages) cut ↔
      MessageHeader.width + message.2.length ≤ cut ∧
        Boundary messages (cut - (MessageHeader.width + message.2.length)) := by
  rw [← send_length fine]
  constructor
  · intro boundary
    obtain ⟨passed, rest, split, rfl⟩ := boundary
    cases passed with
    | nil => exact absurd positive (Nat.lt_irrefl 0)
    | cons first passed =>
        obtain ⟨rfl, rfl⟩ := List.cons.inj split
        rw [wire_cons, List.length_append]
        exact ⟨Nat.le_add_right _ _, passed, rest, rfl, Nat.add_sub_cancel_left _ _⟩
  · intro later
    obtain ⟨enough, passed, rest, rfl, size⟩ := later
    refine ⟨message :: passed, rest, rfl, ?_⟩
    rw [wire_cons, List.length_append, ← size]
    omega

end

/-- What a reader of a cut stream is still to get: the rest of the data message in progress and
the messages after it, of whose bytes no more than `cut` arrive. -/
structure Remnant where
  current : Bytes
  messages : List SentMessage
  cut : Nat

namespace Remnant

def bytes (remnant : Remnant) : Bytes :=
  (remnant.current ++ wire remnant.messages).take remnant.cut

/-- How far the cut is past the message in progress. -/
def beyond (remnant : Remnant) : Nat :=
  remnant.cut - remnant.current.length

def payload (remnant : Remnant) : Bytes :=
  remnant.current.take remnant.cut ++ payloadBefore remnant.messages remnant.beyond

def outOfBand (remnant : Remnant) : List SentMessage :=
  Framing.outOfBand (completeBefore remnant.messages remnant.beyond)

/-- Whether the stream is cut between two messages. -/
def Whole (remnant : Remnant) : Prop :=
  remnant.current.length ≤ remnant.cut ∧ Boundary remnant.messages remnant.beyond

/-- Another remnant is left once `got` has been read and `heard` has been heard. -/
structure Leaves (remnant : Remnant) (got : Bytes) (heard : List SentMessage) (next : Remnant) :
    Prop where
  payload : remnant.payload = got ++ next.payload
  outOfBand : remnant.outOfBand = heard ++ next.outOfBand
  whole : remnant.Whole ↔ next.Whole

/-- Nothing of use is left before the cut. -/
structure Bare (remnant : Remnant) : Prop where
  payload : remnant.payload = []
  outOfBand : remnant.outOfBand = []

section

variable {message : SentMessage} {messages : List SentMessage} {current piece left : Bytes}
  {cut : Nat}

theorem leaves_refl (remnant : Remnant) : remnant.Leaves [] [] remnant :=
  ⟨rfl, rfl, .rfl⟩

theorem Leaves.trans {first second third : Remnant} {got more : Bytes}
    {heard later : List SentMessage} (before : first.Leaves got heard second)
    (after : second.Leaves more later third) :
    first.Leaves (got ++ more) (heard ++ later) third where
  payload := by rw [before.payload, after.payload, List.append_assoc]
  outOfBand := by rw [before.outOfBand, after.outOfBand, List.append_assoc]
  whole := before.whole.trans after.whole

/-- A piece of the message in progress. -/
theorem leaves_piece (within : piece.length ≤ cut) :
    Leaves ⟨piece ++ left, messages, cut⟩ piece [] ⟨left, messages, cut - piece.length⟩ := by
  have size : (piece ++ left).length = piece.length + left.length := List.length_append
  have beyond : cut - (piece ++ left).length = cut - piece.length - left.length := by omega
  refine ⟨?_, ?_, ?_⟩
  · simp only [payload, Remnant.beyond, beyond]
    rw [List.take_append, List.take_of_length_le within, List.append_assoc]
  · simp only [outOfBand, Remnant.beyond, beyond, List.nil_append]
  · simp only [Whole, Remnant.beyond, beyond]
    exact and_congr_left' (by omega)

/-- The header of a data message. -/
theorem leaves_data (sendable : Sendable (message :: messages)) (data : message.1 = .data)
    (present : MessageHeader.width ≤ cut) :
    Leaves ⟨[], message :: messages, cut⟩ [] []
      ⟨message.2, messages, cut - MessageHeader.width⟩ := by
  have fine := sendable.head
  have positive : 0 < cut := by
    unfold MessageHeader.width at present
    omega
  have past : cut - MessageHeader.width - message.2.length =
      cut - (MessageHeader.width + message.2.length) := by omega
  refine ⟨?_, ?_, ?_⟩
  · simp [payload, beyond, payloadBefore_cons fine, Framing.payload, data, past]
  · by_cases enough : MessageHeader.width + message.2.length ≤ cut
    · simp [outOfBand, beyond, completeBefore_cons fine, enough, past, Framing.outOfBand, data]
    · have zero : cut - (MessageHeader.width + message.2.length) = 0 := by omega
      simp [outOfBand, beyond, completeBefore_cons fine, enough, past, zero,
        completeBefore_zero sendable.tail]
  · simp only [Whole, beyond, List.length_nil, Nat.zero_le, true_and, Nat.sub_zero, past]
    rw [boundary_cons fine positive]
    exact and_congr_left' (by omega)

/-- A message that is heard, the whole of it. -/
theorem leaves_other (fine : (message.1.send message.2).refusal = none) (other : message.1 ≠ .data)
    (enough : MessageHeader.width + message.2.length ≤ cut) :
    Leaves ⟨[], message :: messages, cut⟩ [] [message]
      ⟨[], messages, cut - (MessageHeader.width + message.2.length)⟩ := by
  have positive : 0 < cut := by
    unfold MessageHeader.width at enough
    omega
  refine ⟨?_, ?_, ?_⟩
  · simp [payload, beyond, payloadBefore_cons fine, Framing.payload, other]
  · simp [outOfBand, beyond, completeBefore_cons fine, enough, Framing.outOfBand, other]
  · simp only [Whole, beyond, List.length_nil, Nat.zero_le, true_and, Nat.sub_zero]
    rw [boundary_cons fine positive]
    exact and_iff_right enough

theorem bare_end (sendable : Sendable messages) : Bare ⟨current, messages, 0⟩ := by
  constructor
  · simp [payload, beyond, payloadBefore_zero]
  · simp [outOfBand, beyond, completeBefore_zero sendable, Framing.outOfBand]

/-- The cut falls within a header, or within a message that is not data. -/
theorem bare_torn (sendable : Sendable (message :: messages)) (positive : 0 < cut)
    (torn : cut < MessageHeader.width + message.2.length)
    (kind : message.1 = .data → cut < MessageHeader.width) :
    Bare ⟨[], message :: messages, cut⟩ ∧ ¬ Whole ⟨[], message :: messages, cut⟩ := by
  have fine := sendable.head
  have zero : cut - (MessageHeader.width + message.2.length) = 0 := by omega
  have short : ¬ MessageHeader.width + message.2.length ≤ cut := Nat.not_le.mpr torn
  refine ⟨⟨?_, ?_⟩, ?_⟩
  · by_cases data : message.1 = .data
    · have header : cut - MessageHeader.width = 0 := by
        have within := kind data
        omega
      simp [payload, beyond, payloadBefore_cons fine, header, zero, payloadBefore_zero]
    · simp [payload, beyond, payloadBefore_cons fine, Framing.payload, data, zero,
        payloadBefore_zero]
  · simp [outOfBand, beyond, completeBefore_cons fine, short, Framing.outOfBand]
  · intro whole
    exact short ((boundary_cons fine positive).mp whole.2).1

end

end Remnant

end Framing

namespace Inflow

open Framing

variable {σ : Type}

/-- How a stream was read to its end. -/
structure Reads (start : Inflow σ) (payload : Bytes) (outOfBand : List SentMessage) (whole : Prop)
    (out : Readout (Inflow σ)) : Prop where
  delivered : out.delivered = payload
  heard : Hears start out.last outOfBand
  clean : whole → out.fault = none
  torn : ¬ whole → ∃ fault, out.fault = some fault ∧ fault.kind = .unexpectedEof

/-- A stream that is at its end already. -/
def Stops (before : Inflow σ) (remnant : Remnant) (fault : Option Fault) (after : Inflow σ) :
    Prop :=
  Reads before remnant.payload remnant.outOfBand remnant.Whole ⟨[], fault, after⟩

section

variable {inflow between after : Inflow σ} {remnant next : Remnant} {got : Bytes}
  {heard : List SentMessage} {fault : Fault}

theorem Reads.past {out : Readout (Inflow σ)} (leaves : remnant.Leaves got heard next)
    (hears : Hears inflow between heard)
    (reads : Reads between next.payload next.outOfBand next.Whole out) :
    Reads inflow remnant.payload remnant.outOfBand remnant.Whole (out.following got) where
  delivered := by rw [Readout.following, reads.delivered, leaves.payload]
  heard := by
    rw [leaves.outOfBand]
    exact hears.trans reads.heard
  clean whole := reads.clean (leaves.whole.mp whole)
  torn torn := reads.torn fun whole => torn (leaves.whole.mpr whole)

theorem Stops.clean (bare : remnant.Bare) (whole : remnant.Whole) (hears : Hears inflow after []) :
    Stops inflow remnant none after :=
  ⟨bare.payload.symm, bare.outOfBand ▸ hears, fun _ => rfl, fun torn => absurd whole torn⟩

theorem Stops.torn (bare : remnant.Bare) (torn : ¬ remnant.Whole) (hears : Hears inflow after [])
    (kind : fault.kind = .unexpectedEof) : Stops inflow remnant (some fault) after :=
  ⟨bare.payload.symm, bare.outOfBand ▸ hears, fun whole => absurd whole torn,
    fun _ => ⟨fault, rfl, kind⟩⟩

theorem Stops.final (stops : Stops inflow remnant (some fault) after) :
    fault.isInterrupted = false := by
  by_cases whole : remnant.Whole
  · cases Reads.clean stops whole
  · obtain ⟨cause, same, kind⟩ := Reads.torn stops whole
    obtain rfl := Option.some.inj same
    unfold Fault.isInterrupted
    rw [kind]
    rfl

theorem Stops.past {fault : Option Fault} (leaves : remnant.Leaves [] heard next)
    (hears : Hears inflow between heard) (stops : Stops between next fault after) :
    Stops inflow remnant fault after :=
  Reads.past leaves hears stops

end

variable [ByteSource σ] {stands : σ → Bytes → Prop} {source : σ}

/-- A stream that ends within a header. -/
theorem fillHeader_cut (serves : Serves stands) {filled bytes : Bytes} (nonempty : filled ++ bytes ≠ [])
    (few : filled.length + bytes.length < MessageHeader.width) (here : stands source bytes) :
    ∃ after,
      fillHeader filled source = .error (.headerCut (filled.length + bytes.length)) after := by
  fun_induction fillHeader filled source generalizing bytes with
  | case1 filled source full => omega
  | case2 source after short ended =>
      exact absurd (serves.ended here (by omega) ended) nonempty
  | case3 filled source short after ended _ =>
      obtain rfl := serves.ended here (by omega) ended
      exact ⟨after, rfl⟩
  | case4 filled source short byte more after first ih =>
      obtain ⟨left, rfl, there, _⟩ := (serves.read here (by omega)).of_ok first
      have size : filled.length + (byte :: more ++ left).length =
          (filled ++ byte :: more).length + left.length := by
        simp only [List.length_append]
        omega
      rw [size] at few ⊢
      exact ih (by simp) few there
  | case5 filled source short fault after failed again ih =>
      exact ih nonempty few ((serves.read here (by omega)).of_error failed).2
  | case6 filled source short fault after failed final =>
      exact absurd ((serves.read here (by omega)).of_error failed).1 final

theorem nextMessage_torn {inflow : Inflow σ} {fault : Fault}
    (failed : fillHeader [] inflow.source = .error fault source) :
    nextMessage inflow = .error fault { inflow with source } := by
  unfold nextMessage
  rw [failed]

theorem nextMessage_short {inflow : Inflow σ} {bytes : Bytes} {header : MessageHeader}
    {later : σ} {fault : Fault} (filled : fillHeader [] inflow.source = .ok (some bytes) source)
    (decoded : MessageHeader.decode bytes = .ok header) (other : header.code ≠ .data)
    (body : readExact header.length source = .error fault later) :
    nextMessage inflow = .error fault { inflow with source := later } := by
  unfold nextMessage
  rw [filled]
  dsimp only
  rw [decoded]
  dsimp only
  rw [if_neg other, body]

/-- Where an inflow stands in a stream that is cut short. -/
structure Faces (inflow : Inflow σ) (remnant : Remnant) : Prop where
  multiplexed : inflow.multiplexed = true
  remaining : inflow.remaining = remnant.current.length
  source : Carries inflow.source remnant.bytes
  within : remnant.cut ≤ (remnant.current ++ wire remnant.messages).length
  sendable : Sendable remnant.messages
  accepts : inflow.Accepts

/-- An inflow that gave `got` and heard what it passed on the way. -/
def Gives (before : Inflow σ) (remnant : Remnant) (got : Bytes) (after : Inflow σ) : Prop :=
  ∃ heard next, remnant.Leaves got heard next ∧ Faces after next ∧ Hears before after heard

theorem Gives.past {inflow between after : Inflow σ} {remnant next : Remnant} {got more : Bytes}
    {heard : List SentMessage} (leaves : remnant.Leaves got heard next)
    (hears : Hears inflow between heard) (gives : Gives between next more after) :
    Gives inflow remnant (got ++ more) after := by
  obtain ⟨heard', last, leaves', faces, hears'⟩ := gives
  exact ⟨heard ++ heard', last, leaves.trans leaves', faces, hears.trans hears'⟩

namespace Faces

section

variable {inflow : Inflow σ} {message : SentMessage} {messages : List SentMessage} {cut : Nat}

/-- The cut is where the last message ended. -/
theorem ended (faces : Faces inflow ⟨[], messages, 0⟩) :
    ∃ after, Inflow.nextMessage inflow = .ok false after ∧
      Stops inflow ⟨[], messages, 0⟩ none after := by
  obtain ⟨source, done, _⟩ := fillHeader_none Carries.serves faces.source
  exact ⟨_, nextMessage_ended done, .clean (Remnant.bare_end faces.sendable)
    ⟨Nat.zero_le _, boundary_zero _⟩ (.nothing rfl rfl)⟩

/-- The cut is in the header of the next message. -/
theorem tornHeader (faces : Faces inflow ⟨[], message :: messages, cut⟩) (positive : 0 < cut)
    (short : cut < MessageHeader.width) :
    ∃ fault after, Inflow.nextMessage inflow = .error fault after ∧
      Stops inflow ⟨[], message :: messages, cut⟩ (some fault) after := by
  have few : (Remnant.bytes ⟨[], message :: messages, cut⟩).length = cut := by
    rw [Remnant.bytes, List.length_take]
    exact Nat.min_eq_left faces.within
  have nonempty : ([] : Bytes) ++ Remnant.bytes ⟨[], message :: messages, cut⟩ ≠ [] :=
    List.ne_nil_of_length_pos (by rwa [List.nil_append, few])
  obtain ⟨source, failed⟩ := fillHeader_cut Carries.serves nonempty
    (by rwa [few, List.length_nil, Nat.zero_add]) faces.source
  obtain ⟨bare, torn⟩ := Remnant.bare_torn faces.sendable positive
    (by omega) fun _ => short
  exact ⟨_, _, nextMessage_torn failed, .torn bare torn (.nothing rfl rfl) rfl⟩

/-- The cut is past the header of the next message. -/
theorem header (faces : Faces inflow ⟨[], message :: messages, cut⟩)
    (past : MessageHeader.width ≤ cut) :
    ∃ (header : MessageHeader) (after : σ), header.code = message.1 ∧
      header.length = message.2.length ∧
      fillHeader [] inflow.source = .ok (some header.encode) after ∧
      Carries after ((message.2 ++ wire messages).take (cut - MessageHeader.width)) := by
  obtain ⟨header, code, size, bytes⟩ := send_bytes faces.sendable.head
  have width : header.encode.length = MessageHeader.width := LittleEndian.length_encode _ _
  have here := faces.source
  simp only [Remnant.bytes, List.nil_append, wire_cons, bytes, List.append_assoc] at here
  rw [List.take_append, List.take_of_length_le (by omega), width] at here
  obtain ⟨after, filled, there⟩ := fillHeader_front Carries.serves width here
  exact ⟨header, after, code, size, filled, there⟩

theorem within_tail (faces : Faces inflow ⟨[], message :: messages, cut⟩) :
    cut - MessageHeader.width ≤ (message.2 ++ wire messages).length := by
  have within := faces.within
  simp only [List.nil_append, wire_cons, List.length_append] at within
  rw [send_length faces.sendable.head] at within
  rw [List.length_append]
  omega

theorem data (faces : Faces inflow ⟨[], message :: messages, cut⟩)
    (past : MessageHeader.width ≤ cut) (data : message.1 = .data) :
    ∃ after, Inflow.nextMessage inflow = .ok true after ∧
      Gives inflow ⟨[], message :: messages, cut⟩ [] after := by
  obtain ⟨header, source, code, size, filled, there⟩ := faces.header past
  refine ⟨_, nextMessage_data filled (decode_encode header) (code.trans data), [], _,
    Remnant.leaves_data faces.sendable data past, ?_, .nothing rfl rfl⟩
  exact ⟨faces.multiplexed, size, there, faces.within_tail, faces.sendable.tail, faces.accepts⟩

theorem heard (faces : Faces inflow ⟨[], message :: messages, cut⟩) (other : message.1 ≠ .data)
    (enough : MessageHeader.width + message.2.length ≤ cut) :
    ∃ after, Inflow.nextMessage inflow = .ok true after ∧
      Gives inflow ⟨[], message :: messages, cut⟩ [] after := by
  obtain ⟨code, content⟩ := message
  dsimp only at other enough
  obtain ⟨header, source, rfl, size, filled, there⟩ := faces.header (by omega)
  dsimp only at size there
  rw [List.take_append, List.take_of_length_le (by omega), Nat.sub_sub] at there
  obtain ⟨later, body, stays⟩ := Carries.serves.readExact_front size there
  have accepts : Accepts { inflow with source := later } := faces.accepts
  obtain ⟨after, delivered, hears, same, multiplexed, remaining⟩ :=
    accepts.deliver header.code content
  have zero : after.remaining = 0 := remaining.trans faces.remaining
  have within : cut - (MessageHeader.width + content.length) ≤ (wire messages).length := by
    have rest := faces.within_tail
    rw [List.length_append] at rest
    dsimp only at rest
    omega
  refine ⟨after, nextMessage_other filled (decode_encode header) other body delivered,
    [(header.code, content)], _, Remnant.leaves_other faces.sendable.head other enough, ?_, hears⟩
  exact ⟨multiplexed.trans faces.multiplexed, zero, same ▸ stays, within, faces.sendable.tail,
    hears.accepts accepts⟩

/-- The cut is in the payload of a message that is not data. -/
theorem tornPayload (faces : Faces inflow ⟨[], message :: messages, cut⟩)
    (past : MessageHeader.width ≤ cut) (other : message.1 ≠ .data)
    (torn : cut < MessageHeader.width + message.2.length) :
    ∃ fault after, Inflow.nextMessage inflow = .error fault after ∧
      Stops inflow ⟨[], message :: messages, cut⟩ (some fault) after := by
  obtain ⟨header, source, code, size, filled, there⟩ := faces.header past
  have few : ((message.2 ++ wire messages).take (cut - MessageHeader.width)).length <
      header.length := by
    rw [List.length_take]
    omega
  have positive : 0 < cut := by
    unfold MessageHeader.width at past
    omega
  obtain ⟨bare, notWhole⟩ := Remnant.bare_torn faces.sendable positive
    torn fun data => absurd data other
  have body := Carries.serves.readExact header.length there
  unfold Meets at body
  cases ran : readExact header.length source with
  | ok content after =>
      rw [ran] at body
      exact absurd body.1 (Nat.not_le.mpr few)
  | error fault after =>
      rw [ran] at body
      obtain ⟨_, rfl⟩ := body
      exact ⟨_, _, nextMessage_short filled (decode_encode header) (code ▸ other) ran,
        .torn bare notWhole (.nothing rfl rfl) rfl⟩

end

variable {inflow : Inflow σ} {remnant : Remnant} {limit : Nat}

theorem between (faces : Faces inflow remnant) (zero : inflow.remaining = 0) :
    remnant.current = [] :=
  List.eq_nil_of_length_eq_zero (faces.remaining.symm.trans zero)

/-- One message is dealt with, unless the stream ends before that. -/
theorem nextMessage (faces : Faces inflow remnant) (zero : inflow.remaining = 0) :
    Meets Inflow.nextMessage inflow
      (fun more after => match more with
        | true => Gives inflow remnant [] after
        | false => Stops inflow remnant Option.none after)
      (fun fault after => Stops inflow remnant (some fault) after) := by
  obtain ⟨current, messages, cut⟩ := remnant
  obtain rfl : current = [] := faces.between zero
  unfold Meets
  -- by where the cut is: before, in or after the header of the next message, or in its payload
  rcases Nat.eq_zero_or_pos cut with rfl | positive
  · obtain ⟨after, done, stops⟩ := faces.ended
    rw [done]
    exact stops
  cases messages with
  | nil => exact absurd faces.within (Nat.not_le.mpr positive)
  | cons message rest =>
      by_cases past : MessageHeader.width ≤ cut
      · by_cases data : message.1 = .data
        · obtain ⟨after, done, gives⟩ := faces.data past data
          rw [done]
          exact gives
        · by_cases enough : MessageHeader.width + message.2.length ≤ cut
          · obtain ⟨after, done, gives⟩ := faces.heard data enough
            rw [done]
            exact gives
          · obtain ⟨fault, after, failed, stops⟩ :=
              faces.tornPayload past data (Nat.lt_of_not_le enough)
            rw [failed]
            exact stops
      · obtain ⟨fault, after, failed, stops⟩ :=
          faces.tornHeader positive (Nat.lt_of_not_le past)
        rw [failed]
        exact stops

/-- A read within a data message brings a piece of its payload. -/
theorem piece (faces : Faces inflow remnant) (more : ¬ inflow.remaining = 0) (positive : 0 < limit)
    {got : Bytes} {source : σ}
    (first : ByteSource.read (min limit inflow.remaining) inflow.source = .ok got source) :
    Gives inflow remnant got
      { inflow with source, remaining := inflow.remaining - got.length } := by
  obtain ⟨current, messages, cut⟩ := remnant
  obtain ⟨rest, whole, there, _⟩ :=
    (Carries.serves.read faces.source (Awaits.some_wanted positive more)).of_ok first
  have short := ByteSource.read_length first
  have size := faces.remaining
  have within := faces.within
  dsimp only [Remnant.bytes] at size within whole
  have front : got <+: current :=
    List.prefix_of_prefix_length_le ((List.prefix_append got rest).trans (whole ▸ List.take_prefix _ _))
      (List.prefix_append current (wire messages)) (by omega)
  obtain ⟨left, rfl⟩ := front
  have arrived : got.length ≤ cut := by
    have sizes := congrArg List.length whole
    simp only [List.length_take, List.length_append] at sizes
    omega
  rw [List.append_assoc, List.take_append, List.take_of_length_le arrived] at whole
  obtain rfl := List.append_cancel_left whole
  have count : inflow.remaining - got.length = left.length := by
    rw [size, List.length_append, Nat.add_sub_cancel_left]
  have later : cut - got.length ≤ (left ++ wire messages).length := by
    rw [List.append_assoc, List.length_append] at within
    omega
  exact ⟨[], _, Remnant.leaves_piece arrived,
    ⟨faces.multiplexed, count, there, later, faces.sendable, faces.accepts⟩, .nothing rfl rfl⟩

/-- The cut is in the payload of a data message. -/
theorem tornData (faces : Faces inflow remnant) (present : ¬ inflow.remaining = 0)
    (positive : 0 < limit) {source : σ}
    (ended : ByteSource.read (min limit inflow.remaining) inflow.source = .ok [] source) :
    Stops inflow remnant (Option.some (.payloadCut inflow.remaining)) { inflow with source } := by
  obtain ⟨current, messages, cut⟩ := remnant
  have nothing := Carries.serves.ended faces.source (Awaits.some_wanted positive present) ended
  have progress : ¬ current.length = 0 := faces.remaining ▸ present
  obtain rfl : cut = 0 := by
    have size := congrArg List.length nothing
    dsimp only [Remnant.bytes] at size
    rw [List.length_take, List.length_append, List.length_nil] at size
    omega
  exact .torn (Remnant.bare_end faces.sendable) (fun whole => progress (Nat.le_zero.mp whole.1))
    (.nothing rfl rfl) rfl

theorem read (faces : Faces inflow remnant) (positive : 0 < limit) :
    Meets (Inflow.read limit) inflow
      (fun got after => (got = [] → Stops inflow remnant none after) ∧
        (got ≠ [] → Gives inflow remnant got after))
      (fun fault after => (fault.isInterrupted = true → Gives inflow remnant [] after) ∧
        (fault.isInterrupted = false → Stops inflow remnant (some fault) after)) := by
  unfold Meets
  -- by the messages passed: what is left after one is left of the whole
  fun_induction Inflow.read limit inflow generalizing remnant with
  | case1 inflow plain | case2 inflow plain =>
      exact absurd faces.multiplexed (by simp [plain])
  | case3 inflow plain nothing => exact absurd nothing (Nat.ne_of_gt positive)
  | case4 inflow plain present between after advanced ih =>
      obtain ⟨heard, next, leaves, faces', hears⟩ := (faces.nextMessage between).of_ok advanced
      have later : Meets (Inflow.read limit) after _ _ := ih faces'
      refine later.mono ?_ ?_
      · intro got final met
        exact ⟨fun nothing => (met.1 nothing).past leaves hears,
          fun present => Gives.past leaves hears (met.2 present)⟩
      · intro fault final met
        exact ⟨fun again => Gives.past leaves hears (met.1 again),
          fun last => (met.2 last).past leaves hears⟩
  | case5 inflow plain present between after stopped =>
      have stops := (faces.nextMessage between).of_ok stopped
      exact ⟨fun _ => stops, fun present => absurd rfl present⟩
  | case6 inflow plain present between fault after failed =>
      have stops := (faces.nextMessage between).of_error failed
      exact ⟨fun again => absurd again (by simp [stops.final]), fun _ => stops⟩
  | case7 inflow plain present within source ended =>
      have final : ¬ (Fault.payloadCut inflow.remaining).isInterrupted = true := Bool.false_ne_true
      exact ⟨fun again => absurd again final, fun _ => faces.tornData within positive ended⟩
  | case8 inflow plain present within byte more source first =>
      exact ⟨fun nothing => absurd nothing (List.cons_ne_nil _ _), fun _ => faces.piece within positive first⟩
  | case9 inflow plain present within fault source first =>
      obtain ⟨interrupted, there⟩ :=
        (Carries.serves.read faces.source (Awaits.some_wanted positive within)).of_error first
      refine ⟨fun _ => ⟨[], remnant, remnant.leaves_refl, ?_, .nothing rfl rfl⟩, fun last => ?_⟩
      · exact ⟨faces.multiplexed, faces.remaining, there, faces.within, faces.sendable,
          faces.accepts⟩
      · exact absurd interrupted (by simp [last])

/-- Reading on comes to the cut, with all that is of use before it. -/
theorem readOut (faces : Faces inflow remnant) {sizes : Nat → Nat} (positive : ∀ turn, 0 < sizes turn)
    (turn : Nat) :
    Reads inflow remnant.payload remnant.outOfBand remnant.Whole
      (ByteSource.readOut sizes turn inflow) := by
  fun_induction ByteSource.readOut sizes turn inflow generalizing remnant with
  | case1 turn inflow after ended => exact ((faces.read (positive turn)).of_ok ended).1 rfl
  | case2 turn inflow byte more after first ih =>
      obtain ⟨heard, next, leaves, faces', hears⟩ :=
        ((faces.read (positive turn)).of_ok first).2 (List.cons_ne_nil _ _)
      exact .past leaves hears (ih faces')
  | case3 turn inflow fault after failed again ih =>
      obtain ⟨heard, next, leaves, faces', hears⟩ :=
        ((faces.read (positive turn)).of_error failed).1 again
      exact .past leaves hears (ih faces')
  | case4 turn inflow fault after failed final =>
      exact ((faces.read (positive turn)).of_error failed).2 (by simpa using final)

end Faces

/-- However the bytes of a stream of messages that is cut short arrive and whatever sizes the
buffers have, reading on comes to an end. It brings the payload before the cut, the messages that
are complete before it are heard, and the cut is taken for the end of the stream only if it is
between two messages. -/
theorem readOut_of_cut {start : Inflow σ} {messages : List SentMessage} {cut : Nat}
    (sendable : Sendable messages) (multiplexed : start.multiplexed = true)
    (fresh : start.remaining = 0) (accepts : start.Accepts) (within : cut ≤ (wire messages).length)
    (carries : Carries start.source ((wire messages).take cut)) {sizes : Nat → Nat}
    (positive : ∀ turn, 0 < sizes turn) :
    Reads start (payloadBefore messages cut) (outOfBand (completeBefore messages cut))
      (Boundary messages cut) (readOut sizes 0 start) := by
  have faces : Faces start ⟨[], messages, cut⟩ :=
    ⟨multiplexed, fresh, carries, within, sendable, accepts⟩
  have reads := faces.readOut positive 0
  simpa [Remnant.payload, Remnant.outOfBand, Remnant.Whole, Remnant.beyond] using reads

/-- A message for the journal, data, a message that says nothing, and more data. -/
def tornMessages : List SentMessage :=
  [(.info, [104, 105, 10]), (.data, [42, 0]), (.noOp, []), (.data, [7, 8, 9])]

/-- They are cut in the last payload, after its first byte; the bytes come with an interruption. -/
def tornStart : Inflow ScriptedSource where
  source := ⟨(wire tornMessages).take 22, [.atMost 3, .fails (.bare .interrupted), .atMost 2]⟩
  multiplexed := true

theorem readOut_of_tornStart :
    ¬ Boundary tornMessages 22 ∧
      Reads tornStart [42, 0, 7] [(.info, [104, 105, 10]), (.noOp, [])] (Boundary tornMessages 22)
        (readOut (fun turn => turn % 2 + 1) 0 tornStart) := by
  have sendable : Sendable tornMessages := by
    unfold Sendable
    decide
  have steady : tornStart.source.Steady := by
    intro planned listed
    have one : planned = .atMost 3 ∨ planned = .fails (.bare .interrupted) ∨
        planned = .atMost 2 := by
      simpa [tornStart] using listed
    obtain rfl | rfl | rfl := one <;> decide
  have accepts : tornStart.Accepts := nofun
  have within : 22 ≤ (wire tornMessages).length := by decide
  have carries : Carries tornStart.source ((wire tornMessages).take 22) :=
    ScriptedSource.carries steady
  have reads := readOut_of_cut sendable rfl rfl accepts within carries
    fun turn => Nat.succ_pos (turn % 2)
  refine ⟨by decide, ?_⟩
  have payload : payloadBefore tornMessages 22 = [42, 0, 7] := by decide
  have heard : outOfBand (completeBefore tornMessages 22) =
      [(.info, [104, 105, 10]), (.noOp, [])] := by decide
  rwa [payload, heard] at reads

end Inflow

end TreeSync

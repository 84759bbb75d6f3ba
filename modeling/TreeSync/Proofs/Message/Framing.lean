import TreeSync.Message.Inflow
import TreeSync.Proofs.Stream.Carrying

namespace TreeSync

/-! Messages on the wire, and how an inflow takes them apart again. -/

open TreeSync.Action ByteSource

/-- The code and the payload of a message that was sent. -/
abbrev SentMessage := MessageCode × Bytes

namespace Framing

/-- What is on the wire when messages were sent one after the other. -/
def wire (messages : List SentMessage) : Bytes :=
  messages.flatMap fun message => (message.1.send message.2).bytes

def payload (messages : List SentMessage) : Bytes :=
  messages.flatMap fun message => if message.1 = .data then message.2 else []

def outOfBand (messages : List SentMessage) : List SentMessage :=
  messages.filter fun message => message.1 ≠ .data

def Sendable (messages : List SentMessage) : Prop :=
  ∀ message ∈ messages, (message.1.send message.2).refusal = none

@[simp] theorem wire_cons (message : SentMessage) (rest : List SentMessage) :
    wire (message :: rest) = (message.1.send message.2).bytes ++ wire rest :=
  List.flatMap_cons

@[simp] theorem payload_append (first second : List SentMessage) :
    payload (first ++ second) = payload first ++ payload second :=
  List.flatMap_append

@[simp] theorem outOfBand_append (first second : List SentMessage) :
    outOfBand (first ++ second) = outOfBand first ++ outOfBand second :=
  List.filter_append _ _

theorem payload_cons (message : SentMessage) (rest : List SentMessage) :
    payload (message :: rest) = payload [message] ++ payload rest :=
  payload_append [message] rest

theorem outOfBand_cons (message : SentMessage) (rest : List SentMessage) :
    outOfBand (message :: rest) = outOfBand [message] ++ outOfBand rest :=
  outOfBand_append [message] rest

theorem payload_data (content : Bytes) : payload [(.data, content)] = content := by
  simp [payload]

theorem payload_other {code : MessageCode} (content : Bytes) (other : code ≠ .data) :
    payload [(code, content)] = [] := by
  simp [payload, other]

theorem outOfBand_data (content : Bytes) : outOfBand [(.data, content)] = [] := by
  simp [outOfBand]

theorem outOfBand_other {code : MessageCode} (content : Bytes) (other : code ≠ .data) :
    outOfBand [(code, content)] = [(code, content)] := by
  simp [outOfBand, other]

theorem send_bytes {code : MessageCode} {content : Bytes}
    (fine : (code.send content).refusal = none) :
    ∃ header : MessageHeader, header.code = code ∧ header.length = content.length ∧
      (code.send content).bytes = header.encode ++ content := by
  unfold MessageCode.send MessageHeader.make at fine ⊢
  by_cases fits : content.length < MessageHeader.lengthBound
  · exact ⟨⟨code, content.length, fits⟩, rfl, rfl, by simp [fits, Emission.bytes]⟩
  · simp [fits, Emission.refuse] at fine

/-- A word holds the tag and the length of any header. -/
theorem word_lt_capacity (header : MessageHeader) :
    header.word < LittleEndian.capacity MessageHeader.width := by
  have code : header.code.number ≤ 42 := by
    cases header.code <;> decide
  have fits := header.length_lt
  have room : LittleEndian.capacity MessageHeader.width = 0x100000000 := by decide
  unfold MessageHeader.word MessageHeader.tagBase MessageHeader.lengthBound at *
  omega

/-- A header is decoded whatever comes after it. -/
theorem decode_encode_append (header : MessageHeader) (rest : Bytes) :
    MessageHeader.decode (header.encode ++ rest) = .ok header := by
  have width : header.encode.length = MessageHeader.width := LittleEndian.length_encode _ _
  have enough : ¬ (header.encode ++ rest).length < MessageHeader.width := by
    rw [List.length_append]
    omega
  unfold MessageHeader.decode
  rw [if_neg enough, List.take_left' width]
  unfold MessageHeader.encode
  rw [LittleEndian.decode_encode, Nat.mod_eq_of_lt (word_lt_capacity header)]
  exact MessageHeader.ofWord_word header

theorem decode_encode (header : MessageHeader) : MessageHeader.decode header.encode = .ok header := by
  simpa using decode_encode_append header []

end Framing

namespace Handler

variable {handler : Handler}

/-- A handler after it was given messages, one after the other. -/
def hearAll (handler : Handler) (messages : List SentMessage) : Handler :=
  messages.foldl (fun handler message => handler.hear message.1 message.2) handler

theorem hearAll_append (handler : Handler) (earlier later : List SentMessage) :
    handler.hearAll (earlier ++ later) = (handler.hearAll earlier).hearAll later :=
  List.foldl_append

/-- Whether a handler refuses nothing, whatever it is given. -/
structure Accepting (handler : Handler) : Prop where
  now : ∀ code payload, handler.refuses code payload = none
  later : ∀ heard code payload, handler.later heard code payload = none

namespace Accepting

theorem hear (accepting : handler.Accepting) (code : MessageCode) (payload : Bytes) :
    (handler.hear code payload).Accepting where
  now := accepting.later _
  later _ := accepting.later _

theorem hearAll (accepting : handler.Accepting) (messages : List SentMessage) :
    (handler.hearAll messages).Accepting := by
  induction messages generalizing handler with
  | nil => exact accepting
  | cons message rest ih => exact ih (accepting.hear message.1 message.2)

/-- One that accepts everything takes all it is given. -/
theorem taken_hearAll (accepting : handler.Accepting) (messages : List SentMessage) :
    (handler.hearAll messages).taken = handler.taken ++ messages := by
  induction messages generalizing handler with
  | nil => exact (List.append_nil _).symm
  | cons message rest ih =>
      have first : (handler.hear message.1 message.2).taken = handler.taken ++ [message] := by
        unfold Handler.hear
        rw [accepting.now]
      exact (ih (accepting.hear message.1 message.2)).trans (by rw [first, List.append_assoc]; rfl)

end Accepting

end Handler

namespace Inflow

variable {σ : Type}

/-- What hearing of messages does: a handler takes them in order, and without one they go to
the journal. -/
def Hears (before after : Inflow σ) (messages : List SentMessage) : Prop :=
  match before.handler with
  | none =>
      after.handler = none ∧
        after.journal = messages.foldl (fun journal message => journal.route message.1 message.2)
          before.journal
  | some handler =>
      after.handler = some (handler.hearAll messages) ∧
        (handler.hearAll messages).taken = handler.taken ++ messages ∧
        after.journal = before.journal

/-- Whether a handler, if there is one, refuses nothing. -/
def Accepts (inflow : Inflow σ) : Prop :=
  ∀ handler, inflow.handler = some handler → handler.Accepting

theorem Hears.nothing {before after : Inflow σ} (handler : after.handler = before.handler)
    (journal : after.journal = before.journal) : Hears before after [] := by
  unfold Hears
  split
  · next nothing => exact ⟨handler.trans nothing, journal⟩
  · next held => exact ⟨handler.trans held, (List.append_nil _).symm, journal⟩

theorem Hears.trans {first second third : Inflow σ} {earlier later : List SentMessage}
    (before : Hears first second earlier) (after : Hears second third later) :
    Hears first third (earlier ++ later) := by
  unfold Hears at before ⊢
  split at before
  · next nothing =>
    obtain ⟨handler, journal⟩ := before
    unfold Hears at after
    rw [handler] at after
    exact ⟨after.1, by rw [after.2, journal, List.foldl_append]⟩
  · next handler held =>
    obtain ⟨handler', taken, journal⟩ := before
    unfold Hears at after
    rw [handler'] at after
    obtain ⟨handler'', taken', journal'⟩ := after
    rw [Handler.hearAll_append]
    exact ⟨handler'', by rw [taken', taken, List.append_assoc], journal'.trans journal⟩

theorem Hears.accepts {before after : Inflow σ} {messages : List SentMessage}
    (hears : Hears before after messages) (accepts : before.Accepts) : after.Accepts := by
  intro handler held
  unfold Hears at hears
  split at hears
  · rw [hears.1] at held
    cases held
  · next earlier known =>
    rw [hears.1] at held
    cases held
    exact (accepts earlier known).hearAll messages

theorem Accepts.deliver {inflow : Inflow σ} (accepts : inflow.Accepts) (code : MessageCode)
    (content : Bytes) :
    ∃ after, Inflow.deliver code content inflow = .ok () after ∧
      Hears inflow after [(code, content)] ∧ after.source = inflow.source ∧
      after.multiplexed = inflow.multiplexed ∧ after.remaining = inflow.remaining := by
  unfold Inflow.deliver Hears
  cases held : inflow.handler with
  | none => exact ⟨_, rfl, ⟨rfl, rfl⟩, rfl, rfl, rfl⟩
  | some handler =>
      have accepting := accepts handler held
      dsimp only
      rw [accepting.now code content]
      exact ⟨_, rfl, ⟨rfl, accepting.taken_hearAll _, rfl⟩, rfl, rfl, rfl⟩

/-- What is done with a message once it has come off the wire. -/
def settle (message : SentMessage) : EStateM Fault (Inflow σ) Unit :=
  if message.1 = .data then modify fun inflow => { inflow with remaining := message.2.length }
  else deliver message.1 message.2

variable [ByteSource σ] {stands : σ → Bytes → Prop} {source : σ}

/-- A header comes together from pieces of any size. -/
theorem fillHeader_whole (serves : Serves stands) {filled bytes : Bytes}
    (room : filled.length ≤ MessageHeader.width)
    (enough : MessageHeader.width ≤ filled.length + bytes.length) (here : stands source bytes) :
    ∃ after,
      fillHeader filled source =
        .ok (some (filled ++ bytes.take (MessageHeader.width - filled.length))) after ∧
      stands after (bytes.drop (MessageHeader.width - filled.length)) := by
  -- by the reads: each piece goes over from what is to come to what is filled
  fun_induction fillHeader filled source generalizing bytes with
  | case1 filled source full =>
      have zero : MessageHeader.width - filled.length = 0 := by omega
      exact ⟨source, by simp [zero], by simpa [zero] using here⟩
  | case2 source after short ended =>
      have zero := serves.ended here (by omega) ended
      subst zero
      exact absurd enough short
  | case3 filled source short after ended _ =>
      have zero := serves.ended here (by omega) ended
      subst zero
      exact absurd enough short
  | case4 filled source short byte more after first ih =>
      obtain ⟨left, rfl, there, _⟩ := (serves.read here (by omega)).of_ok first
      have few : (byte :: more).length ≤ MessageHeader.width - filled.length :=
        ByteSource.read_length first
      have size : (filled ++ byte :: more).length = filled.length + (byte :: more).length :=
        List.length_append
      rw [List.length_append] at enough
      obtain ⟨last, done, stays⟩ := ih (by omega) (by omega) there
      have less : MessageHeader.width - (filled ++ byte :: more).length =
          MessageHeader.width - filled.length - (byte :: more).length := by omega
      refine ⟨last, ?_, ?_⟩
      · rw [done, List.take_append, List.take_of_length_le few, List.append_assoc, less]
      · rw [List.drop_append, List.drop_of_length_le few, List.nil_append, ← less]
        exact stays
  | case5 filled source short fault after failed again ih =>
      exact ih room enough ((serves.read here (by omega)).of_error failed).2
  | case6 filled source short fault after failed final =>
      exact absurd ((serves.read here (by omega)).of_error failed).1 final

theorem fillHeader_front (serves : Serves stands) {first rest : Bytes}
    (width : first.length = MessageHeader.width) (here : stands source (first ++ rest)) :
    ∃ after, fillHeader [] source = .ok (some first) after ∧ stands after rest := by
  have room : ([] : Bytes).length ≤ MessageHeader.width := Nat.zero_le _
  have enough : MessageHeader.width ≤ ([] : Bytes).length + (first ++ rest).length := by
    rw [List.length_append, width]
    omega
  obtain ⟨after, done, there⟩ := fillHeader_whole serves room enough here
  rw [List.length_nil, Nat.sub_zero, List.nil_append, List.take_left' width] at done
  rw [List.length_nil, Nat.sub_zero, List.drop_left' width] at there
  exact ⟨after, done, there⟩

theorem fillHeader_none (serves : Serves stands) (here : stands source []) :
    ∃ after, fillHeader [] source = .ok none after ∧ stands after [] := by
  generalize nothing : ([] : Bytes) = filled at here ⊢
  fun_induction fillHeader filled source with
  | case1 filled source full =>
      subst nothing
      exact absurd full (by decide)
  | case2 source after short ended =>
      obtain ⟨rest, whole, there, last⟩ := (serves.read here (by decide)).of_ok ended
      rw [last rfl] at there
      exact ⟨after, rfl, there⟩
  | case3 filled source short after ended some => exact absurd nothing.symm some
  | case4 filled source short byte more after first ih =>
      subst nothing
      obtain ⟨rest, whole, _, _⟩ := (serves.read here (by decide)).of_ok first
      cases whole
  | case5 filled source short fault after failed again ih =>
      subst nothing
      exact ih rfl ((serves.read here (by decide)).of_error failed).2
  | case6 filled source short fault after failed final =>
      subst nothing
      exact absurd ((serves.read here (by decide)).of_error failed).1 final

theorem nextMessage_ended {inflow : Inflow σ} (filled : fillHeader [] inflow.source = .ok none source) :
    nextMessage inflow = .ok false { inflow with source } := by
  unfold nextMessage
  rw [filled]

theorem nextMessage_data {inflow : Inflow σ} {bytes : Bytes} {header : MessageHeader}
    (filled : fillHeader [] inflow.source = .ok (some bytes) source)
    (decoded : MessageHeader.decode bytes = .ok header) (data : header.code = .data) :
    nextMessage inflow = .ok true { inflow with source, remaining := header.length } := by
  unfold nextMessage
  rw [filled]
  dsimp only
  rw [decoded]
  dsimp only
  rw [if_pos data]

theorem nextMessage_heard {inflow : Inflow σ} {bytes content : Bytes} {header : MessageHeader}
    {later : σ} (filled : fillHeader [] inflow.source = .ok (some bytes) source)
    (decoded : MessageHeader.decode bytes = .ok header) (other : header.code ≠ .data)
    (body : readExact header.length source = .ok content later) :
    Inflow.nextMessage inflow =
      (do deliver header.code content; pure true : EStateM Fault (Inflow σ) Bool)
        { inflow with source := later } := by
  unfold Inflow.nextMessage
  rw [filled]
  dsimp only
  rw [decoded]
  dsimp only
  rw [if_neg other, body]
  dsimp only
  cases delivered : deliver header.code content { inflow with source := later } with
  | ok _ after =>
      rw [bind_ok delivered]
      rfl
  | error fault after => rw [bind_error delivered]

theorem nextMessage_other {inflow after : Inflow σ} {bytes content : Bytes}
    {header : MessageHeader} {later : σ}
    (filled : fillHeader [] inflow.source = .ok (some bytes) source)
    (decoded : MessageHeader.decode bytes = .ok header) (other : header.code ≠ .data)
    (body : readExact header.length source = .ok content later)
    (delivered : deliver header.code content { inflow with source := later } = .ok () after) :
    nextMessage inflow = .ok true after := by
  rw [nextMessage_heard filled decoded other body, bind_ok delivered]
  rfl

/-- Whoever hears it, the next message comes off the wire, and then it is settled. -/
theorem nextMessage_front (serves : Serves stands) {more : Bytes} {message : SentMessage}
    {now : Inflow σ} (fine : (message.1.send message.2).refusal = none)
    (here : stands now.source ((message.1.send message.2).bytes ++ more)) :
    ∃ source, stands source (Framing.payload [message] ++ more) ∧
      ∀ handler, Inflow.nextMessage { now with handler } =
        (do settle message; pure true : EStateM Fault (Inflow σ) Bool)
          { now with source, handler } := by
  obtain ⟨code, content⟩ := message
  obtain ⟨header, rfl, size, bytes⟩ := Framing.send_bytes fine
  dsimp only at bytes
  have width : header.encode.length = MessageHeader.width := LittleEndian.length_encode _ _
  rw [bytes, List.append_assoc] at here
  obtain ⟨source, filled, there⟩ := fillHeader_front serves width here
  by_cases data : header.code = .data
  · rw [data, Framing.payload_data]
    refine ⟨source, there, fun handler => ?_⟩
    have filled' : fillHeader [] { now with handler }.source = .ok (some header.encode) source :=
      filled
    rw [nextMessage_data filled' (Framing.decode_encode header) data, size]
    rfl
  · rw [Framing.payload_other content data]
    obtain ⟨later, body, stays⟩ := serves.readExact_front size there
    refine ⟨later, stays, fun handler => ?_⟩
    have filled' : fillHeader [] { now with handler }.source = .ok (some header.encode) source :=
      filled
    rw [nextMessage_heard filled' (Framing.decode_encode header) data body]
    unfold settle
    rw [if_neg data]

/-- Where an inflow stands on the wire: of the data message in progress `current` is still to
come, and after it `messages`. -/
structure Awaits (inflow : Inflow σ) (current : Bytes) (messages : List SentMessage) : Prop where
  multiplexed : inflow.multiplexed = true
  remaining : inflow.remaining = current.length
  source : Carries inflow.source (current ++ Framing.wire messages)
  sendable : Framing.Sendable messages
  accepts : inflow.Accepts

/-- Where an inflow got to that awaited `current` and `messages`, after it gave `got`: it has
heard all it passed and awaits the rest. -/
def Yields (before : Inflow σ) (current : Bytes) (messages : List SentMessage) (got : Bytes)
    (after : Inflow σ) : Prop :=
  ∃ passed left rest, messages = passed ++ rest ∧
    current ++ Framing.payload passed = got ++ left ∧ Awaits after left rest ∧
    Hears before after (Framing.outOfBand passed)

/-- Whether no payload was to come, and all messages have been heard. -/
def Drained (before : Inflow σ) (current : Bytes) (messages : List SentMessage)
    (after : Inflow σ) : Prop :=
  current ++ Framing.payload messages = [] ∧ Hears before after (Framing.outOfBand messages)

section

open Framing

variable {inflow between after : Inflow σ} {current : Bytes} {message : SentMessage}
  {messages : List SentMessage} {got : Bytes}

theorem Awaits.yields (awaits : Awaits after current messages) (heard : Hears inflow after []) :
    Yields inflow current messages [] after :=
  ⟨[], current, messages, rfl, List.append_nil _, awaits, heard⟩

theorem Yields.trans {passed rest : List SentMessage} {left more : Bytes}
    (whole : messages = passed ++ rest) (pieces : current ++ payload passed = got ++ left)
    (heard : Hears inflow between (outOfBand passed)) (yields : Yields between left rest more after) :
    Yields inflow current messages (got ++ more) after := by
  obtain ⟨passed', left', rest', rfl, pieces', awaits, hears⟩ := yields
  refine ⟨passed ++ passed', left', rest', ?_, ?_, awaits, ?_⟩
  · rw [whole, List.append_assoc]
  · rw [payload_append, ← List.append_assoc, pieces, List.append_assoc, pieces', List.append_assoc]
  · rw [outOfBand_append]
    exact heard.trans hears

theorem Yields.past (heard : Hears inflow between (outOfBand [message]))
    (yields : Yields between (payload [message]) messages got after) :
    Yields inflow [] (message :: messages) got after := by
  obtain ⟨passed, left, rest, rfl, pieces, awaits, hears⟩ := yields
  refine ⟨message :: passed, left, rest, rfl, ?_, awaits, ?_⟩
  · rw [List.nil_append, payload_cons, pieces]
  · rw [outOfBand_cons]
    exact heard.trans hears

omit [ByteSource σ] in
theorem Drained.past (heard : Hears inflow between (outOfBand [message]))
    (drained : Drained between (payload [message]) messages after) :
    Drained inflow [] (message :: messages) after := by
  constructor
  · rw [List.nil_append, payload_cons, drained.1]
  · rw [outOfBand_cons]
    exact heard.trans drained.2

end

namespace Awaits

open Framing

variable {inflow : Inflow σ} {current : Bytes} {messages : List SentMessage} {limit : Nat}

theorem ended (awaits : Awaits inflow [] []) :
    ∃ after, nextMessage inflow = .ok false after ∧ Awaits after [] [] ∧ Hears inflow after [] := by
  obtain ⟨source, done, there⟩ := fillHeader_none Carries.serves awaits.source
  exact ⟨_, nextMessage_ended done, ⟨awaits.multiplexed, awaits.remaining, there,
    awaits.sendable, awaits.accepts⟩, .nothing rfl rfl⟩

/-- One message is dealt with: a data message is what comes next, any other is heard. -/
theorem next {message : SentMessage} {rest : List SentMessage}
    (awaits : Awaits inflow [] (message :: rest)) :
    ∃ after, nextMessage inflow = .ok true after ∧ Awaits after (payload [message]) rest ∧
      Hears inflow after (outOfBand [message]) := by
  have sendable : Sendable rest := fun other listed =>
    awaits.sendable other (List.mem_cons_of_mem _ listed)
  have here : Carries inflow.source ((message.1.send message.2).bytes ++ wire rest) := by
    have whole := awaits.source
    rwa [List.nil_append, wire_cons] at whole
  obtain ⟨source, there, ran⟩ :=
    nextMessage_front Carries.serves (awaits.sendable _ List.mem_cons_self) here
  have dealt : nextMessage inflow = _ := ran inflow.handler
  obtain ⟨code, content⟩ := message
  by_cases data : code = .data
  · subst data
    rw [payload_data] at there
    rw [payload_data, outOfBand_data]
    exact ⟨_, dealt, ⟨awaits.multiplexed, rfl, there, sendable, awaits.accepts⟩, .nothing rfl rfl⟩
  · rw [payload_other content data] at there
    rw [payload_other content data, outOfBand_other content data]
    have accepts : Accepts { inflow with source } := awaits.accepts
    obtain ⟨after, delivered, heard, same, multiplexed, remaining⟩ := accepts.deliver code content
    have zero : after.remaining = 0 := remaining.trans awaits.remaining
    rw [settle, if_neg data, bind_ok delivered] at dealt
    exact ⟨after, dealt, ⟨multiplexed.trans awaits.multiplexed, zero, same ▸ there, sendable,
      heard.accepts accepts⟩, heard⟩

theorem nextMessage (awaits : Awaits inflow [] messages) :
    Meets Inflow.nextMessage inflow
      (fun more after => match more with
        | true => ∃ message rest, messages = message :: rest ∧
            Awaits after (payload [message]) rest ∧ Hears inflow after (outOfBand [message])
        | false => messages = [] ∧ Awaits after [] [] ∧ Hears inflow after [])
      (fun _ _ => False) := by
  unfold Meets
  cases messages with
  | nil =>
      obtain ⟨after, done, awaits', heard⟩ := awaits.ended
      rw [done]
      exact ⟨rfl, awaits', heard⟩
  | cons message rest =>
      obtain ⟨after, done, awaits', heard⟩ := awaits.next
      rw [done]
      exact ⟨message, rest, rfl, awaits', heard⟩

theorem between (awaits : Awaits inflow current messages) (zero : inflow.remaining = 0) :
    current = [] :=
  List.eq_nil_of_length_eq_zero (awaits.remaining.symm.trans zero)

omit [ByteSource σ] in
theorem some_wanted (positive : 0 < limit) (within : ¬ inflow.remaining = 0) :
    0 < min limit inflow.remaining :=
  Nat.lt_min.mpr ⟨positive, Nat.pos_of_ne_zero within⟩

/-- A read brings a piece of the payload that is to come, and none only where none is left. -/
theorem read (awaits : Awaits inflow current messages) (positive : 0 < limit) :
    Meets (Inflow.read limit) inflow
      (fun got after => Yields inflow current messages got after ∧
        (got = [] → Drained inflow current messages after))
      (fun fault after => fault.isInterrupted = true ∧ Yields inflow current messages [] after) := by
  unfold Meets
  -- by the messages passed: what one carries is what comes next
  fun_induction Inflow.read limit inflow generalizing current messages with
  | case1 inflow plain | case2 inflow plain =>
      exact absurd awaits.multiplexed (by simp [plain])
  | case3 inflow plain nothing => exact absurd nothing (Nat.ne_of_gt positive)
  | case4 inflow plain some between after advanced ih =>
      obtain rfl := awaits.between between
      obtain ⟨message, rest, rfl, awaits', heard⟩ := awaits.nextMessage.of_ok advanced
      have later : Meets (Inflow.read limit) after _ _ := ih awaits'
      refine later.mono ?_ ?_
      · intro got final met
        exact ⟨met.1.past heard, fun nothing => (met.2 nothing).past heard⟩
      · intro fault final met
        exact ⟨met.1, met.2.past heard⟩
  | case5 inflow plain some between after stopped =>
      obtain rfl := awaits.between between
      obtain ⟨rfl, awaits', heard⟩ := awaits.nextMessage.of_ok stopped
      exact ⟨awaits'.yields heard, fun _ => ⟨rfl, heard⟩⟩
  | case6 inflow plain some between fault after failed =>
      obtain rfl := awaits.between between
      exact (awaits.nextMessage.of_error failed).elim
  | case7 inflow plain some within source ended =>
      have nothing := Carries.serves.ended awaits.source (some_wanted positive within) ended
      have empty := (List.append_eq_nil_iff.mp nothing).1
      exact absurd (awaits.remaining.trans (congrArg List.length empty)) within
  | case8 inflow plain some within byte more source first =>
      obtain ⟨rest, whole, there, _⟩ :=
        (Carries.serves.read awaits.source (some_wanted positive within)).of_ok first
      have short := ByteSource.read_length first
      rw [awaits.remaining] at short
      obtain ⟨left, rfl, rfl⟩ := piece_of_front whole (by omega)
      have count : inflow.remaining - (byte :: more).length = left.length := by
        rw [awaits.remaining, List.length_append, Nat.add_sub_cancel_left]
      exact ⟨⟨[], left, messages, rfl, List.append_nil _,
        ⟨awaits.multiplexed, count, there, awaits.sendable, awaits.accepts⟩,
        .nothing rfl rfl⟩, fun nothing => by cases nothing⟩
  | case9 inflow plain some within fault source first =>
      obtain ⟨interrupted, there⟩ :=
        (Carries.serves.read awaits.source (some_wanted positive within)).of_error first
      have awaits' : Awaits { inflow with source } current messages :=
        ⟨awaits.multiplexed, awaits.remaining, there, awaits.sendable, awaits.accepts⟩
      exact ⟨interrupted, awaits'.yields (.nothing rfl rfl)⟩

/-- Flushing deals with one message at most, and fails only where the stream ended. -/
theorem flush (awaits : Awaits inflow current messages) :
    Meets Inflow.flush inflow (fun _ after => Yields inflow current messages [] after)
      (fun fault after => fault = .closedBetweenMessages ∧
        Yields inflow current messages [] after ∧ Drained inflow current messages after) := by
  unfold Meets Inflow.flush
  by_cases within : inflow.multiplexed = false ∨ 0 < inflow.remaining
  · rw [if_pos within]
    exact awaits.yields (.nothing rfl rfl)
  · rw [if_neg within]
    obtain rfl := awaits.between (by omega)
    have dealt := awaits.nextMessage
    unfold Meets at dealt
    cases done : Inflow.nextMessage inflow with
    | ok more after =>
        rw [done] at dealt
        cases more with
        | true =>
            obtain ⟨message, rest, rfl, awaits', heard⟩ := dealt
            exact (awaits'.yields (.nothing rfl rfl)).past heard
        | false =>
            obtain ⟨rfl, awaits', heard⟩ := dealt
            exact ⟨rfl, awaits'.yields heard, rfl, heard⟩
    | error fault after =>
        rw [done] at dealt
        exact dealt.elim

end Awaits

end Inflow

end TreeSync

import TreeSync.Proofs.Message.Bounded
import TreeSync.Proofs.Message.Mirrored
import TreeSync.Proofs.Message.Truncation

namespace TreeSync

/-! How far an inflow has got on the wire.

Whatever is called, into buffers of whatever sizes, and however the calls end: of its source an
inflow has taken the messages it is through with and, of a data message in progress, the header
and what it has handed out. So no byte that a caller could wait for on the connection waits in
here, and a message that a handler refused is over and done with like any other.
-/

open TreeSync.Action ByteSource

namespace Framing

/-- How many bytes of a message are taken before any payload of it is handed out: the header,
and what is out of band. -/
def opening (message : SentMessage) : Nat :=
  MessageHeader.width + if message.1 = .data then 0 else message.2.length

/-- What has become of `messages` when `given` was handed out and `taken` bytes of the wire were
taken: `left` is still to come of the data message in progress, and after it `rest`. -/
inductive Tally (messages : List SentMessage) :
    (given left : Bytes) → (rest : List SentMessage) → (taken : Nat) → Prop
  | between {passed rest : List SentMessage} (split : messages = passed ++ rest) :
      Tally messages (payload passed) [] rest (wire passed).length
  | within {passed rest : List SentMessage} {returned left : Bytes}
      (split : messages = passed ++ (.data, returned ++ left) :: rest) (more : left ≠ []) :
      Tally messages (payload passed ++ returned) left rest
        ((wire passed).length + MessageHeader.width + returned.length)

theorem wire_append (first second : List SentMessage) :
    wire (first ++ second) = wire first ++ wire second :=
  List.flatMap_append

namespace Tally

variable {messages rest : List SentMessage} {message : SentMessage} {given got left : Bytes}
  {taken : Nat}

theorem start (messages : List SentMessage) : Tally messages [] [] messages 0 :=
  @between messages [] messages rfl

theorem sendable (tally : Tally messages given left rest taken) (sendable : Sendable messages) :
    Sendable rest := by
  cases tally with
  | between split | within split =>
      refine fun message listed => sendable message ?_
      simp [split, listed]

/-- What is not taken is the rest of the message in progress and then the other messages. -/
theorem untaken (tally : Tally messages given left rest taken) (sendable : Sendable messages) :
    (wire messages).drop taken = left ++ wire rest := by
  cases tally with
  | between split => rw [split, wire_append, List.drop_left, List.nil_append]
  | @within passed rest returned left split =>
      have fine : (MessageCode.send .data (returned ++ left)).refusal = none :=
        sendable (.data, returned ++ left) (by simp [split])
      obtain ⟨header, -, -, bytes⟩ := send_bytes fine
      have width : header.encode.length = MessageHeader.width := LittleEndian.length_encode _ _
      have whole : wire messages =
          (wire passed ++ header.encode ++ returned) ++ (left ++ wire rest) := by
        rw [split, wire_append, wire_cons, bytes]
        simp only [List.append_assoc]
      rw [whole, List.drop_left']
      simp only [List.length_append, width]

/-- Once a message is dealt with, its header and what is out of band are taken. -/
theorem next (tally : Tally messages given [] (message :: rest) taken)
    (sendable : Sendable messages) :
    Tally messages given (payload [message]) rest (taken + opening message) := by
  obtain ⟨code, content⟩ := message
  have size := send_length (tally.sendable sendable).head
  generalize empty : ([] : Bytes) = left at tally
  cases tally with
  | within split more => exact absurd empty.symm more
  | @between passed rest split =>
      have after : messages = (passed ++ [(code, content)]) ++ rest := by simp [split]
      have wired : (wire (passed ++ [(code, content)])).length =
          (wire passed).length + (MessageHeader.width + content.length) := by
        rw [wire_append, List.length_append, ← size]
        simp [wire]
      have whole := Tally.between after
      rw [payload_append, wired] at whole
      unfold opening
      by_cases data : code = .data
      · subst data
        rw [payload_data] at whole ⊢
        by_cases more : content = []
        · subst more
          simpa using whole
        · have begun := Tally.within (show messages = passed ++ (.data, [] ++ content) :: rest
            from split) more
          simpa using begun
      · rw [payload_other content data] at whole ⊢
        simpa [data] using whole

/-- What is handed out has been taken. -/
theorem gives (tally : Tally messages given (got ++ left) rest taken)
    (sendable : Sendable messages) :
    Tally messages (given ++ got) left rest (taken + got.length) := by
  generalize coming : got ++ left = current at tally
  cases tally with
  | between split =>
      obtain ⟨rfl, rfl⟩ := List.append_eq_nil_iff.mp coming
      simpa using Tally.between split
  | @within passed rest returned current split more =>
      subst coming
      have split' : messages = passed ++ (.data, (returned ++ got) ++ left) :: rest := by
        rw [split, List.append_assoc]
      by_cases last : left = []
      · subst last
        rw [List.append_nil] at split'
        have after : messages = (passed ++ [(.data, returned ++ got)]) ++ rest := by simp [split']
        have fine : (MessageCode.send .data (returned ++ got)).refusal = none :=
          sendable (.data, returned ++ got) (by simp [split'])
        have size : (MessageCode.send .data (returned ++ got)).bytes.length =
            MessageHeader.width + (returned ++ got).length := by
          obtain ⟨header, -, -, bytes⟩ := send_bytes fine
          rw [bytes, List.length_append, MessageHeader.encode, LittleEndian.length_encode]
        have whole := Tally.between after
        rw [payload_append, payload_data, wire_append, List.length_append] at whole
        simpa [wire, size, Nat.add_assoc] using whole
      · have further := Tally.within split' last
        simpa [Nat.add_assoc] using further

end Tally

end Framing

namespace Handler

variable {now there : Handler}

/-- How a handler will answer to whatever it is given. -/
def mind (handler : Handler) : (MessageCode → Bytes → Option Fault) ×
    (List SentMessage → MessageCode → Bytes → Option Fault) :=
  (handler.refuses, handler.later)

theorem refuses_of_mind (same : now.mind = there.mind) : now.refuses = there.refuses :=
  congrArg Prod.fst same

theorem mind_hear (same : now.mind = there.mind) (code : MessageCode) (payload : Bytes) :
    (now.hear code payload).mind = (there.hear code payload).mind := by
  have later : now.later = there.later := congrArg Prod.snd same
  simp only [mind, hear, later]

/-- Whether a handler refuses none of the messages when it is given one after the other. -/
def Lets (handler : Handler) : List SentMessage → Prop
  | [] => True
  | message :: rest =>
      handler.refuses message.1 message.2 = none ∧ (handler.hear message.1 message.2).Lets rest

theorem lets_append (handler : Handler) (earlier later : List SentMessage) :
    handler.Lets (earlier ++ later) ↔
      handler.Lets earlier ∧ (handler.hearAll earlier).Lets later := by
  induction earlier generalizing handler with
  | nil => exact (and_iff_right trivial).symm
  | cons message rest ih =>
      have later' := ih (handler.hear message.1 message.2)
      exact (and_congr_right fun _ => later').trans and_assoc.symm

end Handler

namespace Inflow

open Framing

variable {σ : Type}

/-- Where an inflow stands on the wire of `messages`. -/
structure Aligned (stands : σ → Bytes → Prop) (messages : List SentMessage) (given left : Bytes)
    (rest : List SentMessage) (taken : Nat) (now : Inflow σ) : Prop where
  tally : Tally messages given left rest taken
  multiplexed : now.multiplexed = true
  remaining : now.remaining = left.length
  source : stands now.source ((wire messages).drop taken)

/-- Whether an inflow that handed out `given` stands somewhere on the wire of `messages`. -/
def OnCourse (stands : σ → Bytes → Prop) (messages : List SentMessage) (given : Bytes)
    (now : Inflow σ) : Prop :=
  ∃ left rest taken, Aligned stands messages given left rest taken now

/-- Two inflows that go on alike: they differ at most in what their handlers took so far. -/
structure Akin (now there : Inflow σ) : Prop where
  source : now.source = there.source
  multiplexed : now.multiplexed = there.multiplexed
  remaining : now.remaining = there.remaining
  mind : now.handler.map Handler.mind = there.handler.map Handler.mind

/-- What has become of a handler, if there is one, once the messages have been dealt with. -/
def hearing (handler : Option Handler) (messages : List SentMessage) : Option Handler :=
  handler.map fun known => known.hearAll (outOfBand messages)

def Refuses (handler : Option Handler) (message : SentMessage) (fault : Fault) : Prop :=
  ∃ known, handler = some known ∧ known.refuses message.1 message.2 = some fault

/-- Whether a handler, if there is one, refuses nothing that it hears of the messages. -/
def Lets (handler : Option Handler) (messages : List SentMessage) : Prop :=
  ∀ known, handler = some known → known.Lets (outOfBand messages)

theorem hearing_cons (handler : Option Handler) (message : SentMessage)
    (messages : List SentMessage) :
    hearing handler (message :: messages) = hearing (hearing handler [message]) messages := by
  unfold hearing
  rw [Option.map_map, outOfBand_cons]
  congr 1
  funext known
  exact known.hearAll_append _ _

@[simp] theorem hearing_nil (handler : Option Handler) : hearing handler [] = handler := by
  cases handler <;> rfl

theorem hearing_data (handler : Option Handler) (content : Bytes) :
    hearing handler [(.data, content)] = handler := by
  cases handler <;> rfl

theorem hearing_other {code : MessageCode} (known : Handler) (content : Bytes)
    (other : code ≠ .data) : hearing (some known) [(code, content)] = known.hear code content := by
  unfold hearing
  rw [outOfBand_other content other]
  rfl

theorem Lets.head {handler : Option Handler} {message : SentMessage} {messages : List SentMessage}
    (lets : Lets handler (message :: messages)) : Lets handler [message] := by
  intro known held
  have whole := lets known held
  rw [outOfBand_cons, Handler.lets_append] at whole
  exact whole.1

theorem Lets.tail {handler : Option Handler} {message : SentMessage} {messages : List SentMessage}
    (lets : Lets handler (message :: messages)) : Lets (hearing handler [message]) messages := by
  intro later held
  obtain ⟨known, held', rfl⟩ := Option.map_eq_some_iff.mp held
  have whole := lets known held'
  rw [outOfBand_cons, Handler.lets_append] at whole
  exact whole.2

namespace Akin

variable {first second third now there : Inflow σ}

theorem symm (akin : Akin now there) : Akin there now :=
  ⟨akin.source.symm, akin.multiplexed.symm, akin.remaining.symm, akin.mind.symm⟩

theorem trans (earlier : Akin first second) (later : Akin second third) : Akin first third where
  source := earlier.source.trans later.source
  multiplexed := earlier.multiplexed.trans later.multiplexed
  remaining := earlier.remaining.trans later.remaining
  mind := earlier.mind.trans later.mind

theorem deliver_mirrors (code : MessageCode) (content : Bytes) :
    Mirrors Akin (deliver code content : EStateM Fault (Inflow σ) Unit) (deliver code content) := by
  intro now there akin
  have mind := akin.mind
  unfold deliver
  cases held : now.handler with
  | none =>
      rw [held] at mind
      rw [Option.map_eq_none_iff.mp mind.symm]
      exact .ok () { akin with mind := by simp }
  | some handler =>
      rw [held] at mind
      obtain ⟨handler', held', same⟩ := Option.map_eq_some_iff.mp mind.symm
      rw [held']
      dsimp only
      rw [Handler.refuses_of_mind same]
      have alike : (some (handler.hear code content)).map Handler.mind =
          (some (handler'.hear code content)).map Handler.mind :=
        congrArg some (Handler.mind_hear same.symm code content)
      cases handler.refuses code content with
      | none => exact .ok () { akin with mind := alike }
      | some fault => exact .error fault { akin with mind := alike }

theorem overlooks : Overlooks (Akin (σ := σ)) where
  same := by
    rintro ⟨source, multiplexed, remaining, handler, journal⟩ ⟨_, _, _, handler', journal'⟩ akin
    obtain ⟨rfl, rfl, rfl, -⟩ := akin
    exact ⟨handler', journal', rfl⟩
  moves akin source remaining := { akin with source := rfl, remaining := rfl }
  delivers := deliver_mirrors

end Akin

/-- What a caller can ask of an inflow. -/
inductive Call where
  | read (limit : Nat)
  | flush
  | handle (handler : Option Handler)

/-- Whether it refuses a message or not, a handler has heard it when it is settled. -/
theorem settle_meets (message : SentMessage) (now : Inflow σ) (between : now.remaining = 0) :
    Meets (settle message) now
      (fun _ after => after.source = now.source ∧ after.multiplexed = now.multiplexed ∧
        after.remaining = (payload [message]).length ∧
        after.handler = hearing now.handler [message])
      (fun fault after => Refuses now.handler message fault ∧ payload [message] = [] ∧
        after = { now with handler := hearing now.handler [message] }) := by
  obtain ⟨code, content⟩ := message
  unfold settle
  refine .cond (fun data => ?_) fun other => ?_
  · obtain rfl : code = .data := data
    exact .change ⟨rfl, rfl, by rw [payload_data], (hearing_data _ _).symm⟩
  · rw [payload_other content other]
    unfold Meets deliver
    cases held : now.handler with
    | none => exact ⟨rfl, rfl, between, rfl⟩
    | some handler =>
        rw [hearing_other handler content other]
        dsimp only
        cases refused : handler.refuses code content with
        | none => exact ⟨rfl, rfl, between, rfl⟩
        | some fault => exact ⟨⟨handler, rfl, refused⟩, rfl, rfl⟩

/-- A message that nobody objects to is settled. -/
theorem settle_lets {message : SentMessage} (now : Inflow σ) (lets : Lets now.handler [message]) :
    ∃ after, settle message now = .ok () after := by
  obtain ⟨code, content⟩ := message
  unfold settle
  by_cases data : code = .data
  · rw [if_pos data]
    exact ⟨_, rfl⟩
  · rw [if_neg data]
    unfold deliver
    cases held : now.handler with
    | none => exact ⟨_, rfl⟩
    | some handler =>
        have fine : handler.Lets [(code, content)] := by
          simpa only [outOfBand_other content data] using lets handler held
        dsimp only
        rw [fine.1]
        exact ⟨_, rfl⟩

variable [ByteSource σ]

/-- What a call answers, with no bytes for one that is not a read. -/
def Call.answer : Call → EStateM Fault (Inflow σ) Bytes
  | .read limit => Inflow.read limit
  | .flush => do
      Inflow.flush
      pure []
  | .handle handler => fun inflow => .ok [] { inflow with handler }

/-- The answers to one call after the other, whether one fails or not. -/
def run : List Call → Inflow σ → List (Except Fault Bytes) × Inflow σ
  | [], now => ([], now)
  | call :: later, now =>
      match call.answer now with
      | .ok got after => (.ok got :: (run later after).1, (run later after).2)
      | .error fault after => (.error fault :: (run later after).1, (run later after).2)

/-- What was handed out in all. -/
def handedOut (answers : List (Except Fault Bytes)) : Bytes :=
  answers.flatMap fun
    | .ok got => got
    | .error _ => []

theorem Call.answer_mirrors (call : Call) :
    Mirrors Akin (call.answer : EStateM Fault (Inflow σ) Bytes) call.answer := by
  cases call with
  | read limit => exact Akin.overlooks.read limit
  | flush => exact .bind Akin.overlooks.flush fun _ => .pure []
  | handle handler => exact fun _ _ akin => .ok [] { akin with mind := rfl }

/-- What was heard so far makes no difference to later answers. -/
theorem run_akin (calls : List Call) {now there : Inflow σ} (akin : Akin now there) :
    (run calls now).1 = (run calls there).1 := by
  induction calls generalizing now there with
  | nil => rfl
  | cons call later ih =>
      obtain ⟨got, _, _, ran, ran', still⟩ | ⟨fault, _, _, ran, ran', still⟩ :=
        (call.answer_mirrors now there akin).split <;> simp only [run, ran, ran', ih still]

theorem run_matched {call : Call} (later : List Call) {now there : Inflow σ}
    (matched : Matched Akin (call.answer now) (call.answer there)) :
    (run (call :: later) now).1 = (run (call :: later) there).1 := by
  obtain ⟨got, _, _, ran, ran', akin⟩ | ⟨fault, _, _, ran, ran', akin⟩ := matched.split <;>
    simp only [run, ran, ran', run_akin later akin]

variable {stands : σ → Bytes → Prop} {messages rest : List SentMessage} {message : SentMessage}
  {given got left : Bytes} {taken limit : Nat} {now after : Inflow σ}

theorem Aligned.takes (serves : Serves stands) (sendable : Sendable messages)
    (aligned : Aligned stands messages given [] (message :: rest) taken now) :
    ∃ source, stands source ((wire messages).drop (taken + opening message)) ∧
      ∀ handler, Inflow.nextMessage { now with handler } =
        (do settle message; pure true : EStateM Fault (Inflow σ) Bool)
          { now with source, handler } := by
  have here := aligned.source
  rw [aligned.tally.untaken sendable, List.nil_append, wire_cons] at here
  rw [(aligned.tally.next sendable).untaken sendable]
  exact nextMessage_front serves (aligned.tally.sendable sendable).head here

/-- Whether `after` is as far as any handler that lets the next message pass would have got. -/
def Passes (message : SentMessage) (now after : Inflow σ) : Prop :=
  ∀ handler, Lets handler [message] →
    ∃ there, Inflow.nextMessage { now with handler } = .ok true there ∧
      Akin { after with handler := hearing handler [message] } there

namespace Aligned

/-- The next message is over and done with, whether the handler refuses it or not. -/
theorem next (serves : Serves stands) (sendable : Sendable messages)
    (aligned : Aligned stands messages given [] (message :: rest) taken now) :
    Meets Inflow.nextMessage now
      (fun more after => more = true ∧ after.handler = hearing now.handler [message] ∧
        Aligned stands messages given (payload [message]) rest (taken + opening message) after ∧
        Passes message now after)
      (fun fault after => Refuses now.handler message fault ∧ payload [message] = [] ∧
        Aligned stands messages given [] rest (taken + opening message) after ∧
        Passes message now after) := by
  obtain ⟨source, there, ran⟩ := aligned.takes serves sendable
  have tally := aligned.tally.next sendable
  have settled (handler : Option Handler) :=
    settle_meets message { now with source, handler } aligned.remaining
  have passes {after : Inflow σ} (source' : after.source = source)
      (multiplexed : after.multiplexed = now.multiplexed)
      (remaining : after.remaining = (payload [message]).length) :
      Passes message now after := by
    intro handler lets
    obtain ⟨there, done⟩ := settle_lets { now with source, handler } lets
    obtain ⟨sameSource, sameMode, sameRemaining, heard⟩ := (settled handler).of_ok done
    refine ⟨there, ?_, ?_⟩
    · rw [ran, bind_ok done]
      rfl
    · exact ⟨source'.trans sameSource.symm, multiplexed.trans sameMode.symm,
        remaining.trans sameRemaining.symm, congrArg (Option.map Handler.mind) heard.symm⟩
  refine Meets.congr (ran now.handler) ?_
  refine ((settled now.handler).followedBy ?_ ?_)
  · rintro fault after ⟨refuses, empty, rfl⟩
    rw [empty] at tally passes
    exact ⟨refuses, empty, ⟨tally, aligned.multiplexed, aligned.remaining, there⟩,
      passes rfl rfl aligned.remaining⟩
  · rintro _ after ⟨rfl, mode, remaining, heard⟩
    exact .pure ⟨rfl, heard, ⟨tally, mode.trans aligned.multiplexed, remaining, there⟩,
      passes rfl mode remaining⟩

theorem ended (serves : Serves stands) (sendable : Sendable messages)
    (aligned : Aligned stands messages given [] [] taken now) :
    ∃ after, Inflow.nextMessage now = .ok false after ∧
      Aligned stands messages given [] [] taken after := by
  have nothing := aligned.tally.untaken sendable
  have here := aligned.source
  rw [nothing] at here
  obtain ⟨source, done, there⟩ := fillHeader_none serves here
  refine ⟨_, nextMessage_ended done, { aligned with source := ?_ }⟩
  rw [nothing]
  exact there

omit [ByteSource σ] in
theorem between (aligned : Aligned stands messages given left rest taken now)
    (empty : now.remaining = 0) : left = [] :=
  List.eq_nil_of_length_eq_zero (aligned.remaining.symm.trans empty)

theorem nextMessage (serves : Serves stands) (sendable : Sendable messages)
    (aligned : Aligned stands messages given [] rest taken now) :
    Meets Inflow.nextMessage now
      (fun more after => match more with
        | true => ∃ message later, rest = message :: later ∧
            after.handler = hearing now.handler [message] ∧
            Aligned stands messages given (payload [message]) later (taken + opening message) after ∧
            Passes message now after
        | false => rest = [] ∧ Aligned stands messages given [] [] taken after)
      (fun fault after => ∃ message later, rest = message :: later ∧
        Refuses now.handler message fault ∧ payload [message] = [] ∧
        Aligned stands messages given [] later (taken + opening message) after ∧
        Passes message now after) := by
  cases rest with
  | nil =>
      obtain ⟨after, done, aligned'⟩ := aligned.ended serves sendable
      unfold Meets
      rw [done]
      exact ⟨rfl, aligned'⟩
  | cons message later =>
      refine (aligned.next serves sendable).mono ?_ ?_
      · rintro _ after ⟨rfl, met⟩
        exact ⟨message, later, rfl, met⟩
      · intro fault after met
        exact ⟨message, later, rfl, met⟩

end Aligned

/-- How a read ends that met a message the handler refused: it went past `passed` and that message,
and goes on from there as if it had not been refused. -/
structure Resumes (limit : Nat) (passed : List SentMessage) (refused : SentMessage) (fault : Fault)
    (now after : Inflow σ) : Prop where
  refuses : Refuses (hearing now.handler passed) refused fault
  onward : ∀ handler, Lets handler (passed ++ [refused]) →
    Matched Akin (Inflow.read limit { now with handler })
      (Inflow.read limit { after with handler := hearing handler (passed ++ [refused]) })

/-- A read hands out what comes next, and otherwise stays where it got to. -/
theorem Aligned.read (serves : Serves stands) (sendable : Sendable messages)
    (aligned : Aligned stands messages given left rest taken now) :
    Meets (Inflow.read limit) now
      (fun got after => OnCourse stands messages (given ++ got) after)
      (fun fault after =>
        fault.isInterrupted = true ∧ OnCourse stands messages given after ∨
        ∃ passed refused later taken', left = [] ∧ rest = passed ++ refused :: later ∧
          Aligned stands messages given [] later taken' after ∧
          Resumes limit passed refused fault now after) := by
  have untaken := aligned.tally.untaken sendable
  unfold Meets
  -- by the messages passed: the first of them is dealt with, and the rest of the read goes on
  fun_induction Inflow.read limit now generalizing left rest taken with
  | case1 now plain | case2 now plain => exact absurd aligned.multiplexed (by simp [plain])
  | case3 now plain unasked => exact ⟨left, rest, taken, by simpa using aligned⟩
  | case4 now plain asked between middle advanced ih =>
      obtain rfl := aligned.between between
      obtain ⟨message, later, rfl, heard, aligned', passes⟩ :=
        (aligned.nextMessage serves sendable).of_ok advanced
      have onward : Meets (Inflow.read limit) middle _ _ :=
        ih aligned' (aligned'.tally.untaken sendable)
      refine onward.mono (fun _ _ => id) ?_
      rintro fault after (interrupted | ⟨passed, refused, rest, taken', empty, rfl, last, resumes⟩)
      · exact .inl interrupted
      · refine .inr ⟨message :: passed, refused, rest, taken', rfl, rfl, last, ?_, ?_⟩
        · rw [hearing_cons, ← heard]
          exact resumes.refuses
        · intro handler lets
          obtain ⟨there, dealt, akin⟩ := passes handler lets.head
          have framed : { now with handler }.multiplexed = true := aligned.multiplexed
          rw [read_past framed asked between dealt, List.cons_append, hearing_cons]
          exact (Akin.overlooks.read limit _ _ akin.symm).trans (resumes.onward _ lets.tail)
            Akin.trans
  | case5 now plain asked between after stopped =>
      obtain rfl := aligned.between between
      obtain ⟨rfl, aligned'⟩ := (aligned.nextMessage serves sendable).of_ok stopped
      exact ⟨[], [], taken, by simpa using aligned'⟩
  | case6 now plain asked between fault after failed =>
      obtain rfl := aligned.between between
      obtain ⟨message, later, rfl, refuses, -, aligned', passes⟩ :=
        (aligned.nextMessage serves sendable).of_error failed
      refine .inr ⟨[], message, later, _, rfl, rfl, aligned', ?_, fun handler lets => ?_⟩
      · rwa [hearing_nil]
      obtain ⟨there, dealt, akin⟩ := passes handler lets
      have framed : { now with handler }.multiplexed = true := aligned.multiplexed
      rw [read_past framed asked between dealt]
      exact Akin.overlooks.read limit _ _ akin.symm
  | case7 now plain asked within source ended =>
      have wanted : 0 < min limit now.remaining := Nat.lt_min.mpr ⟨by omega, by omega⟩
      have nothing := serves.ended (untaken ▸ aligned.source) wanted ended
      have empty := (List.append_eq_nil_iff.mp nothing).1
      exact absurd (aligned.remaining.trans (congrArg List.length empty)) within
  | case8 now plain asked within byte more source first =>
      have wanted : 0 < min limit now.remaining := Nat.lt_min.mpr ⟨by omega, by omega⟩
      obtain ⟨coming, whole, there, _⟩ := (serves.read (untaken ▸ aligned.source) wanted).of_ok first
      have short := ByteSource.read_length first
      rw [aligned.remaining] at short
      obtain ⟨left, rfl, rfl⟩ := piece_of_front whole (by omega)
      have tally := aligned.tally.gives sendable
      refine ⟨left, rest, _, tally, aligned.multiplexed, ?_, ?_⟩
      · change now.remaining - (byte :: more).length = left.length
        rw [aligned.remaining, List.length_append, Nat.add_sub_cancel_left]
      · rw [tally.untaken sendable]
        exact there
  | case9 now plain asked within fault source first =>
      have wanted : 0 < min limit now.remaining := Nat.lt_min.mpr ⟨by omega, by omega⟩
      obtain ⟨interrupted, there⟩ := (serves.read aligned.source wanted).of_error first
      exact .inl ⟨interrupted, left, rest, taken, { aligned with source := there }⟩

namespace Aligned

theorem flush_within (aligned : Aligned stands messages given left rest taken now)
    (more : left ≠ []) : Inflow.flush now = .ok () now := by
  have within := List.length_pos_iff.mpr more
  rw [← aligned.remaining] at within
  unfold Inflow.flush
  rw [if_pos (.inr within)]

theorem flush_between (aligned : Aligned stands messages given [] rest taken now) :
    Inflow.flush now =
      match Inflow.nextMessage now with
      | .ok true after => .ok () after
      | .ok false after => .error .closedBetweenMessages after
      | .error fault after => .error fault after :=
  Inflow.flush_between aligned.multiplexed aligned.remaining

/-- Between two messages a flush deals with the next one, and with no more than that. -/
theorem flush_next (serves : Serves stands) (sendable : Sendable messages)
    (aligned : Aligned stands messages given [] (message :: rest) taken now) :
    Meets Inflow.flush now
      (fun _ after =>
        Aligned stands messages given (payload [message]) rest (taken + opening message) after)
      (fun fault after => Refuses now.handler message fault ∧
        Aligned stands messages given [] rest (taken + opening message) after ∧
        ∀ handler, Lets handler [message] → ∃ there,
          Inflow.flush { now with handler } = .ok () there ∧
            Akin { after with handler := hearing handler [message] } there) := by
  have dealt := aligned.next serves sendable
  refine Meets.intro ?_ ?_
  · intro _ after ran
    rw [aligned.flush_between] at ran
    split at ran
    · next between ran' =>
      cases ran
      exact (dealt.of_ok ran').2.2.1
    · cases ran
    · cases ran
  · intro fault after ran
    rw [aligned.flush_between] at ran
    split at ran
    · cases ran
    · next after' ran' => cases (dealt.of_ok ran').1
    · next ran' =>
      cases ran
      obtain ⟨refuses, -, aligned', passes⟩ := dealt.of_error ran'
      refine ⟨refuses, aligned', fun handler lets => ?_⟩
      obtain ⟨there, ran'', akin⟩ := passes handler lets
      refine ⟨there, ?_, akin⟩
      have lent : Aligned stands messages given [] (message :: rest) taken { now with handler } :=
        { aligned with }
      rw [lent.flush_between, ran'']

theorem flush (serves : Serves stands) (sendable : Sendable messages)
    (aligned : Aligned stands messages given left rest taken now) :
    Meets Inflow.flush now (fun _ after => OnCourse stands messages given after)
      (fun _ after => OnCourse stands messages given after) := by
  by_cases more : left = []
  · subst more
    cases rest with
    | nil =>
        obtain ⟨after, done, aligned'⟩ := aligned.ended serves sendable
        unfold Meets
        rw [aligned.flush_between, done]
        exact ⟨[], [], taken, aligned'⟩
    | cons message later =>
        refine (aligned.flush_next serves sendable).mono ?_ ?_
        · intro _ after met
          exact ⟨_, _, _, met⟩
        · intro fault after met
          exact ⟨_, _, _, met.2.1⟩
  · unfold Meets
    rw [aligned.flush_within more]
    exact ⟨left, rest, taken, aligned⟩

theorem answer (serves : Serves stands) (sendable : Sendable messages) (call : Call)
    (aligned : Aligned stands messages given left rest taken now) :
    Meets call.answer now (fun got after => OnCourse stands messages (given ++ got) after)
      (fun _ after => OnCourse stands messages given after) := by
  cases call with
  | read limit =>
      refine (aligned.read serves sendable).mono (fun _ _ => id) ?_
      rintro fault after (⟨-, course⟩ | ⟨_, _, later, taken', -, -, aligned', -⟩)
      · exact course
      · exact ⟨[], later, taken', aligned'⟩
  | flush =>
      refine (aligned.flush serves sendable).followedBy (fun _ _ => id) ?_
      intro _ after course
      exact .pure (by rwa [List.append_nil])
  | handle handler =>
      refine ⟨left, rest, taken, ?_⟩
      rw [List.append_nil]
      exact { aligned with }

end Aligned

/-- Whatever is called, an inflow stays on course. -/
theorem OnCourse.run (serves : Serves stands) (sendable : Sendable messages) (calls : List Call)
    (course : OnCourse stands messages given now) :
    OnCourse stands messages (given ++ handedOut (Inflow.run calls now).1)
      (Inflow.run calls now).2 := by
  induction calls generalizing given now with
  | nil => simpa [Inflow.run, handedOut] using course
  | cons call later ih =>
      obtain ⟨left, rest, taken, aligned⟩ := course
      have answered := aligned.answer serves sendable call
      unfold Inflow.run
      cases ran : call.answer now with
      | ok got after => simpa [handedOut] using ih (answered.of_ok ran)
      | error fault after => simpa [handedOut] using ih (answered.of_error ran)

/-- After any calls, refused or not, an inflow has taken the messages it is through with and, of
a data message in progress, the header and what was handed out. Next on the wire is the rest of
that message, and a flush leaves it there; between two messages a flush deals with exactly one. A
message that was refused is dealt with: whatever is called after it is answered as if a handler
had heard it and let it pass. -/
theorem run_aligned (serves : Serves stands) (sendable : Sendable messages) {start : Inflow σ}
    (multiplexed : start.multiplexed = true) (between : start.remaining = 0)
    (here : stands start.source (wire messages)) {calls : List Call}
    {answers : List (Except Fault Bytes)} (ran : run calls start = (answers, now)) :
    ∃ left rest taken,
      Aligned stands messages (handedOut answers) left rest taken now ∧
      (wire messages).drop taken = left ++ wire rest ∧
      (left ≠ [] → flush now = .ok () now) ∧
      (∀ message later, left = [] → rest = message :: later →
        Meets flush now
          (fun _ after => Aligned stands messages (handedOut answers) (payload [message]) later
            (taken + opening message) after)
          (fun fault after => Refuses now.handler message fault ∧
            Aligned stands messages (handedOut answers) [] later (taken + opening message) after ∧
            ∀ handler, Lets handler [message] → ∀ next,
              (run (.flush :: next) { now with handler }).1 =
                .ok [] :: (run next { after with handler := hearing handler [message] }).1)) ∧
      ∀ limit fault after, Inflow.read limit now = .error fault after →
        fault.isInterrupted = true ∨
        ∃ passed refused later taken', left = [] ∧ rest = passed ++ refused :: later ∧
          Refuses (hearing now.handler passed) refused fault ∧
          Aligned stands messages (handedOut answers) [] later taken' after ∧
          ∀ handler, Lets handler (passed ++ [refused]) → ∀ next,
            (run (.read limit :: next) { now with handler }).1 =
              (run (.read limit :: next)
                { after with handler := hearing handler (passed ++ [refused]) }).1 := by
  have begun : OnCourse stands messages [] start :=
    ⟨[], messages, 0, .start messages, multiplexed, between, here⟩
  have course := begun.run serves sendable calls
  rw [ran] at course
  obtain ⟨left, rest, taken, aligned⟩ := course
  refine ⟨left, rest, taken, aligned, aligned.tally.untaken sendable, aligned.flush_within, ?_, ?_⟩
  · rintro message later rfl rfl
    refine (aligned.flush_next serves sendable).mono (fun _ _ => id) ?_
    rintro fault after ⟨refuses, aligned', passes⟩
    refine ⟨refuses, aligned', fun handler lets next => ?_⟩
    obtain ⟨there, flushed, akin⟩ := passes handler lets
    have answered : Call.flush.answer { now with handler } = .ok [] there := bind_ok flushed
    simp only [run, answered, run_akin next akin]
  · intro limit fault after failed
    rcases (aligned.read serves sendable).of_error failed with
      ⟨interrupted, -⟩ | ⟨passed, refused, later, taken', rfl, rfl, aligned', resumes⟩
    · exact .inl interrupted
    · refine .inr ⟨passed, refused, later, taken', rfl, rfl, resumes.refuses, aligned', ?_⟩
      exact fun handler lets next => run_matched next (resumes.onward handler lets)

/-- A message for the journal, data, a failure of the peer and more data. -/
def mixedMessages : List SentMessage :=
  [(.info, [104, 105, 10]), (.data, [1, 2, 3]), (.error, [33]), (.data, [4, 5])]

def refusal : Fault :=
  .reported .other "peer failed"

/-- The handler will hear of no failure, and the bytes come in pieces. -/
def touchyStart : Inflow ScriptedSource where
  source := ⟨wire mixedMessages, [.atMost 3, .atMost 1, .atMost 2]⟩
  multiplexed := true
  handler := some { refuses := fun code _ => if code.isFailure then some refusal else none }

/-- The last read but one meets the failure. -/
def touchyCalls : List Call :=
  [.flush, .flush, .flush, .read 2, .read 9, .read 9, .read 1]

theorem run_aligned_touchy :
    (Sendable mixedMessages ∧ touchyStart.multiplexed = true ∧ touchyStart.remaining = 0 ∧
        touchyStart.source.Steady ∧ touchyStart.source.pending = wire mixedMessages) ∧
      ∃ answers now, run touchyCalls touchyStart = (answers, now) ∧
        answers.countP (fun answer => answer matches .error _) = 1 ∧
        handedOut answers = [1, 2, 3, 4] ∧ now.remaining = 1 ∧
        ∃ left rest taken, Aligned (fun source bytes => source.Steady ∧ source.pending = bytes)
            mixedMessages [1, 2, 3, 4] left rest taken now ∧
          (wire mixedMessages).drop taken = left ++ wire rest ∧
          (left ≠ [] → flush now = .ok () now) := by
  have sendable : Sendable mixedMessages := by
    unfold Sendable
    decide
  have steady : touchyStart.source.Steady := by
    intro planned listed
    have one : planned = .atMost 3 ∨ planned = .atMost 1 ∨ planned = .atMost 2 := by
      simpa [touchyStart] using listed
    obtain rfl | rfl | rfl := one <;> decide
  have met := run_aligned ScriptedSource.serves sendable (rfl : touchyStart.multiplexed = true) rfl
    ⟨steady, rfl⟩ (Prod.eta (run touchyCalls touchyStart)).symm
  have out : handedOut (run touchyCalls touchyStart).1 = [1, 2, 3, 4] := by decide +kernel
  rw [out] at met
  obtain ⟨left, rest, taken, aligned, untaken, within, -⟩ := met
  exact ⟨⟨sendable, rfl, rfl, steady, rfl⟩, _, _, rfl, by decide +kernel, out, by decide +kernel,
    left, rest, taken, aligned, untaken, within⟩

end Inflow

end TreeSync

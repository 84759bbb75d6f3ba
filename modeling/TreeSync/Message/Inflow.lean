import TreeSync.Stream.Source
import TreeSync.Stream.Sink
import TreeSync.Diagnostics.Journal

namespace TreeSync

/-! The inbound stream with message headers stripped.

Data payload is handed to the caller; every other message goes to a handler or,
without one, into the journal. Nothing is read ahead: of the message in progress
only the count of payload bytes still to come is kept, so a caller that waits on
the connection never misses bytes that wait in here.
-/

/-- A handler of out-of-band messages, with the ones it took. It may remember what it is given:
`refuses` says what it refuses as things stand, and `later` what it will once it was given more. -/
structure Handler where
  refuses : MessageCode → Bytes → Option Fault := fun _ _ => none
  later : List (MessageCode × Bytes) → MessageCode → Bytes → Option Fault := fun _ => refuses
  taken : List (MessageCode × Bytes) := []

/-- The handler after it was given a message, which it need not have taken. -/
def Handler.hear (handler : Handler) (code : MessageCode) (payload : Bytes) : Handler where
  refuses := handler.later [(code, payload)]
  later more := handler.later ((code, payload) :: more)
  taken :=
    match handler.refuses code payload with
    | some _ => handler.taken
    | none => handler.taken ++ [(code, payload)]

structure Inflow (σ : Type) where
  source : σ
  /-- Whether the stream is made of messages; a plain stream passes through. -/
  multiplexed : Bool := false
  /-- Payload bytes of the data message in progress that are still to come. -/
  remaining : Nat := 0
  handler : Option Handler := none
  journal : Journal := {}

/-- The text of a message: its payload without the line ends that close it. -/
def messageText (payload : Bytes) : String :=
  String.ofList ((Utf8.lossyChars payload).reverse.dropWhile (· = '\n')).reverse

def Journal.route (journal : Journal) (code : MessageCode) (payload : Bytes) : Journal :=
  match code with
  | .data | .noOp => journal
  | .ioError => journal.warn "peer reported an I/O error on its side"
  | .info | .log | .client => journal.info .misc 1 (messageText payload)
  | .errorXfer | .error | .warning | .errorSocket => journal.warn (messageText payload)

namespace Inflow

variable {σ : Type}

def deliver (code : MessageCode) (payload : Bytes) : EStateM Fault (Inflow σ) Unit := fun inflow =>
  match inflow.handler with
  | none => .ok () { inflow with journal := inflow.journal.route code payload }
  | some handler =>
      let after := { inflow with handler := some (handler.hear code payload) }
      match handler.refuses code payload with
      | some fault => .error fault after
      | none => .ok () after

theorem deliver_source {code : MessageCode} {payload : Bytes} {before after : Inflow σ}
    (done : deliver code payload before = .ok () after) : after.source = before.source := by
  unfold deliver at done
  split at done
  · cases done; rfl
  · dsimp only at done
    split at done
    · cases done
    · cases done; rfl

theorem deliver_fault {code : MessageCode} {payload : Bytes} {before after : Inflow σ}
    {fault : Fault} (failed : deliver code payload before = .error fault after) :
    after.source = before.source := by
  unfold deliver at failed
  split at failed
  · cases failed
  · dsimp only at failed
    split at failed <;> cases failed
    rfl

variable [ByteSource σ]

open ByteSource

/-- Completes a header of which `filled` has been read; nothing, if the stream
ends before its first byte. -/
def fillHeader (filled : Bytes) (source : σ) : EStateM.Result Fault σ (Option Bytes) :=
  if MessageHeader.width ≤ filled.length then .ok (some filled) source
  else
    match _done : read (MessageHeader.width - filled.length) source with
    | .ok [] after =>
        if filled = [] then .ok none after else .error (.headerCut filled.length) after
    | .ok (byte :: rest) after => fillHeader (filled ++ byte :: rest) after
    | .error fault after =>
        if _again : fault.isInterrupted then fillHeader filled after else .error fault after
termination_by budget source
decreasing_by
  · exact budget_lt_of_read _done
  · exact budget_lt_of_interrupted _done _again

theorem fillHeader_budget {filled : Bytes} {before after : σ} {header : Option Bytes}
    (done : fillHeader filled before = .ok header after) :
    budget after + (if header.isSome then MessageHeader.width - filled.length else 0) ≤
      budget before := by
  fun_induction fillHeader filled before generalizing header after with
  | case1 filled source enough =>
      cases done
      simp only [Option.isSome_some, if_true]
      omega
  | case2 source _ next ended =>
      cases done
      have spent := read_budget ended
      simp only [List.length_nil, Option.isSome_none, Bool.false_eq_true, if_false] at spent ⊢
      omega
  | case3 => cases done
  | case4 filled source _ byte rest next first ih =>
      have spent := read_budget first
      have later := ih done
      simp only [List.length_cons, List.length_append] at spent later
      split at later <;> simp_all <;> omega
  | case5 filled source _ fault next failed again ih =>
      have spent := budget_lt_of_interrupted failed again
      have later := ih done
      omega
  | case6 => cases done

theorem fillHeader_fault {filled : Bytes} {before after : σ} {fault : Fault}
    (failed : fillHeader filled before = .error fault after) :
    fault.isInterrupted = false ∧ budget after ≤ budget before := by
  fun_induction fillHeader filled before generalizing fault after with
  | case1 => cases failed
  | case2 => cases failed
  | case3 filled source _ next ended =>
      cases failed
      have spent := read_budget ended
      exact ⟨rfl, by omega⟩
  | case4 filled source _ byte rest next first ih =>
      have spent := read_budget first
      have later := ih failed
      exact ⟨later.1, by omega⟩
  | case5 filled source _ cause next interrupted again ih =>
      have spent := budget_lt_of_interrupted interrupted again
      have later := ih failed
      exact ⟨later.1, by omega⟩
  | case6 filled source _ cause next first final =>
      cases failed
      have spent := fault_budget first
      exact ⟨by simpa using final, by omega⟩

/-- Reads one header and acts on it. `false` says that the stream ended cleanly
between two messages. -/
def nextMessage (inflow : Inflow σ) : EStateM.Result Fault (Inflow σ) Bool :=
  match fillHeader [] inflow.source with
  | .error fault source => .error fault { inflow with source }
  | .ok none source => .ok false { inflow with source }
  | .ok (some bytes) source =>
      match MessageHeader.decode bytes with
      | .error cause => .error (.header cause) { inflow with source }
      | .ok header =>
          if header.code = .data then .ok true { inflow with source, remaining := header.length }
          else
            match readExact header.length source with
            | .error fault source => .error fault { inflow with source }
            | .ok payload source =>
                match deliver header.code payload { inflow with source } with
                | .error fault after => .error fault after
                | .ok () after => .ok true after

theorem nextMessage_budget {before after : Inflow σ} {more : Bool}
    (done : nextMessage before = .ok more after) :
    budget after.source + (if more then MessageHeader.width else 0) ≤ budget before.source := by
  unfold nextMessage at done
  split at done
  · cases done
  · next source filled =>
    cases done
    have spent := fillHeader_budget filled
    simpa using spent
  · next bytes source filled =>
    have spent := fillHeader_budget filled
    simp only [Option.isSome_some, if_true, List.length_nil] at spent
    split at done
    · cases done
    · next header decoded =>
      split at done
      · cases done
        simp only [if_true]
        omega
      · split at done
        · cases done
        · next payload later body =>
          have taken := readExact_budget body
          split at done
          · cases done
          · next final delivered =>
            cases done
            rw [deliver_source delivered]
            simp only [if_true]
            omega

theorem nextMessage_fault {before after : Inflow σ} {fault : Fault}
    (failed : nextMessage before = .error fault after) :
    budget after.source + (if fault.isInterrupted then 1 else 0) ≤ budget before.source := by
  unfold nextMessage at failed
  split at failed
  · next cause source filled =>
    cases failed
    have final := fillHeader_fault filled
    simp [final.1, final.2]
  · cases failed
  · next bytes source filled =>
    have spent := fillHeader_budget filled
    simp only [Option.isSome_some, if_true, List.length_nil] at spent
    have header : MessageHeader.width = 4 := rfl
    split at failed
    · cases failed
      dsimp only
      split <;> omega
    · split at failed
      · cases failed
      · split at failed
        · next cause later body =>
          cases failed
          have final := readExact_fault body
          simp only [final.1]
          simp only [Bool.false_eq_true, if_false]
          omega
        · next payload later body =>
          have taken := readExact_budget body
          split at failed
          · next cause final refused =>
            cases failed
            rw [deliver_fault refused]
            dsimp only
            split <;> omega
          · cases failed

/-- Reads at most `limit` bytes of payload, from one data message at most, after
dealing with the messages that come before it. -/
def read (limit : Nat) (inflow : Inflow σ) : EStateM.Result Fault (Inflow σ) Bytes :=
  if inflow.multiplexed = false then
    match ByteSource.read limit inflow.source with
    | .ok bytes source => .ok bytes { inflow with source }
    | .error fault source => .error fault { inflow with source }
  else if limit = 0 then .ok [] inflow
  else if inflow.remaining = 0 then
    match _advanced : nextMessage inflow with
    | .ok true after => read limit after
    | .ok false after => .ok [] after
    | .error fault after => .error fault after
  else
    match ByteSource.read (min limit inflow.remaining) inflow.source with
    | .ok [] source => .error (.payloadCut inflow.remaining) { inflow with source }
    | .ok (byte :: rest) source =>
        let remaining := inflow.remaining - (byte :: rest).length
        .ok (byte :: rest) { inflow with source, remaining }
    | .error fault source => .error fault { inflow with source }
termination_by budget inflow.source
decreasing_by
  have spent := nextMessage_budget _advanced
  have header : MessageHeader.width = 4 := rfl
  simp only [if_true] at spent
  omega

theorem read_length {limit : Nat} {before after : Inflow σ} {bytes : Bytes}
    (done : read limit before = .ok bytes after) : bytes.length ≤ limit := by
  fun_induction read limit before generalizing after bytes with
  | case1 _ _ _ _ first => cases done; exact ByteSource.read_length first
  | case2 | case6 | case7 | case9 => cases done
  | case3 | case5 => cases done; simp
  | case4 _ _ _ _ _ _ ih => exact ih done
  | case8 _ _ _ _ _ _ _ first =>
      cases done
      have short := ByteSource.read_length first
      omega

theorem read_budget {limit : Nat} {before after : Inflow σ} {bytes : Bytes}
    (done : read limit before = .ok bytes after) :
    budget after.source + bytes.length ≤ budget before.source := by
  fun_induction read limit before generalizing after bytes with
  | case1 _ _ _ _ first => cases done; exact ByteSource.read_budget first
  | case2 | case6 | case7 | case9 => cases done
  | case3 => cases done; simp
  | case4 _ _ _ _ _ advanced ih =>
      have spent := nextMessage_budget advanced
      have later := ih done
      omega
  | case5 _ _ _ _ _ advanced =>
      cases done
      have spent := nextMessage_budget advanced
      simp only [List.length_nil]
      omega
  | case8 _ _ _ _ _ _ _ first => cases done; exact ByteSource.read_budget first

theorem fault_budget {limit : Nat} {before after : Inflow σ} {fault : Fault}
    (failed : read limit before = .error fault after) :
    budget after.source + (if fault.isInterrupted then 1 else 0) ≤ budget before.source := by
  fun_induction read limit before generalizing after fault with
  | case1 | case3 | case5 | case8 => cases failed
  | case2 _ _ _ _ first => cases failed; exact ByteSource.fault_budget first
  | case4 _ _ _ _ _ advanced ih =>
      have spent := nextMessage_budget advanced
      have later := ih failed
      omega
  | case6 _ _ _ _ _ _ advanced => cases failed; exact nextMessage_fault advanced
  | case7 inflow _ _ _ _ first =>
      cases failed
      have spent := ByteSource.read_budget first
      have final : (Fault.payloadCut inflow.remaining).isInterrupted = false := rfl
      simp only [final, Bool.false_eq_true, if_false]
      omega
  | case9 _ _ _ _ _ _ first => cases failed; exact ByteSource.fault_budget first

/-- An inflow is a source itself, of the payload it lets through. -/
instance : ByteSource (Inflow σ) where
  read := read
  budget inflow := budget inflow.source
  read_length := read_length
  read_budget := read_budget
  fault_budget := fault_budget

/-- Deals with one message, for a caller that knows bytes are waiting. Does nothing
on a plain stream, or while payload of a data message is still to come. -/
def flush (inflow : Inflow σ) : EStateM.Result Fault (Inflow σ) Unit :=
  if inflow.multiplexed = false ∨ 0 < inflow.remaining then .ok () inflow
  else
    match nextMessage inflow with
    | .ok true after => .ok () after
    | .ok false after => .error .closedBetweenMessages after
    | .error fault after => .error fault after

end Inflow

/-- Sends one message, its header first. A payload too long for a header is refused
before anything is sent. -/
def MessageCode.send (code : MessageCode) (payload : Bytes) : Emission :=
  match MessageHeader.make code payload.length with
  | .ok header => { pieces := [header.encode, payload] }
  | .error _ => .refuse (.oversizedMessage payload.length)

end TreeSync

import TreeSync.Proofs.Message.Alignment
import TreeSync.Proofs.Stream.Decoding

namespace TreeSync

/-! Reading what is known to come first, whatever comes after it.

A reader that asks for no more than is known to come gets just that, and what follows is still
to come. It need not be payload, nor anything that could be read at all: a reader that does not
ask for it does not see it.
-/

open TreeSync.Action ByteSource

variable {σ : Type}

/-- Reads that ask for no more than is known to come bring some of it, in order. -/
structure Supplies [ByteSource σ] (stands : σ → Bytes → Prop) : Prop where
  read : ∀ {source : σ} {bytes : Bytes} {limit : Nat}, stands source bytes → 0 < limit →
    limit ≤ bytes.length →
    Meets (ByteSource.read limit) source
      (fun got after => got ≠ [] ∧ ∃ rest, bytes = got ++ rest ∧ stands after rest)
      (fun fault after => fault.isInterrupted = true ∧ stands after bytes)

namespace Supplies

variable [ByteSource σ] {stands : σ → Bytes → Prop} {source : σ} {first rest : Bytes} {wanted : Nat}

/-- A read that is one of several to get the front of what comes brings a piece of it. -/
theorem read_front (supplies : Supplies stands) (size : wanted = first.length)
    (positive : ¬ wanted = 0) (here : stands source (first ++ rest)) :
    Meets (ByteSource.read wanted) source
      (fun got after => got ≠ [] ∧ ∃ left, first = got ++ left ∧ wanted - got.length = left.length ∧
        stands after (left ++ rest))
      (fun fault after => fault.isInterrupted = true ∧ stands after (first ++ rest)) := by
  have known : wanted ≤ (first ++ rest).length := by
    rw [List.length_append]
    omega
  have brings := supplies.read here (Nat.pos_of_ne_zero positive) known
  refine Meets.intro (fun got after ran => ?_) fun fault after failed => brings.of_error failed
  obtain ⟨present, later, whole, there⟩ := brings.of_ok ran
  obtain ⟨left, rfl, rfl⟩ := piece_of_front whole (size ▸ ByteSource.read_length ran)
  refine ⟨present, left, rfl, ?_, there⟩
  rw [size, List.length_append, Nat.add_sub_cancel_left]

theorem gathers_front {ended : EStateM Fault σ Bytes} {gather : Nat → EStateM Fault σ Bytes}
    (gathers : Gathers ended gather) (supplies : Supplies stands) (size : wanted = first.length)
    (here : stands source (first ++ rest)) :
    ∃ after, gather wanted source = .ok first after ∧ stands after rest := by
  -- by the budget of the source: each read that brings a piece, or is to be made again, spends some
  induction spent : budget source using Nat.strongRecOn generalizing wanted source first with
  | ind left ih =>
      subst spent
      rw [gathers wanted source]
      by_cases nothing : wanted = 0
      · rw [if_pos nothing]
        obtain rfl := List.eq_nil_of_length_eq_zero (size.symm.trans nothing)
        exact ⟨source, rfl, here⟩
      rw [if_neg nothing]
      have brings := supplies.read_front size nothing here
      cases ran : ByteSource.read wanted source with
      | ok got after =>
          obtain ⟨present, left, rfl, count, there⟩ := brings.of_ok ran
          cases got with
          | nil => exact absurd rfl present
          | cons byte more =>
              obtain ⟨last, done, stays⟩ := ih _ (budget_lt_of_read ran) count there rfl
              dsimp only
              rw [done]
              exact ⟨last, rfl, stays⟩
      | error fault after =>
          obtain ⟨interrupted, there⟩ := brings.of_error ran
          dsimp only
          rw [if_pos interrupted]
          exact ih _ (budget_lt_of_interrupted ran interrupted) size there rfl

/-- What is read whole of the bytes ahead is their front. -/
theorem feeds (supplies : Supplies stands) : Feeds stands :=
  fun _ _ _ here => supplies.gathers_front readExact_gathers rfl here

theorem readUpTo (supplies : Supplies stands) (bytes : Bytes) :
    Decodes stands (ByteSource.readUpTo bytes.length) bytes bytes :=
  fun _ _ here => supplies.gathers_front readUpTo_gathers rfl here

end Supplies

namespace Inflow

open Framing

/-- Where an inflow stands on a wire that goes on with what is left of a data message, with
`messages` and then with `tail`, whatever that is. -/
structure Heads [ByteSource σ] (tail current : Bytes) (messages : List SentMessage)
    (inflow : Inflow σ) : Prop where
  multiplexed : inflow.multiplexed = true
  remaining : inflow.remaining = current.length
  source : Carries inflow.source (current ++ (wire messages ++ tail))
  sendable : Sendable messages
  lets : Lets inflow.handler messages

/-- The payload that is known to come: of a plain stream all that comes before `tail`, else that
of the data messages before it. -/
inductive Ahead [ByteSource σ] (tail : Bytes) (inflow : Inflow σ) : Bytes → Prop
  | plain {bytes : Bytes} (plain : inflow.multiplexed = false)
      (source : Carries inflow.source (bytes ++ tail)) : Ahead tail inflow bytes
  | framed {current : Bytes} {messages : List SentMessage}
      (heads : Heads tail current messages inflow) :
      Ahead tail inflow (current ++ payload messages)

variable [ByteSource σ] {tail current : Bytes} {message : SentMessage}
  {messages rest : List SentMessage} {inflow : Inflow σ} {limit : Nat}

namespace Heads

/-- The next message is dealt with: what a data message carries comes next. -/
theorem next (heads : Heads tail [] (message :: rest) inflow) :
    ∃ after, Inflow.nextMessage inflow = .ok true after ∧
      Heads tail (payload [message]) rest after := by
  have here : Carries inflow.source
      ((message.1.send message.2).bytes ++ (wire rest ++ tail)) := by
    have whole := heads.source
    rwa [List.nil_append, wire_cons, List.append_assoc] at whole
  obtain ⟨source, there, ran⟩ := nextMessage_front Carries.serves heads.sendable.head here
  obtain ⟨after, settled⟩ := settle_lets { inflow with source } heads.lets.head
  obtain ⟨sameSource, sameMode, size, heard⟩ :=
    (settle_meets message { inflow with source } heads.remaining).of_ok settled
  refine ⟨after, ?_, ?_⟩
  · rw [ran inflow.handler, bind_ok settled]
    rfl
  · exact {
      multiplexed := sameMode.trans heads.multiplexed
      remaining := size
      source := sameSource ▸ there
      sendable := heads.sendable.tail
      lets := heard ▸ heads.lets.tail }

/-- A read brings a piece of the payload, as long as more of it is known to come. -/
theorem read (heads : Heads tail current messages inflow) (positive : 0 < limit)
    (more : current ++ payload messages ≠ []) :
    Meets (Inflow.read limit) inflow
      (fun got after => got ≠ [] ∧ ∃ left rest,
        current ++ payload messages = got ++ (left ++ payload rest) ∧ Heads tail left rest after)
      (fun fault after => fault.isInterrupted = true ∧ ∃ left rest,
        current ++ payload messages = left ++ payload rest ∧ Heads tail left rest after) := by
  unfold Meets
  -- by the messages passed: what one carries is what comes next
  fun_induction Inflow.read limit inflow generalizing current messages with
  | case1 inflow plain | case2 inflow plain =>
      exact absurd heads.multiplexed (by simp [plain])
  | case3 inflow plain nothing => exact absurd nothing (Nat.ne_of_gt positive)
  | case4 inflow plain some between after advanced ih =>
      obtain rfl := List.eq_nil_of_length_eq_zero (heads.remaining.symm.trans between)
      cases messages with
      | nil => exact absurd rfl more
      | cons message rest =>
          obtain ⟨_, ran, there⟩ := heads.next
          cases advanced.symm.trans ran
          rw [List.nil_append, payload_cons] at more ⊢
          exact ih there more
  | case5 inflow plain some between after stopped =>
      obtain rfl := List.eq_nil_of_length_eq_zero (heads.remaining.symm.trans between)
      cases messages with
      | nil => exact absurd rfl more
      | cons message rest =>
          obtain ⟨_, ran, -⟩ := heads.next
          cases stopped.symm.trans ran
  | case6 inflow plain some between fault after failed =>
      obtain rfl := List.eq_nil_of_length_eq_zero (heads.remaining.symm.trans between)
      cases messages with
      | nil => exact absurd rfl more
      | cons message rest =>
          obtain ⟨_, ran, -⟩ := heads.next
          cases failed.symm.trans ran
  | case7 inflow plain some within source ended =>
      have nothing := Carries.serves.ended heads.source (Awaits.some_wanted positive within) ended
      have empty := (List.append_eq_nil_iff.mp nothing).1
      exact absurd (heads.remaining.trans (congrArg List.length empty)) within
  | case8 inflow plain some within byte others source first =>
      obtain ⟨later, whole, there, _⟩ :=
        (Carries.serves.read heads.source (Awaits.some_wanted positive within)).of_ok first
      have short := ByteSource.read_length first
      rw [heads.remaining] at short
      obtain ⟨left, rfl, rfl⟩ := piece_of_front whole (by omega)
      have count : inflow.remaining - (byte :: others).length = left.length := by
        rw [heads.remaining, List.length_append, Nat.add_sub_cancel_left]
      exact ⟨List.cons_ne_nil _ _, left, messages, List.append_assoc _ _ _,
        ⟨heads.multiplexed, count, there, heads.sendable, heads.lets⟩⟩
  | case9 inflow plain some within fault source first =>
      obtain ⟨interrupted, there⟩ :=
        (Carries.serves.read heads.source (Awaits.some_wanted positive within)).of_error first
      exact ⟨interrupted, current, messages, rfl,
        ⟨heads.multiplexed, heads.remaining, there, heads.sendable, heads.lets⟩⟩

end Heads

namespace Ahead

theorem supplies (tail : Bytes) : Supplies (Ahead (σ := σ) tail) where
  read {inflow bytes limit} ahead positive known := by
    have nonempty : bytes ≠ [] := by
      rintro rfl
      exact absurd (Nat.lt_of_lt_of_le positive known) (Nat.lt_irrefl 0)
    change Meets (Inflow.read limit) inflow _ _
    cases ahead with
    | plain plain source =>
        have brings := Carries.serves.read source positive
        unfold Meets at brings
        unfold Meets Inflow.read
        rw [if_pos plain]
        cases first : ByteSource.read limit inflow.source with
        | ok got after =>
            rw [first] at brings
            obtain ⟨rest, whole, there, last⟩ := brings
            have short := Nat.le_trans (ByteSource.read_length first) known
            obtain ⟨left, rfl, rfl⟩ := piece_of_front whole short
            refine ⟨?_, left, rfl, .plain plain there⟩
            rintro rfl
            exact nonempty (List.append_eq_nil_iff.mp (last rfl)).1
        | error fault after =>
            rw [first] at brings
            exact ⟨brings.1, .plain plain brings.2⟩
    | framed heads =>
        refine (heads.read positive nonempty).mono ?_ ?_
        · rintro got after ⟨piece, left, rest, whole, there⟩
          exact ⟨piece, left ++ payload rest, whole, .framed there⟩
        · rintro fault after ⟨interrupted, left, rest, whole, there⟩
          rw [whole]
          exact ⟨interrupted, .framed there⟩

theorem recording {bytes : Bytes} (ahead : Ahead tail inflow bytes) (journal : Journal) :
    Ahead tail { inflow with journal } bytes := by
  cases ahead with
  | plain plain source => exact .plain plain source
  | framed heads =>
      exact .framed ⟨heads.multiplexed, heads.remaining, heads.source, heads.sendable, heads.lets⟩

end Ahead

end Inflow

end TreeSync

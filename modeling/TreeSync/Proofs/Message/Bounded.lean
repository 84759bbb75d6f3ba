import TreeSync.Message.Inflow
import TreeSync.Proofs.Outcomes

namespace TreeSync.Inflow

/-! How often a read goes round.

A read deals with whole messages until one has payload for its caller. Each of them uses up a
header, so there are at most as many as headers fit into what may still come.
-/

open TreeSync.Action ByteSource

variable {σ : Type} [ByteSource σ] {limit : Nat} {before after : Inflow σ}

/-- So many messages that a read deals with, one after the other, without payload for its
caller. -/
inductive Turns : Inflow σ → Nat → Inflow σ → Prop
  | none {now : Inflow σ} : Turns now 0 now
  | message {now middle last : Inflow σ} {turns : Nat} (between : now.remaining = 0)
      (ran : nextMessage now = .ok true middle) (later : Turns middle turns last) :
      Turns now (turns + 1) last

/-- Whether a read is over after one more look at the stream at most. -/
inductive Settles (limit : Nat) (last : Inflow σ) : Prop
  | plain (mode : last.multiplexed = false)
  | nothing (wanted : limit = 0)
  | payload (positive : 0 < last.remaining)
  | stops (stopped : ∀ after, nextMessage last ≠ .ok true after)

theorem Turns.bounded {turns : Nat} (gone : Turns before turns after) :
    MessageHeader.width * turns + budget after.source ≤ budget before.source := by
  induction gone with
  | none => omega
  | message between ran later ih =>
      have spent := nextMessage_budget ran
      rw [if_pos rfl] at spent
      rw [Nat.mul_succ]
      omega

theorem read_past (framed : before.multiplexed = true) (wanted : limit ≠ 0)
    (between : before.remaining = 0) (ran : nextMessage before = .ok true after) :
    read limit before = read limit after := by
  rw [read, if_neg (by simp [framed]), if_neg wanted, if_pos between]
  split
  · next middle ran' =>
    rw [ran] at ran'
    cases ran'
    rfl
  · next other =>
    rw [ran] at other
    cases other
  · next other =>
    rw [ran] at other
    cases other

/-- Every read comes out of its loop: it deals with some messages and is over then. -/
theorem read_turns (limit : Nat) (inflow : Inflow σ) :
    ∃ turns last, Turns inflow turns last ∧ read limit inflow = read limit last ∧
      last.Settles limit := by
  by_cases settles : inflow.Settles limit
  · exact ⟨0, inflow, .none, rfl, settles⟩
  have framed : inflow.multiplexed = true := by
    cases mode : inflow.multiplexed with
    | false => exact absurd (.plain mode) settles
    | true => rfl
  have wanted : limit ≠ 0 := fun nothing => settles (.nothing nothing)
  have between : inflow.remaining = 0 :=
    Nat.eq_zero_of_not_pos fun present => settles (.payload present)
  obtain ⟨middle, ran⟩ : ∃ middle, nextMessage inflow = .ok true middle :=
    Classical.byContradiction fun stopped => settles (.stops (not_exists.mp stopped))
  have spent := nextMessage_budget ran
  obtain ⟨turns, last, gone, same, settled⟩ := read_turns limit middle
  exact ⟨turns + 1, last, .message between ran gone,
    (read_past framed wanted between ran).trans same, settled⟩
termination_by budget inflow.source
decreasing_by
  have header : MessageHeader.width = 4 := rfl
  simp only [if_true] at spent
  omega

/-- Between two messages a flush looks at the next one. -/
theorem flush_between (framed : before.multiplexed = true) (between : before.remaining = 0) :
    flush before =
      match nextMessage before with
      | .ok true after => .ok () after
      | .ok false after => .error .closedBetweenMessages after
      | .error fault after => .error fault after := by
  have looks : ¬ (before.multiplexed = false ∨ 0 < before.remaining) := by
    rw [framed, between]
    simp
  unfold flush
  exact if_neg looks

/-- What flushing uses up: a message has been dealt with, unless payload is waiting already. -/
theorem flush_spends (framed : before.multiplexed = true) (ran : flush before = .ok () after) :
    budget after.source + MessageHeader.width ≤ budget before.source ∨
      (0 < before.remaining ∧ after = before) := by
  unfold flush at ran
  split at ran
  · next idle =>
    cases ran
    exact .inr ⟨idle.resolve_left (by simp [framed]), rfl⟩
  · split at ran
    · next next =>
      cases ran
      have spent := nextMessage_budget next
      exact .inl (by simpa using spent)
    · cases ran
    · cases ran

end TreeSync.Inflow

import TreeSync.Proofs.Outcomes

namespace TreeSync.Action

/-! Steps that succeed together.

`Follows` says of two states that a step which succeeds from the one has a counterpart that
succeeds from the other with the same value. What it does when the first step fails is left
open: nothing is to be followed then.
-/

variable {ε δ σ τ α β : Type}

def Follows (step : EStateM ε σ α) (now : σ) (other : EStateM δ τ α) (bare : τ)
    (done : α → σ → τ → Prop) : Prop :=
  ∀ value after, step now = .ok value after →
    ∃ bareAfter, other bare = .ok value bareAfter ∧ done value after bareAfter

namespace Follows

variable {now : σ} {bare : τ} {done : α → σ → τ → Prop}

theorem mono {step : EStateM ε σ α} {other : EStateM δ τ α} {wider : α → σ → τ → Prop}
    (follows : Follows step now other bare done)
    (weaker : ∀ value after bareAfter, done value after bareAfter → wider value after bareAfter) :
    Follows step now other bare wider := by
  intro value after ran
  obtain ⟨bareAfter, there, held⟩ := follows value after ran
  exact ⟨bareAfter, there, weaker _ _ _ held⟩

theorem pure {value : α} (holds : done value now bare) :
    Follows (Pure.pure value : EStateM ε σ α) now (Pure.pure value : EStateM δ τ α) bare done := by
  intro _ _ ran
  cases ran
  exact ⟨bare, rfl, holds⟩

theorem throw {cause : ε} {other : EStateM δ τ α} :
    Follows (MonadExcept.throw cause : EStateM ε σ α) now other bare done := by
  intro _ _ ran
  cases ran

theorem bind {step : EStateM ε σ β} {other : EStateM δ τ β} {rest : β → EStateM ε σ α}
    {others : β → EStateM δ τ α} {middle : β → σ → τ → Prop}
    (first : Follows step now other bare middle)
    (next : ∀ value after bareAfter, middle value after bareAfter →
      Follows (rest value) after (others value) bareAfter done) :
    Follows (step >>= rest) now (other >>= others) bare done := by
  intro value after ran
  obtain ⟨middle, between, head, tail⟩ := of_bind_ok ran
  obtain ⟨bareBetween, there, held⟩ := first middle between head
  rw [bind_ok there]
  exact next middle between bareBetween held value after tail

theorem get {rest : σ → EStateM ε σ α} {others : τ → EStateM δ τ α}
    (next : Follows (rest now) now (others bare) bare done) :
    Follows (MonadState.get >>= rest) now (MonadState.get >>= others) bare done :=
  next

theorem change {change : σ → σ} {other : τ → τ} {done : Unit → σ → τ → Prop}
    (holds : done () (change now) (other bare)) :
    Follows (modify change : EStateM ε σ Unit) now (modify other : EStateM δ τ Unit) bare done := by
  intro _ _ ran
  cases ran
  exact ⟨_, rfl, holds⟩

theorem changeThen {change : σ → σ} {other : τ → τ} {rest : Unit → EStateM ε σ α}
    {others : Unit → EStateM δ τ α}
    (next : Follows (rest ()) (change now) (others ()) (other bare) done) :
    Follows ((modify change : EStateM ε σ Unit) >>= rest) now
      ((modify other : EStateM δ τ Unit) >>= others) bare done :=
  next

theorem cond {condition : Prop} [Decidable condition] {yes no : EStateM ε σ α}
    {yes' no' : EStateM δ τ α} (holds : condition → Follows yes now yes' bare done)
    (fails : ¬ condition → Follows no now no' bare done) :
    Follows (if condition then yes else no) now (if condition then yes' else no') bare done := by
  split
  · next true => exact holds true
  · next false => exact fails false

theorem ofExcept {result : Except ε α} (holds : ∀ value, result = .ok value → done value now bare) :
    Follows (MonadExcept.ofExcept result : EStateM ε σ α) now
      (MonadExcept.ofExcept result : EStateM ε τ α) bare done := by
  cases result with
  | ok value => exact pure (holds value rfl)
  | error cause => exact throw

theorem mapM {step : β → EStateM ε σ α} {other : β → EStateM δ τ α} {same : σ → τ → Prop}
    (each : ∀ item now bare, same now bare →
      Follows (step item) now (other item) bare fun _ after bareAfter => same after bareAfter)
    (items : List β) {now : σ} {bare : τ} (start : same now bare) :
    Follows (items.mapM step) now (items.mapM other) bare
      fun _ after bareAfter => same after bareAfter := by
  induction items generalizing now bare with
  | nil =>
      rw [List.mapM_nil, List.mapM_nil]
      exact pure start
  | cons item rest ih =>
      rw [List.mapM_cons, List.mapM_cons]
      exact (each item now bare start).bind fun _ _ _ same => (ih same).bind fun _ _ _ same =>
        pure same

theorem within {σ' τ' : Type} {part : σ → σ'} {replace : σ' → σ → σ} {part' : τ → τ'}
    {replace' : τ' → τ → τ} {step : EStateM ε σ' α} {other : EStateM δ τ' α}
    (inner : Follows step (part now) other (part' bare)
      fun value inside bareInside => done value (replace inside now) (replace' bareInside bare)) :
    Follows (Action.within part replace step) now (Action.within part' replace' other) bare done := by
  intro value after ran
  obtain ⟨inside, head, rfl⟩ := of_within_ok ran
  obtain ⟨bareInside, there, held⟩ := inner value inside head
  exact ⟨_, by rw [Action.within, there], held⟩

end Follows

end TreeSync.Action

import TreeSync.Proofs.Outcomes

namespace TreeSync.Action

/-! Steps that agree as soon as both succeed.

`Concurs` says nothing of two steps one of which fails. So it can be put together from steps
that wait for something else, and from steps that end well for different reasons.
-/

variable {ε δ σ τ α β : Type}

def Concurs (step : EStateM ε σ α) (now : σ) (other : EStateM δ τ α) (there : τ)
    (done : α → σ → τ → Prop) : Prop :=
  ∀ value after value' after', step now = .ok value after → other there = .ok value' after' →
    value = value' ∧ done value after after'

namespace Concurs

variable {now : σ} {there : τ} {done : α → σ → τ → Prop}

theorem mono {step : EStateM ε σ α} {other : EStateM δ τ α} {wider : α → σ → τ → Prop}
    (concurs : Concurs step now other there done)
    (weaker : ∀ value after after', done value after after' → wider value after after') :
    Concurs step now other there wider := by
  intro value after value' after' ran ran'
  obtain ⟨same, held⟩ := concurs value after value' after' ran ran'
  exact ⟨same, weaker _ _ _ held⟩

/-- Two steps of which each is known what it does if it succeeds. -/
theorem of_meets {step : EStateM ε σ α} {other : EStateM δ τ α} {here : α → σ → Prop}
    {yonder : α → τ → Prop} (first : Meets step now here fun _ _ => True)
    (second : Meets other there yonder fun _ _ => True)
    (both : ∀ value after value' after', here value after → yonder value' after' →
      value = value' ∧ done value after after') : Concurs step now other there done :=
  fun _ _ _ _ ran ran' => both _ _ _ _ (first.of_ok ran) (second.of_ok ran')

/-- Of one of the steps more may be known. -/
theorem knowing {step : EStateM ε σ α} {other : EStateM δ τ α} {known : α → σ → Prop}
    {missed : ε → σ → Prop} (concurs : Concurs step now other there done)
    (meets : Meets step now known missed) :
    Concurs step now other there fun value after after' =>
      done value after after' ∧ known value after := by
  intro value after value' after' ran ran'
  obtain ⟨same, held⟩ := concurs value after value' after' ran ran'
  exact ⟨same, held, meets.of_ok ran⟩

/-- Two steps that yield nothing. -/
theorem blank {step : EStateM ε σ Unit} {other : EStateM δ τ Unit} {done : Unit → σ → τ → Prop}
    (holds : ∀ after after', step now = .ok () after → other there = .ok () after' →
      done () after after') : Concurs step now other there done :=
  fun _ after _ after' ran ran' => ⟨rfl, holds after after' ran ran'⟩

/-- A step that is made twice from one state. -/
theorem again {step : EStateM ε σ α} {done : α → σ → σ → Prop}
    (met : ∀ value after, step now = .ok value after → done value after after) :
    Concurs step now step now done := by
  intro value after value' after' ran ran'
  rw [ran] at ran'
  cases ran'
  exact ⟨rfl, met value after ran⟩

theorem pure {value : α} (holds : done value now there) :
    Concurs (Pure.pure value : EStateM ε σ α) now (Pure.pure value : EStateM δ τ α) there done := by
  intro _ _ _ _ ran ran'
  cases ran
  cases ran'
  exact ⟨rfl, holds⟩

theorem throw {cause : ε} {other : EStateM δ τ α} :
    Concurs (MonadExcept.throw cause : EStateM ε σ α) now other there done := by
  intro _ _ _ _ ran
  cases ran

theorem bind {step : EStateM ε σ β} {rest : β → EStateM ε σ α} {other : EStateM δ τ β}
    {others : β → EStateM δ τ α} {middle : β → σ → τ → Prop}
    (first : Concurs step now other there middle)
    (next : ∀ value after after', middle value after after' →
      Concurs (rest value) after (others value) after' done) :
    Concurs (step >>= rest) now (other >>= others) there done := by
  intro value after value' after' ran ran'
  obtain ⟨middle, between, head, tail⟩ := of_bind_ok ran
  obtain ⟨middle', between', head', tail'⟩ := of_bind_ok ran'
  obtain ⟨rfl, held⟩ := first _ _ _ _ head head'
  exact next middle between between' held _ _ _ _ tail tail'

theorem get {rest : σ → EStateM ε σ α} {others : τ → EStateM δ τ α}
    (next : Concurs (rest now) now (others there) there done) :
    Concurs (MonadState.get >>= rest) now (MonadState.get >>= others) there done :=
  next

theorem change {change : σ → σ} {other : τ → τ} {done : Unit → σ → τ → Prop}
    (holds : done () (change now) (other there)) :
    Concurs (modify change : EStateM ε σ Unit) now (modify other : EStateM δ τ Unit) there done := by
  intro _ _ _ _ ran ran'
  cases ran
  cases ran'
  exact ⟨rfl, holds⟩

theorem changeThen {change : σ → σ} {other : τ → τ} {rest : Unit → EStateM ε σ α}
    {others : Unit → EStateM δ τ α}
    (next : Concurs (rest ()) (change now) (others ()) (other there) done) :
    Concurs ((modify change : EStateM ε σ Unit) >>= rest) now
      ((modify other : EStateM δ τ Unit) >>= others) there done :=
  next

theorem cond {condition : Prop} [Decidable condition] {yes no : EStateM ε σ α}
    {yes' no' : EStateM δ τ α} (holds : condition → Concurs yes now yes' there done)
    (fails : ¬ condition → Concurs no now no' there done) :
    Concurs (if condition then yes else no) now (if condition then yes' else no') there done := by
  split
  · next true => exact holds true
  · next false => exact fails false

theorem explaining {ε' δ' : Type} {explain : ε' → ε} {explain' : δ' → δ} {step : EStateM ε' σ α}
    {other : EStateM δ' τ α} (inner : Concurs step now other there done) :
    Concurs (Action.explaining explain step) now (Action.explaining explain' other) there done :=
  fun _ _ _ _ ran ran' => inner _ _ _ _ (of_explaining_ok ran) (of_explaining_ok ran')

theorem within {σ' τ' : Type} {part : σ → σ'} {replace : σ' → σ → σ} {part' : τ → τ'}
    {replace' : τ' → τ → τ} {step : EStateM ε σ' α} {other : EStateM δ τ' α}
    (inner : Concurs step (part now) other (part' there)
      fun value inside inside' => done value (replace inside now) (replace' inside' there)) :
    Concurs (Action.within part replace step) now (Action.within part' replace' other) there
      done := by
  intro value after value' after' ran ran'
  obtain ⟨inside, head, rfl⟩ := of_within_ok ran
  obtain ⟨inside', head', rfl⟩ := of_within_ok ran'
  exact inner _ _ _ _ head head'

/-- What a step yields or fails with is known if it is made twice from one state. -/
theorem attempt {ε' : Type} {step : EStateM ε' σ α} {other : EStateM ε' τ α}
    {done : Except ε' α → σ → τ → Prop}
    (succeeds : Concurs step now other there fun value => done (.ok value))
    (fails : ∀ cause after, step now = .error cause after →
      ∃ after', other there = .error cause after' ∧ done (.error cause) after after')
    (fails' : ∀ cause after, other there = .error cause after →
      ∃ after', step now = .error cause after') :
    Concurs (Action.attempt step : EStateM ε σ (Except ε' α)) now
      (Action.attempt other : EStateM δ τ (Except ε' α)) there done := by
  intro value after value' after' ran ran'
  unfold Action.attempt at ran ran'
  cases head : step now with
  | ok result between =>
      cases head' : other there with
      | ok result' between' =>
          rw [head] at ran
          rw [head'] at ran'
          cases ran
          cases ran'
          obtain ⟨rfl, held⟩ := succeeds _ _ _ _ head head'
          exact ⟨rfl, held⟩
      | error cause between' =>
          obtain ⟨_, failed⟩ := fails' cause between' head'
          rw [head] at failed
          cases failed
  | error cause between =>
      obtain ⟨between', head', held⟩ := fails cause between head
      rw [head] at ran
      rw [head'] at ran'
      cases ran
      cases ran'
      exact ⟨rfl, held⟩

theorem foldlM {relation : σ → τ → Prop} {step : β → α → EStateM ε σ β}
    {other : β → α → EStateM δ τ β}
    (each : ∀ value item now there, relation now there →
      Concurs (step value item) now (other value item) there fun _ => relation)
    (items : List α) (value : β) (held : relation now there) :
    Concurs (items.foldlM step value) now (items.foldlM other value) there fun _ => relation := by
  induction items generalizing now there value with
  | nil => exact pure held
  | cons item rest ih =>
      rw [List.foldlM_cons, List.foldlM_cons]
      exact (each value item now there held).bind fun next _ _ held => ih next held

theorem mapM {relation : σ → τ → Prop} {step : α → EStateM ε σ β} {other : α → EStateM δ τ β}
    (each : ∀ item now there, relation now there →
      Concurs (step item) now (other item) there fun _ => relation)
    (items : List α) (held : relation now there) :
    Concurs (items.mapM step) now (items.mapM other) there fun _ => relation := by
  induction items generalizing now there with
  | nil =>
      rw [List.mapM_nil, List.mapM_nil]
      exact pure held
  | cons item rest ih =>
      rw [List.mapM_cons, List.mapM_cons]
      refine (each item now there held).bind fun _ _ _ held => ?_
      exact (ih held).bind fun _ _ _ held => pure held

end Concurs

end TreeSync.Action

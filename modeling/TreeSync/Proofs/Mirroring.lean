import TreeSync.Proofs.Outcomes

namespace TreeSync.Action

/-! Steps that mirror each other.

`Mirrors` compares two steps over every pair of states that a relation allows: both succeed
with one value or fail for one cause, and the states they leave are related again. A step
that mirrors itself does not depend on what the relation leaves open, however it ends.
-/

variable {ε δ σ τ α β : Type}

/-- Two results with the same value or the same cause, and states that are alike. -/
inductive Matched (alike : σ → σ → Prop) :
    EStateM.Result ε σ α → EStateM.Result ε σ α → Prop
  | ok (value : α) {after after' : σ} (held : alike after after') :
      Matched alike (.ok value after) (.ok value after')
  | error (cause : ε) {after after' : σ} (held : alike after after') :
      Matched alike (.error cause after) (.error cause after')

namespace Matched

variable {alike : σ → σ → Prop} {result other : EStateM.Result ε σ α}

theorem split (matched : Matched alike result other) :
    (∃ value after after', result = .ok value after ∧ other = .ok value after' ∧
        alike after after') ∨
      ∃ cause after after', result = .error cause after ∧ other = .error cause after' ∧
        alike after after' := by
  cases matched with
  | ok value held => exact .inl ⟨value, _, _, rfl, rfl, held⟩
  | error cause held => exact .inr ⟨cause, _, _, rfl, rfl, held⟩

theorem mono {wider : σ → σ → Prop} (matched : Matched alike result other)
    (weaker : ∀ after after', alike after after' → wider after after') :
    Matched wider result other := by
  cases matched with
  | ok value held => exact .ok value (weaker _ _ held)
  | error cause held => exact .error cause (weaker _ _ held)

theorem symm (matched : Matched alike result other) :
    Matched (fun after after' => alike after' after) other result := by
  cases matched with
  | ok value held => exact .ok value held
  | error cause held => exact .error cause held

theorem trans {last : EStateM.Result ε σ α} {first second : σ → σ → Prop}
    (matched : Matched first result other) (matched' : Matched second other last)
    (composed : ∀ {early middle late}, first early middle → second middle late →
      alike early late) : Matched alike result last := by
  cases matched with
  | ok value held =>
      cases matched' with
      | ok _ held' => exact .ok value (composed held held')
  | error cause held =>
      cases matched' with
      | error _ held' => exact .error cause (composed held held')

end Matched

def Mirrors (alike : σ → σ → Prop) (step other : EStateM ε σ α) : Prop :=
  ∀ now there, alike now there → Matched alike (step now) (other there)

namespace Mirrors

variable {alike : σ → σ → Prop}

/-- From one and the same state a step does one and the same. -/
theorem same (step : EStateM ε σ α) : Mirrors Eq step step := by
  rintro now _ rfl
  cases step now with
  | ok value after => exact .ok value rfl
  | error cause after => exact .error cause rfl

theorem pure (value : α) : Mirrors alike (Pure.pure value : EStateM ε σ α) (Pure.pure value) :=
  fun _ _ held => .ok value held

theorem throw (cause : ε) :
    Mirrors alike (MonadExcept.throw cause : EStateM ε σ α) (MonadExcept.throw cause) :=
  fun _ _ held => .error cause held

theorem ofExcept (result : Except ε α) :
    Mirrors alike (MonadExcept.ofExcept result : EStateM ε σ α) (MonadExcept.ofExcept result) := by
  cases result with
  | ok value => exact pure value
  | error cause => exact throw cause

theorem bind {step other : EStateM ε σ β} {rest others : β → EStateM ε σ α}
    (first : Mirrors alike step other) (next : ∀ value, Mirrors alike (rest value) (others value)) :
    Mirrors alike (step >>= rest) (other >>= others) := by
  intro now there held
  obtain ⟨value, after, after', ran, ran', still⟩ | ⟨cause, after, after', ran, ran', still⟩ :=
    (first now there held).split
  · rw [bind_ok ran, bind_ok ran']
    exact next value after after' still
  · rw [bind_error ran, bind_error ran']
    exact .error cause still

/-- Nothing comes after a failure. -/
theorem refuse {rest others : β → EStateM ε σ α} (cause : ε) :
    Mirrors alike ((MonadExcept.throw cause : EStateM ε σ β) >>= rest)
      ((MonadExcept.throw cause : EStateM ε σ β) >>= others) :=
  fun _ _ held => .error cause held

/-- Goes on with what is read off the state, which need not be the same in both. -/
theorem get {rest others : σ → EStateM ε σ α}
    (next : ∀ now there, alike now there → Mirrors alike (rest now) (others there)) :
    Mirrors alike (MonadState.get >>= rest) (MonadState.get >>= others) :=
  fun now there held => next now there held now there held

theorem change {change other : σ → σ}
    (holds : ∀ now there, alike now there → alike (change now) (other there)) :
    Mirrors alike (modify change : EStateM ε σ Unit) (modify other) :=
  fun now there held => .ok () (holds now there held)

theorem cond {condition : Prop} [Decidable condition] {yes no yes' no' : EStateM ε σ α}
    (holds : Mirrors alike yes yes') (fails : Mirrors alike no no') :
    Mirrors alike (if condition then yes else no) (if condition then yes' else no') := by
  split
  · exact holds
  · exact fails

/-- Goes on after a step that is only made on some condition. -/
theorem optional {condition : Prop} [Decidable condition] {step other : EStateM ε σ Unit}
    {rest others : Unit → EStateM ε σ α} (first : Mirrors alike step other)
    (next : Mirrors alike (rest ()) (others ())) :
    Mirrors alike (if condition then step >>= rest else rest ())
      (if condition then other >>= others else others ()) :=
  cond (bind first fun _ => next) next

theorem explaining {explain : δ → ε} {step other : EStateM δ σ α}
    (inner : Mirrors alike step other) :
    Mirrors alike (Action.explaining explain step) (Action.explaining explain other) := by
  intro now there held
  unfold Action.explaining
  obtain ⟨value, _, _, ran, ran', still⟩ | ⟨cause, _, _, ran, ran', still⟩ :=
    (inner now there held).split <;> rw [ran, ran']
  · exact .ok value still
  · exact .error (explain cause) still

theorem attempt {step other : EStateM δ σ α} (inner : Mirrors alike step other) :
    Mirrors alike (Action.attempt step : EStateM ε σ (Except δ α)) (Action.attempt other) := by
  intro now there held
  unfold Action.attempt
  obtain ⟨_, _, _, ran, ran', still⟩ | ⟨_, _, _, ran, ran', still⟩ :=
    (inner now there held).split <;> rw [ran, ran']
  · exact Matched.ok _ still
  · exact Matched.ok _ still

theorem within {inside : τ → τ → Prop} {part : σ → τ} {replace : τ → σ → σ}
    {step other : EStateM ε τ α} (inner : Mirrors inside step other)
    (lent : ∀ now there, alike now there → inside (part now) (part there))
    (back : ∀ now there first second, alike now there → inside first second →
      alike (replace first now) (replace second there)) :
    Mirrors alike (Action.within part replace step) (Action.within part replace other) := by
  intro now there held
  unfold Action.within
  obtain ⟨value, _, _, ran, ran', still⟩ | ⟨cause, _, _, ran, ran', still⟩ :=
    (inner _ _ (lent now there held)).split <;> rw [ran, ran']
  · exact Matched.ok value (back _ _ _ _ held still)
  · exact Matched.error cause (back _ _ _ _ held still)

theorem onFailure {step other : EStateM ε σ α} {cleanup : σ → σ}
    (inner : Mirrors alike step other)
    (cleans : ∀ now there, alike now there → alike (cleanup now) (cleanup there)) :
    Mirrors alike (Action.onFailure step cleanup) (Action.onFailure other cleanup) := by
  intro now there held
  unfold Action.onFailure
  obtain ⟨value, _, _, ran, ran', still⟩ | ⟨cause, _, _, ran, ran', still⟩ :=
    (inner now there held).split <;> rw [ran, ran']
  · exact .ok value still
  · exact .error cause (cleans _ _ still)

theorem ensuring {step other : EStateM ε σ α} {cleanup : σ → σ}
    (inner : Mirrors alike step other)
    (cleans : ∀ now there, alike now there → alike (cleanup now) (cleanup there)) :
    Mirrors alike (Action.ensuring step cleanup) (Action.ensuring other cleanup) := by
  intro now there held
  unfold Action.ensuring
  obtain ⟨value, _, _, ran, ran', still⟩ | ⟨cause, _, _, ran, ran', still⟩ :=
    (inner now there held).split <;> rw [ran, ran']
  · exact .ok value (cleans _ _ still)
  · exact .error cause (cleans _ _ still)

theorem foldlM {step : β → α → EStateM ε σ β}
    (each : ∀ value item, Mirrors alike (step value item) (step value item)) (items : List α)
    (value : β) : Mirrors alike (items.foldlM step value) (items.foldlM step value) := by
  induction items generalizing value with
  | nil => exact pure value
  | cons item rest ih =>
      rw [List.foldlM_cons]
      exact bind (each value item) ih

theorem mapM {step : α → EStateM ε σ β} (each : ∀ item, Mirrors alike (step item) (step item))
    (items : List α) : Mirrors alike (items.mapM step) (items.mapM step) := by
  induction items with
  | nil =>
      rw [List.mapM_nil]
      exact pure []
  | cons item rest ih =>
      rw [List.mapM_cons]
      exact bind (each item) fun _ => bind ih fun _ => pure _

end Mirrors

end TreeSync.Action

import TreeSync.Action

namespace TreeSync.Action

/-! How steps end.

`Meets` says of one state how a step that starts there ends, whether it fails or not.
`Keeps` says of every state that the step relates it to the state it leaves; for a
relation that accumulates this passes from the parts of a step to the whole.
-/

variable {ε δ σ τ α β : Type}

def Meets (step : EStateM ε σ α) (before : σ) (done : α → σ → Prop) (failed : ε → σ → Prop) :
    Prop :=
  match step before with
  | .ok value after => done value after
  | .error cause after => failed cause after

namespace Meets

variable {before : σ} {done done' : α → σ → Prop} {failed failed' : ε → σ → Prop}

theorem of_ok {step : EStateM ε σ α} {value : α} {after : σ}
    (meets : Meets step before done failed) (ran : step before = .ok value after) :
    done value after := by
  unfold Meets at meets
  rw [ran] at meets
  exact meets

theorem of_error {step : EStateM ε σ α} {cause : ε} {after : σ}
    (meets : Meets step before done failed) (ran : step before = .error cause after) :
    failed cause after := by
  unfold Meets at meets
  rw [ran] at meets
  exact meets

/-- A step that cannot fail succeeds. -/
theorem succeeds {step : EStateM ε σ α} (meets : Meets step before done fun _ _ => False) :
    ∃ value after, step before = .ok value after ∧ done value after := by
  cases ran : step before with
  | ok value after => exact ⟨value, after, rfl, meets.of_ok ran⟩
  | error cause after => exact (meets.of_error ran).elim

theorem intro {step : EStateM ε σ α}
    (succeeds : ∀ value after, step before = .ok value after → done value after)
    (fails : ∀ cause after, step before = .error cause after → failed cause after) :
    Meets step before done failed := by
  unfold Meets
  cases ran : step before with
  | ok value after => exact succeeds value after ran
  | error cause after => exact fails cause after ran

theorem mono {step : EStateM ε σ α} (meets : Meets step before done failed)
    (succeeds : ∀ value after, done value after → done' value after)
    (fails : ∀ cause after, failed cause after → failed' cause after) :
    Meets step before done' failed' :=
  intro (fun value after ran => succeeds value after (meets.of_ok ran))
    (fun cause after ran => fails cause after (meets.of_error ran))

/-- A step that comes to what another does. -/
theorem congr {step other : EStateM ε σ α} {first : σ} (same : step before = other first)
    (meets : Meets other first done failed) : Meets step before done failed := by
  unfold Meets at meets ⊢
  rwa [same]

theorem stateAfter {step : EStateM ε σ α} {final : σ → Prop}
    (meets : Meets step before (fun _ after => final after) (fun _ after => final after)) :
    final (stateAfter step before) := by
  unfold Action.stateAfter
  cases ran : step before with
  | ok value after => exact meets.of_ok ran
  | error cause after => exact meets.of_error ran

theorem left (step : EStateM ε σ α) :
    Meets step before (fun _ after => after = Action.stateAfter step before)
      (fun _ after => after = Action.stateAfter step before) := by
  unfold Meets Action.stateAfter
  cases step before <;> rfl

theorem ran (step : EStateM ε σ α) :
    Meets step before (fun value after => step before = .ok value after)
      (fun cause after => step before = .error cause after) :=
  intro (fun _ _ ran => ran) (fun _ _ ran => ran)

theorem pure {value : α} (holds : done value before) :
    Meets (Pure.pure value : EStateM ε σ α) before done failed :=
  holds

theorem throw {cause : ε} (holds : failed cause before) :
    Meets (MonadExcept.throw cause : EStateM ε σ α) before done failed :=
  holds

theorem bind {step : EStateM ε σ β} {rest : β → EStateM ε σ α} {middle : β → σ → Prop}
    (first : Meets step before middle failed)
    (next : ∀ value after, middle value after → Meets (rest value) after done failed) :
    Meets (step >>= rest) before done failed := by
  change Meets (EStateM.bind step rest) before done failed
  unfold Meets EStateM.bind
  cases ran : step before with
  | ok value after => exact next value after (first.of_ok ran)
  | error cause after => exact first.of_error ran

/-- Goes on after a step of which more is known than the whole needs. -/
theorem followedBy {step : EStateM ε σ β} {rest : β → EStateM ε σ α} {middle : β → σ → Prop}
    {missed : ε → σ → Prop} (first : Meets step before middle missed)
    (lost : ∀ cause after, missed cause after → failed cause after)
    (next : ∀ value after, middle value after → Meets (rest value) after done failed) :
    Meets (step >>= rest) before done failed :=
  bind (first.mono (fun _ _ met => met) lost) next

theorem get {rest : σ → EStateM ε σ α} (next : Meets (rest before) before done failed) :
    Meets (MonadState.get >>= rest) before done failed :=
  next

theorem change {change : σ → σ} {done : Unit → σ → Prop} (holds : done () (change before)) :
    Meets (modify change : EStateM ε σ Unit) before done failed :=
  holds

theorem changeThen {change : σ → σ} {rest : Unit → EStateM ε σ α}
    (next : Meets (rest ()) (change before) done failed) :
    Meets ((modify change : EStateM ε σ Unit) >>= rest) before done failed :=
  next

theorem cond {condition : Prop} [Decidable condition] {yes no : EStateM ε σ α}
    (holds : condition → Meets yes before done failed)
    (fails : ¬ condition → Meets no before done failed) :
    Meets (if condition then yes else no) before done failed := by
  split
  · next true => exact holds true
  · next false => exact fails false

theorem ofExcept {result : Except ε α} :
    Meets (MonadExcept.ofExcept result : EStateM ε σ α) before
      (fun value after => before = after ∧ result = .ok value) (fun _ after => before = after) := by
  cases result with
  | ok value => exact ⟨rfl, rfl⟩
  | error cause => rfl

theorem attempt {step : EStateM δ σ β} {rest : Except δ β → EStateM ε σ α}
    {middle : β → σ → Prop} {missed : δ → σ → Prop} (first : Meets step before middle missed)
    (next : ∀ value after, middle value after → Meets (rest (.ok value)) after done failed)
    (otherwise : ∀ cause after, missed cause after → Meets (rest (.error cause)) after done failed) :
    Meets (Action.attempt step >>= rest) before done failed := by
  change Meets (EStateM.bind (Action.attempt step) rest) before done failed
  unfold Meets EStateM.bind Action.attempt
  cases ran : step before with
  | ok value after => exact next value after (first.of_ok ran)
  | error cause after => exact otherwise cause after (first.of_error ran)

theorem explaining {explain : δ → ε} {step : EStateM δ σ α}
    (inner : Meets step before done (fun cause after => failed (explain cause) after)) :
    Meets (Action.explaining explain step) before done failed := by
  unfold Meets Action.explaining
  cases ran : step before with
  | ok value after => exact inner.of_ok ran
  | error cause after => exact inner.of_error ran

theorem within {part : σ → τ} {replace : τ → σ → σ} {step : EStateM ε τ α}
    (inner : Meets step (part before) (fun value after => done value (replace after before))
      (fun cause after => failed cause (replace after before))) :
    Meets (Action.within part replace step) before done failed := by
  unfold Meets Action.within
  cases ran : step (part before) with
  | ok value after => exact inner.of_ok ran
  | error cause after => exact inner.of_error ran

/-- A step within a part, told by what it comes to there. -/
theorem called (part : σ → τ) (replace : τ → σ → σ) (step : EStateM ε τ α) (before : σ) :
    Meets (Action.within part replace step) before
      (fun value after => ∃ inside, step (part before) = .ok value inside ∧
        after = replace inside before)
      (fun cause after => ∃ inside, step (part before) = .error cause inside ∧
        after = replace inside before) :=
  within <| intro (fun _ inside ran => ⟨inside, ran, rfl⟩) fun _ inside ran => ⟨inside, ran, rfl⟩

theorem withinThen {part : σ → τ} {replace : τ → σ → σ} {step : EStateM ε τ β}
    {rest : β → EStateM ε σ α} {middle : β → τ → Prop} {missed : ε → τ → Prop}
    (first : Meets step (part before) middle missed)
    (lost : ∀ cause inside, missed cause inside → failed cause (replace inside before))
    (next : ∀ value inside, middle value inside →
      Meets (rest value) (replace inside before) done failed) :
    Meets (Action.within part replace step >>= rest) before done failed := by
  change Meets (EStateM.bind (Action.within part replace step) rest) before done failed
  unfold Meets EStateM.bind Action.within
  cases ran : step (part before) with
  | ok value after => exact next value after (first.of_ok ran)
  | error cause after => exact lost cause after (first.of_error ran)

theorem onFailure {step : EStateM ε σ α} {cleanup : σ → σ}
    (inner : Meets step before done (fun cause after => failed cause (cleanup after))) :
    Meets (Action.onFailure step cleanup) before done failed := by
  unfold Meets Action.onFailure
  cases ran : step before with
  | ok value after => exact inner.of_ok ran
  | error cause after => exact inner.of_error ran

theorem ensuring {step : EStateM ε σ α} {cleanup : σ → σ}
    (inner : Meets step before (fun value after => done value (cleanup after))
      (fun cause after => failed cause (cleanup after))) :
    Meets (Action.ensuring step cleanup) before done failed := by
  unfold Meets Action.ensuring
  cases ran : step before with
  | ok value after => exact inner.of_ok ran
  | error cause after => exact inner.of_error ran

end Meets

theorem bind_ok {step : EStateM ε σ β} {rest : β → EStateM ε σ α} {value : β} {before after : σ}
    (ran : step before = .ok value after) : (step >>= rest) before = rest value after := by
  change EStateM.bind step rest before = _
  unfold EStateM.bind
  rw [ran]

theorem bind_error {step : EStateM ε σ β} {rest : β → EStateM ε σ α} {cause : ε}
    {before after : σ} (ran : step before = .error cause after) :
    (step >>= rest) before = .error cause after := by
  change EStateM.bind step rest before = _
  unfold EStateM.bind
  rw [ran]

theorem attempt_ok {step : EStateM δ σ α} {value : α} {before after : σ}
    (ran : step before = .ok value after) :
    (attempt step : EStateM ε σ (Except δ α)) before = .ok (.ok value) after := by
  unfold attempt
  rw [ran]

theorem attempt_error {step : EStateM δ σ α} {cause : δ} {before after : σ}
    (ran : step before = .error cause after) :
    (attempt step : EStateM ε σ (Except δ α)) before = .ok (.error cause) after := by
  unfold attempt
  rw [ran]

/-- Steps that were made one after the other have both succeeded. -/
theorem of_bind_ok {step : EStateM ε σ β} {rest : β → EStateM ε σ α} {value : α} {before after : σ}
    (ran : (step >>= rest) before = .ok value after) :
    ∃ middle between, step before = .ok middle between ∧ rest middle between = .ok value after := by
  cases head : step before with
  | ok middle between => exact ⟨middle, between, rfl, (bind_ok head).symm.trans ran⟩
  | error cause between =>
      rw [bind_error head] at ran
      cases ran

theorem of_explaining_ok {explain : δ → ε} {step : EStateM δ σ α} {value : α} {before after : σ}
    (ran : explaining explain step before = .ok value after) : step before = .ok value after := by
  unfold explaining at ran
  cases head : step before with
  | ok value' between =>
      rw [head] at ran
      cases ran
      rfl
  | error cause between =>
      rw [head] at ran
      cases ran

theorem of_within_ok {part : σ → τ} {replace : τ → σ → σ} {step : EStateM ε τ α} {value : α}
    {before after : σ} (ran : within part replace step before = .ok value after) :
    ∃ inside, step (part before) = .ok value inside ∧ after = replace inside before := by
  unfold within at ran
  cases head : step (part before) with
  | ok value' inside =>
      rw [head] at ran
      cases ran
      exact ⟨inside, rfl, rfl⟩
  | error cause inside =>
      rw [head] at ran
      cases ran

theorem ensuring_congr {step step' : EStateM ε σ α} {cleanup : σ → σ} {before before' : σ}
    (same : step before = step' before') :
    ensuring step cleanup before = ensuring step' cleanup before' := by
  unfold ensuring
  rw [same]

theorem ensuring_error {step : EStateM ε σ α} {cleanup : σ → σ} {cause : ε} {before after : σ}
    (ran : step before = .error cause after) :
    ensuring step cleanup before = .error cause (cleanup after) := by
  unfold ensuring
  rw [ran]

theorem ensuring_ok {step : EStateM ε σ α} {cleanup : σ → σ} {value : α} {before after : σ}
    (ran : ensuring step cleanup before = .ok value after) :
    ∃ inner, step before = .ok value inner ∧ after = cleanup inner := by
  unfold ensuring at ran
  cases ended : step before with
  | ok value inner =>
      rw [ended] at ran
      cases ran
      exact ⟨inner, rfl, rfl⟩
  | error cause inner =>
      rw [ended] at ran
      cases ran

theorem stateAfter_ok {step : EStateM ε σ α} {value : α} {before after : σ}
    (ran : step before = .ok value after) : stateAfter step before = after := by
  unfold stateAfter
  rw [ran]

theorem stateAfter_error {step : EStateM ε σ α} {cause : ε} {before after : σ}
    (ran : step before = .error cause after) : stateAfter step before = after := by
  unfold stateAfter
  rw [ran]

theorem stateAfter_congr {step step' : EStateM ε σ α} {before before' : σ}
    (same : step before = step' before') : stateAfter step before = stateAfter step' before' := by
  unfold stateAfter
  rw [same]

theorem stateAfter_ensuring (step : EStateM ε σ α) (cleanup : σ → σ) (before : σ) :
    stateAfter (ensuring step cleanup) before = cleanup (stateAfter step before) := by
  unfold stateAfter ensuring
  cases step before <;> rfl

/-- Tests how a step ended, if it succeeded. -/
def endsIn (result : EStateM.Result ε σ α) (test : α → σ → Bool) : Bool :=
  match result with
  | .ok value after => test value after
  | .error _ _ => false

theorem of_endsIn {result : EStateM.Result ε σ α} {test : α → σ → Bool}
    (ends : endsIn result test = true) :
    ∃ value after, result = .ok value after ∧ test value after = true := by
  cases result with
  | ok value after => exact ⟨value, after, rfl, ends⟩
  | error cause after => cases ends

def failsIn (result : EStateM.Result ε σ α) (test : ε → σ → Bool) : Bool :=
  match result with
  | .ok _ _ => false
  | .error cause after => test cause after

theorem of_failsIn {result : EStateM.Result ε σ α} {test : ε → σ → Bool}
    (fails : failsIn result test = true) :
    ∃ cause after, result = .error cause after ∧ test cause after = true := by
  cases result with
  | ok value after => cases fails
  | error cause after => exact ⟨cause, after, rfl, fails⟩

structure Accumulates (relation : σ → σ → Prop) : Prop where
  refl : ∀ state, relation state state
  trans : ∀ {first second third}, relation first second → relation second third →
    relation first third

theorem Accumulates.eq : Accumulates (σ := σ) Eq :=
  ⟨fun _ => rfl, Eq.trans⟩

theorem Accumulates.any : Accumulates fun _ _ : σ => True :=
  ⟨fun _ => trivial, fun _ _ => trivial⟩

theorem Accumulates.on {relation : τ → τ → Prop} (accumulates : Accumulates relation)
    (part : σ → τ) : Accumulates fun before after => relation (part before) (part after) :=
  ⟨fun _ => accumulates.refl _, accumulates.trans⟩

def Keeps (relation : σ → σ → Prop) (step : EStateM ε σ α) (good : α → Prop := fun _ => True) :
    Prop :=
  ∀ before, Meets step before (fun value after => relation before after ∧ good value)
    (fun _ after => relation before after)

namespace Keeps

variable {relation : σ → σ → Prop} {good : α → Prop}

theorem after {step : EStateM ε σ α} (keeps : Keeps relation step good) (before : σ) :
    relation before (stateAfter step before) :=
  Meets.stateAfter ((keeps before).mono (fun _ _ => And.left) (fun _ _ => id))

theorem meets {step : EStateM ε σ α} (keeps : Keeps relation step good) (before : σ) :
    Meets step before (fun _ after => relation before after) (fun _ after => relation before after) :=
  (keeps before).mono (fun _ _ => And.left) (fun _ _ => id)

/-- Goes on from a state that the relation allows already. -/
theorem onward (accumulates : Accumulates relation) {step : EStateM ε σ α} {first before : σ}
    (keeps : Keeps relation step good) (earlier : relation first before) :
    Meets step before (fun _ after => relation first after) (fun _ after => relation first after) :=
  (keeps.meets before).mono (fun _ _ => accumulates.trans earlier)
    (fun _ _ => accumulates.trans earlier)

theorem mono {step : EStateM ε σ α} {relation' : σ → σ → Prop} {good' : α → Prop}
    (keeps : Keeps relation step good)
    (wider : ∀ before after, relation before after → relation' before after)
    (weaker : ∀ value, good value → good' value) : Keeps relation' step good' :=
  fun before => (keeps before).mono
    (fun value after both => ⟨wider before after both.1, weaker value both.2⟩)
    (fun _ after => wider before after)

theorem forget {step : EStateM ε σ α} (keeps : Keeps relation step good) : Keeps relation step :=
  keeps.mono (fun _ _ => id) (fun _ _ => trivial)

theorem pure (accumulates : Accumulates relation) {value : α} (fine : good value) :
    Keeps relation (Pure.pure value : EStateM ε σ α) good :=
  fun before => Meets.pure ⟨accumulates.refl before, fine⟩

theorem throw (accumulates : Accumulates relation) {cause : ε} :
    Keeps relation (MonadExcept.throw cause : EStateM ε σ α) good :=
  fun before => Meets.throw (accumulates.refl before)

theorem bind (accumulates : Accumulates relation) {step : EStateM ε σ β}
    {rest : β → EStateM ε σ α} {middle : β → Prop} (first : Keeps relation step middle)
    (next : ∀ value, middle value → Keeps relation (rest value) good) :
    Keeps relation (step >>= rest) good := fun before =>
  Meets.bind (first before) fun value after held => (next value held.2 after).mono
    (fun _ _ later => ⟨accumulates.trans held.1 later.1, later.2⟩)
    (fun _ _ later => accumulates.trans held.1 later)

theorem get {rest : σ → EStateM ε σ α} (next : ∀ state, Keeps relation (rest state) good) :
    Keeps relation (MonadState.get >>= rest) good :=
  fun before => Meets.get (next before before)

theorem cond {condition : Prop} [Decidable condition] {yes no : EStateM ε σ α}
    (holds : Keeps relation yes good) (fails : Keeps relation no good) :
    Keeps relation (if condition then yes else no) good :=
  fun before => Meets.cond (fun _ => holds before) (fun _ => fails before)

/-- Goes on after a step that is only made on some condition. -/
theorem optional (accumulates : Accumulates relation) {condition : Prop} [Decidable condition]
    {step : EStateM ε σ Unit} {rest : Unit → EStateM ε σ α} (first : Keeps relation step)
    (next : Keeps relation (rest ()) good) :
    Keeps relation (if condition then step >>= rest else rest ()) good :=
  cond (bind accumulates first fun _ _ => next) next

theorem change {change : σ → σ} (holds : ∀ before, relation before (change before)) :
    Keeps relation (modify change : EStateM ε σ Unit) :=
  fun before => Meets.change ⟨holds before, trivial⟩

theorem ofExcept (accumulates : Accumulates relation) {result : Except ε α}
    (fine : ∀ value, result = .ok value → good value) :
    Keeps relation (MonadExcept.ofExcept result : EStateM ε σ α) good :=
  fun before => Meets.ofExcept.mono
    (fun value _ met => ⟨met.1 ▸ accumulates.refl before, fine value met.2⟩)
    (fun _ _ same => same ▸ accumulates.refl before)

theorem attempt {step : EStateM δ σ β} (inner : Keeps relation step) :
    Keeps relation (Action.attempt step : EStateM ε σ (Except δ β)) := by
  intro before
  have held := inner.after before
  unfold Meets Action.attempt
  unfold stateAfter at held
  cases ran : step before with
  | ok value after =>
      rw [ran] at held
      exact ⟨held, trivial⟩
  | error cause after =>
      rw [ran] at held
      exact ⟨held, trivial⟩

theorem explaining {explain : δ → ε} {step : EStateM δ σ α} (inner : Keeps relation step good) :
    Keeps relation (Action.explaining explain step) good :=
  fun before => Meets.explaining (inner before)

theorem within {inside : τ → τ → Prop} {part : σ → τ} {replace : τ → σ → σ}
    {step : EStateM ε τ α} (inner : Keeps inside step good)
    (lift : ∀ before after, inside (part before) after → relation before (replace after before)) :
    Keeps relation (Action.within part replace step) good :=
  fun before => Meets.within ((inner (part before)).mono
    (fun _ after held => ⟨lift before after held.1, held.2⟩) (fun _ after => lift before after))

theorem foldlM (accumulates : Accumulates relation) {step : β → α → EStateM ε σ β}
    (each : ∀ value item, Keeps relation (step value item)) (items : List α) (value : β) :
    Keeps relation (items.foldlM step value) := by
  induction items generalizing value with
  | nil => exact pure accumulates trivial
  | cons item rest ih =>
      rw [List.foldlM_cons]
      exact bind accumulates (each value item) fun next _ => ih next

theorem mapM (accumulates : Accumulates relation) {step : α → EStateM ε σ β}
    (each : ∀ item, Keeps relation (step item)) (items : List α) :
    Keeps relation (items.mapM step) := by
  induction items with
  | nil =>
      rw [List.mapM_nil]
      exact pure accumulates trivial
  | cons item rest ih =>
      rw [List.mapM_cons]
      exact bind accumulates (each item) fun _ _ => bind accumulates ih fun _ _ =>
        pure accumulates trivial

end Keeps

section

variable {relation : σ → σ → Prop}

/-- Whether a result leaves a state that the relation allows after `before`. -/
def Leaves (relation : σ → σ → Prop) (before : σ) : EStateM.Result ε σ α → Prop
  | .ok _ after | .error _ after => relation before after

theorem Leaves.after {before middle : σ} {result : EStateM.Result ε σ α}
    (accumulates : Accumulates relation) (earlier : relation before middle)
    (later : Leaves relation middle result) : Leaves relation before result := by
  cases result <;> exact accumulates.trans earlier later

theorem Keeps.of_leaves {step : EStateM ε σ α}
    (leaves : ∀ before, Leaves relation before (step before)) : Keeps relation step := by
  intro before
  have left := leaves before
  refine Meets.intro (fun value after ran => ⟨?_, trivial⟩) fun cause after ran => ?_ <;>
    rwa [ran] at left

theorem Keeps.leaves {step : EStateM ε σ α} (keeps : Keeps relation step) (before : σ) :
    Leaves relation before (step before) := by
  cases ran : step before with
  | ok value after => exact (Meets.of_ok (keeps before) ran).1
  | error cause after => exact (keeps before).of_error ran

theorem Keeps.of_ok {step : EStateM ε σ α} (keeps : Keeps relation step) {before after : σ}
    {value : α} (ran : step before = .ok value after) : relation before after :=
  (Meets.of_ok (keeps before) ran).1

theorem Keeps.of_error {step : EStateM ε σ α} (keeps : Keeps relation step) {before after : σ}
    {cause : ε} (ran : step before = .error cause after) : relation before after :=
  (keeps before).of_error ran

theorem Keeps.any (step : EStateM ε σ α) : Keeps (fun _ _ => True) step :=
  .of_leaves fun before => by cases step before <;> trivial

theorem Keeps.and {other : σ → σ → Prop} {step : EStateM ε σ α} (first : Keeps relation step)
    (second : Keeps other step) :
    Keeps (fun before after => relation before after ∧ other before after) step :=
  .of_leaves fun before => by
    have left := first.leaves before
    have right := second.leaves before
    cases ran : step before <;> rw [ran] at left right <;> exact ⟨left, right⟩

/-- A relation that is only asked for on some condition. -/
theorem Keeps.given {given : Prop} {step : EStateM ε σ α} (keeps : given → Keeps relation step) :
    Keeps (fun before after => given → relation before after) step := by
  by_cases holds : given
  · exact (keeps holds).mono (fun _ _ kept _ => kept) fun _ _ => trivial
  · exact (Keeps.any step).mono (fun _ _ _ other => absurd other holds) fun _ _ => trivial

/-- A step within a part keeps what putting back any part keeps. -/
theorem Keeps.aside {part : σ → τ} {replace : τ → σ → σ} {step : EStateM ε τ α}
    (apart : ∀ inside before, relation before (replace inside before)) :
    Keeps relation (Action.within part replace step) := by
  intro before
  refine Meets.within (Meets.intro ?_ ?_)
  · exact fun _ after _ => ⟨apart after before, trivial⟩
  · exact fun _ after _ => apart after before

end

end TreeSync.Action

import TreeSync.Proofs.Run.Stages

namespace TreeSync

/-! Why runs fail.

Every failure of a run but one is brought about by something that happened. The one that is
not says that the rounds of an exchange were too many, and only the exchange may end in it.
-/

open TreeSync.Action

/-- Whether something that happened brought a failure about, and not the number of rounds. -/
def Failure.Caused (failure : Failure) : Prop :=
  ∀ rounds, failure ≠ .stalled rounds

theorem Failure.caused_ofTransport (step : String) (cause : Fault) :
    (ofTransport step cause).Caused := by
  unfold ofTransport
  split <;> nofun

/-- Whether a step can only fail because something happened. -/
def Grounded {σ α : Type} (step : EStateM Failure σ α) : Prop :=
  ∀ before, Meets step before (fun _ _ => True) (fun failure _ => failure.Caused)

namespace Grounded

variable {σ τ α β : Type}

theorem pure {value : α} : Grounded (Pure.pure value : EStateM Failure σ α) :=
  fun _ => Meets.pure trivial

theorem throw {failure : Failure} (caused : failure.Caused) :
    Grounded (MonadExcept.throw failure : EStateM Failure σ α) :=
  fun _ => Meets.throw caused

theorem bind {step : EStateM Failure σ β} {rest : β → EStateM Failure σ α} (first : Grounded step)
    (next : ∀ value, Grounded (rest value)) : Grounded (step >>= rest) :=
  fun before => (first before).bind fun value after _ => next value after

theorem get {rest : σ → EStateM Failure σ α} (next : ∀ state, Grounded (rest state)) :
    Grounded (MonadState.get >>= rest) :=
  fun before => Meets.get (next before before)

theorem change {change : σ → σ} : Grounded (modify change : EStateM Failure σ Unit) :=
  fun _ => Meets.change trivial

theorem cond {condition : Prop} [Decidable condition] {yes no : EStateM Failure σ α}
    (holds : Grounded yes) (fails : Grounded no) : Grounded (if condition then yes else no) :=
  fun before => Meets.cond (fun _ => holds before) fun _ => fails before

theorem optional {condition : Prop} [Decidable condition] {step : EStateM Failure σ Unit}
    {rest : Unit → EStateM Failure σ α} (first : Grounded step) (next : Grounded (rest ())) :
    Grounded (if condition then step >>= rest else rest ()) :=
  cond (bind first fun _ => next) next

theorem explaining {ε : Type} {explain : ε → Failure} (step : EStateM ε σ α)
    (caused : ∀ cause, (explain cause).Caused) : Grounded (Action.explaining explain step) :=
  fun _ => Meets.explaining (Meets.intro (fun _ _ _ => trivial) fun cause _ _ => caused cause)

theorem within {part : σ → τ} {replace : τ → σ → σ} {step : EStateM Failure τ α}
    (inner : Grounded step) : Grounded (Action.within part replace step) :=
  fun before => Meets.within ((inner (part before)).mono (fun _ _ => id) fun _ _ => id)

theorem attempt {ε : Type} (step : EStateM ε σ α) :
    Grounded (Action.attempt step : EStateM Failure σ (Except ε α)) := fun before => by
  unfold Meets Action.attempt
  cases step before <;> trivial

theorem foldlM {step : β → α → EStateM Failure σ β}
    (each : ∀ value item, Grounded (step value item))
    (items : List α) (value : β) : Grounded (items.foldlM step value) := by
  induction items generalizing value with
  | nil => exact pure
  | cons item rest ih =>
      rw [List.foldlM_cons]
      exact bind (each value item) fun next => ih next

theorem mapM {step : α → EStateM Failure σ β} (each : ∀ item, Grounded (step item))
    (items : List α) : Grounded (items.mapM step) := by
  induction items with
  | nil =>
      rw [List.mapM_nil]
      exact pure
  | cons item rest ih =>
      rw [List.mapM_cons]
      exact bind (each item) fun _ => bind ih fun _ => pure

end Grounded

namespace Destination

theorem contents_grounded (root : Path) : Grounded (contents root) := by
  refine .bind (.attempt _) fun found => ?_
  split
  · exact .cond .pure (.throw nofun)
  · exact .pure
  · refine .bind .change fun _ => .get fun _ => .bind (.mapM (fun item => ?_) _) fun _ => ?_
    · exact .cond (.throw nofun) (.bind .change fun _ => .pure)
    · exact .bind .change fun _ => .pure

theorem reportRemoval_grounded (removals : Removals) (entry : FoundEntry) :
    Grounded (reportRemoval removals entry) :=
  .bind .change fun _ => .pure

theorem planRemovals_grounded (found : List FoundEntry) (listed : List ListEntry) :
    Grounded (planRemovals found listed) :=
  .foldlM reportRemoval_grounded _ _

theorem pruneAll_grounded (root : Location) (found : List FoundEntry) (listed : List ListEntry) :
    Grounded (pruneAll root found listed) := by
  refine .bind (.foldlM (fun removals entry => ?_) _ _) fun _ => .bind .change fun _ => .pure
  exact .bind (.explaining _ fun _ => nofun) fun _ => reportRemoval_grounded removals entry

theorem fixUp_grounded {μ : Type} [DirectoryKeeper μ] (options : FixupOptions)
    (files : List ListEntry)
    (marks : NewDirectories) :
    Grounded (fixUp options files marks : EStateM Failure (Fixing μ) Fixups) := by
  have fixes (step : String) (path : Path) (call : EStateM Fault μ Unit) (report : String) :
      Grounded (fixOne step path call report) :=
    .bind (.explaining _ fun _ => nofun) fun _ => .change
  refine .cond (.foldlM (fun done item => ?_) _ _) .pure
  refine .cond (.bind (.cond (.bind (fixes _ _ _ _) fun _ => .pure) .pure) fun _ => ?_) .pure
  exact .cond (.bind (fixes _ _ _ _) fun _ => .pure) .pure

end Destination

namespace Running

variable {υ δ ς κ : Type}

theorem receive_grounded {α : Type} (step : String) (action : EStateM Fault (Inflow κ) α) :
    Grounded (receive step action : Step υ δ ς κ α) :=
  .explaining _ (Failure.caused_ofTransport step)

theorem onRoot_grounded {α : Type} (step : String) (root : Path) (action : EStateM Fault Disk α) :
    Grounded (onRoot step root action : Step υ δ ς κ α) :=
  .explaining _ fun _ => nofun

theorem onSandbox_grounded (step : String) (root : Path)
    (action : EStateM Fault (Confining ς) Unit) :
    Grounded (onSandbox step root action : Step υ δ ς κ Unit) :=
  .explaining _ fun _ => nofun

theorem send_grounded [ByteSink κ] (step : String) (emission : Emission) :
    Grounded (send step emission : Step υ δ ς κ Unit) :=
  .explaining _ (Failure.caused_ofTransport step)

theorem clear_grounded {root : Path} {directory : Option Location} {files : List ListEntry}
    {before : Running υ δ ς κ} (prunes : before.endpoint.prune = Destination.pruneAll) :
    Meets (clear root directory files) before (fun _ _ => True)
      (fun failure _ => failure.Caused) := by
  have removes (found : List FoundEntry) :
      Grounded (removeFound before.endpoint directory found files : Step υ δ ς κ Removals) := by
    cases directory with
    | none => exact .within (Destination.planRemovals_grounded _ _)
    | some root =>
        refine .within ?_
        rw [prunes]
        exact Destination.pruneAll_grounded _ _ _
  refine Meets.get (Meets.cond (fun _ => ?_) fun _ => Meets.pure trivial)
  exact Grounded.bind (.within (Destination.contents_grounded root)) removes before

section

variable [Connection κ] [Sandbox ς]

theorem prepare_grounded (root : Path) :
    Grounded (prepare root : Step υ δ ς κ (Option (List ListEntry))) := by
  have lists : Grounded (receiveList : Step υ δ ς κ (List ListEntry)) := by
    refine .bind (receive_grounded _ _) fun _ => .bind (receive_grounded _ _) fun _ => ?_
    exact .cond (.throw nofun) .pure
  refine .get fun _ => .bind (onSandbox_grounded _ _ _) fun _ => ?_
  refine .optional (send_grounded _ _) (.bind lists fun files => ?_)
  refine .cond (.bind .change fun _ => .pure) (.optional .change (.bind .change fun _ => ?_))
  exact .optional (onRoot_grounded _ _ _) .pure

/-- What fails before the exchange of a run fails because of something. -/
theorem readying_grounded {root : Path} {start : Running υ δ ς κ}
    (prunes : start.endpoint.prune = Destination.pruneAll) :
    Meets (readying root) start (fun _ _ => True) (fun failure _ => failure.Caused) := by
  have opens : Meets (opening root) start
      (fun _ opened => opened.endpoint.prune = Destination.pruneAll)
      (fun failure _ => failure.Caused) := by
    refine (Meets.ran (prepare root)).followedBy (fun _ _ ran => ?_) fun found prepared ran => ?_
    · exact (prepare_grounded root start).of_error ran
    · have prepares := ((prepare_proceeds root start).of_ok ran).1.prune
      cases found with
      | none => exact Meets.pure (prepares.trans prunes)
      | some files =>
          refine Meets.get (Meets.changeThen ?_)
          have opensRoot : Grounded (openRoot root : Step υ δ ς κ (Option Location)) :=
            .get fun _ => .cond .pure (.bind (onRoot_grounded _ _ _) fun _ => .pure)
          refine (Meets.ran (openRoot root)).followedBy (fun _ _ ran => ?_) fun _ _ ran => ?_
          · exact (opensRoot _).of_error ran
          · have proceeds : Keeps (Proceeds fun _ _ => False)
                (openRoot root : Step υ δ ς κ (Option Location)) := openRoot_proceeds root
            have keeps := ((proceeds _).of_ok ran).1.prune
            exact Meets.pure (keeps.trans (prepares.trans prunes))
  refine opens.bind fun found opened pruning => ?_
  cases found with
  | none => exact Meets.pure trivial
  | some task =>
      have ready : Meets (makeReady root task.root task.files) opened (fun _ _ => True)
          (fun failure _ => failure.Caused) := by
        rw [makeReady_eq]
        refine (clear_grounded pruning).bind fun removals middle _ => ?_
        refine Grounded.bind (onSandbox_grounded _ _ _) (fun _ => ?_) middle
        exact .bind .change fun _ => .pure
      exact ready.bind fun _ _ _ => options_then (Meets.pure trivial)

omit [Sandbox ς] in
theorem conclude_grounded (root : Path) (directory : Option Location) (files : List ListEntry)
    (removals : Removals) (phase : Phase) (marks : NewDirectories) :
    Grounded (conclude root directory files removals phase marks : Step υ δ ς κ Outcome) := by
  have fixes : Grounded (fixUp directory files marks : Step υ δ ς κ Fixups) := by
    cases directory with
    | none => exact .pure
    | some root => exact .get fun _ => .within (Destination.fixUp_grounded _ _ _)
  have agrees : Grounded (agreeOnEnd phase : Step υ δ ς κ Phase) := by
    refine .bind (send_grounded _ _) fun _ => .bind (receive_grounded _ _) fun _ => ?_
    split
    · exact .throw nofun
    · exact .bind .change fun _ => .pure
  have totals : Grounded (receiveTotals : Step υ δ ς κ (Option Totals)) := by
    refine .get fun _ => .cond .pure (.bind (receive_grounded _ _) fun _ => ?_)
    exact .bind .change fun _ => .pure
  refine .bind .change fun _ => .bind fixes fun _ => .bind agrees fun _ => .bind totals fun _ => ?_
  exact .bind (send_grounded _ _) fun _ => .bind .change fun _ => .pure

end

end Running

end TreeSync

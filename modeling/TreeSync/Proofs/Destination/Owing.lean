import TreeSync.Proofs.Outcomes
import TreeSync.Rehearsal.Recorders

namespace TreeSync

/-! What the directories of a list are owed.

Fixing them up comes to a list of calls that is known beforehand. They are made in order on
whatever keeps the directories, and the first that is refused is the last that is made.
-/

open TreeSync.Action

namespace KeeperCall

variable {μ : Type} [DirectoryKeeper μ]

def perform : KeeperCall → EStateM Fault μ Unit
  | setTime path mtime => DirectoryKeeper.setTime path mtime
  | setPermissions path permissions => DirectoryKeeper.setPermissions path permissions

/-- How the fixing up fails once a call is refused. -/
def refusal (fault : Fault) : KeeperCall → Failure
  | setTime path _ => .filesystem "utimensat" path fault
  | setPermissions path _ => .filesystem "fchmodat" path fault

def isTime : KeeperCall → Bool
  | setTime _ _ => true
  | setPermissions _ _ => false

/-- What was fixed up once some calls were made. -/
def credit (calls : List KeeperCall) (done : Fixups) : Fixups where
  times := done.times + calls.countP isTime
  permissions := done.permissions + calls.countP (!·.isTime)

theorem credit_append (calls more : List KeeperCall) (done : Fixups) :
    credit more (credit calls done) = credit (calls ++ more) done := by
  simp only [credit, List.countP_append, Nat.add_assoc]

/-- Calls that are granted one after the other. -/
inductive Granted (before : μ) : List KeeperCall → μ → Prop
  | none : Granted before [] before
  | next {calls : List KeeperCall} {call : KeeperCall} {middle after : μ}
      (earlier : Granted before calls middle) (done : call.perform middle = .ok () after) :
      Granted before (calls ++ [call]) after

/-- Calls the first of which to be refused ends them. -/
inductive Refused (before : μ) (calls : List KeeperCall) (failure : Failure) (after : μ) : Prop
  | ended {issued rest : List KeeperCall} {call : KeeperCall} {middle : μ} {fault : Fault}
      (order : calls = issued ++ call :: rest) (earlier : Granted before issued middle)
      (failed : call.perform middle = .error fault after) (cause : failure = call.refusal fault)

namespace Granted

variable {before middle after : μ} {calls more : List KeeperCall}

theorem one {call : KeeperCall} (done : call.perform before = .ok () after) :
    Granted before [call] after :=
  .next .none done

theorem append (first : Granted before calls middle) (second : Granted middle more after) :
    Granted before (calls ++ more) after := by
  induction second with
  | none => exact (List.append_nil calls).symm ▸ first
  | next _ done ih => exact List.append_assoc _ _ _ ▸ .next ih done

end Granted

namespace Refused

variable {before middle after : μ} {calls more : List KeeperCall} {failure : Failure}

theorem extend (refused : Refused before calls failure after) (more : List KeeperCall) :
    Refused before (calls ++ more) failure after := by
  obtain ⟨rfl, earlier, failed, cause⟩ := refused
  exact .ended (List.append_assoc _ _ _) earlier failed cause

theorem later (granted : Granted before calls middle) (refused : Refused middle more failure after) :
    Refused before (calls ++ more) failure after := by
  obtain ⟨rfl, earlier, failed, cause⟩ := refused
  exact .ended (List.append_assoc _ _ _).symm (granted.append earlier) failed cause

end Refused

end KeeperCall

/-- A keeper of directories together with what it was asked to do, and with the faults of what
it refused. -/
structure Watched (μ : Type) where
  keeper : μ
  log : List (KeeperCall × Option Fault) := []

namespace Watched

variable {μ : Type} [DirectoryKeeper μ]

def ask (call : KeeperCall) : EStateM Fault (Watched μ) Unit := fun watched =>
  match call.perform watched.keeper with
  | .ok _ keeper => .ok () ⟨keeper, watched.log ++ [(call, none)]⟩
  | .error fault keeper => .error fault ⟨keeper, watched.log ++ [(call, some fault)]⟩

instance : DirectoryKeeper (Watched μ) where
  setTime path mtime := ask (.setTime path mtime)
  setPermissions path permissions := ask (.setPermissions path permissions)

theorem perform_asks (call : KeeperCall) (watched : Watched μ) :
    Meets call.perform watched
      (fun _ after => call.perform watched.keeper = .ok () after.keeper ∧
        after.log = watched.log ++ [(call, none)])
      (fun fault after => call.perform watched.keeper = .error fault after.keeper ∧
        after.log = watched.log ++ [(call, some fault)]) := by
  have asks : call.perform watched = ask call watched := by cases call <;> rfl
  refine Meets.congr asks ?_
  unfold Meets ask
  cases call.perform watched.keeper <;> exact ⟨rfl, rfl⟩

theorem of_granted {before after : Watched μ} {calls : List KeeperCall}
    (granted : KeeperCall.Granted before calls after) :
    KeeperCall.Granted before.keeper calls after.keeper ∧
      after.log = before.log ++ calls.map (·, none) := by
  induction granted with
  | none => exact ⟨.none, (List.append_nil _).symm⟩
  | next _ done ih =>
      obtain ⟨performed, logged⟩ := (perform_asks _ _).of_ok done
      refine ⟨.next ih.1 performed, ?_⟩
      rw [logged, ih.2, List.map_append, List.append_assoc]
      rfl

end Watched

namespace Destination

open KeeperCall

/-- What the entry at an index is owed, if it is a directory. -/
def owedTo (options : FixupOptions) (marks : NewDirectories) (entry : ListEntry) (index : Nat) :
    List KeeperCall :=
  if entry.isDirectory then
    (if options.preserveTimes then [.setTime entry.path entry.mtime] else []) ++
      if marks.isNew index || options.preservePermissions then
        [.setPermissions entry.path entry.permissions]
      else []
  else []

/-- What the directories of a list are owed, in its order. -/
def owed (options : FixupOptions) (files : List ListEntry) (marks : NewDirectories) :
    List KeeperCall :=
  if options.recursive then
    files.zipIdx.flatMap fun item => owedTo options marks item.1 item.2
  else []

variable {μ : Type} [DirectoryKeeper μ]

/-- A step that makes some calls and counts them, unless one is refused. -/
def Makes (calls : List KeeperCall) (step : Fixups → EStateM Failure (Fixing μ) Fixups) : Prop :=
  ∀ done fixing, Meets (step done) fixing
    (fun done' after => Granted fixing.keeper calls after.keeper ∧ done' = credit calls done)
    (fun failure after => Refused fixing.keeper calls failure after.keeper)

namespace Makes

variable {calls more : List KeeperCall} {step next : Fixups → EStateM Failure (Fixing μ) Fixups}

theorem none : Makes [] (pure : Fixups → EStateM Failure (Fixing μ) Fixups) :=
  fun _ _ => Meets.pure ⟨.none, rfl⟩

theorem andThen (first : Makes calls step) (second : Makes more next) :
    Makes (calls ++ more) fun done => step done >>= next := by
  intro done fixing
  refine (first done fixing).followedBy (fun _ _ refused => refused.extend more) ?_
  rintro _ middle ⟨granted, rfl⟩
  refine (second _ middle).mono ?_ fun _ _ refused => refused.later granted
  rintro _ after ⟨granted', rfl⟩
  exact ⟨granted.append granted', credit_append _ _ _⟩

theorem foldlM {α : Type} {step : Fixups → α → EStateM Failure (Fixing μ) Fixups}
    {calls : α → List KeeperCall} (each : ∀ item, Makes (calls item) (step · item))
    (items : List α) : Makes (items.flatMap calls) fun done => items.foldlM step done := by
  induction items with
  | nil => exact none
  | cons item rest ih =>
      simp only [List.flatMap_cons, List.foldlM_cons]
      exact (each item).andThen ih

end Makes

theorem fixOne_performs (call : KeeperCall) {step : String} {path : Path} (report : String)
    (named : ∀ fault, call.refusal fault = .filesystem step path fault) (fixing : Fixing μ) :
    Meets (fixOne step path call.perform report) fixing
      (fun _ after => Granted fixing.keeper [call] after.keeper)
      (fun failure after => Refused fixing.keeper [call] failure after.keeper) := by
  have called : Meets (explaining (.filesystem step path)
      (within Fixing.keeper (fun keeper fixing => { fixing with keeper }) call.perform)) fixing
      (fun _ after => Granted fixing.keeper [call] after.keeper)
      (fun failure after => Refused fixing.keeper [call] failure after.keeper) := by
    refine Meets.explaining (Meets.within ((Meets.ran call.perform).mono ?_ ?_))
    · exact fun _ _ done => .one done
    · exact fun fault _ failed => .ended rfl .none failed (named fault).symm
  exact called.bind fun _ _ granted => Meets.change granted

theorem fixTime_makes (options : FixupOptions) (entry : ListEntry) :
    Makes (if options.preserveTimes then [.setTime entry.path entry.mtime] else [])
      (fixTime (μ := μ) options entry) := by
  intro done fixing
  unfold fixTime
  split
  · refine (fixOne_performs (.setTime entry.path entry.mtime) _ (fun _ => rfl) fixing).bind ?_
    exact fun _ _ granted => Meets.pure ⟨granted, rfl⟩
  · exact Makes.none done fixing

theorem fixPermissions_makes (options : FixupOptions) (isNew : Bool) (entry : ListEntry) :
    Makes (if isNew || options.preservePermissions then
        [.setPermissions entry.path entry.permissions]
      else [])
      (fixPermissions (μ := μ) options isNew entry) := by
  intro done fixing
  unfold fixPermissions
  split
  · refine (fixOne_performs (.setPermissions entry.path entry.permissions) _ (fun _ => rfl)
      fixing).bind ?_
    exact fun _ _ granted => Meets.pure ⟨granted, rfl⟩
  · exact Makes.none done fixing

theorem fixEntry_makes (options : FixupOptions) (marks : NewDirectories) (item : ListEntry × Nat) :
    Makes (owedTo options marks item.1 item.2) (fixEntry (μ := μ) options marks · item) := by
  obtain ⟨entry, index⟩ := item
  intro done fixing
  refine Meets.cond (fun directory => ?_) fun other => ?_
  · rw [owedTo, if_pos directory]
    exact (fixTime_makes options entry).andThen
      (fixPermissions_makes options (marks.isNew index) entry) done fixing
  · rw [owedTo, if_neg other]
    exact Makes.none done fixing

/-- Fixing up makes the calls that are owed, up to the first that is refused. -/
theorem fixUp_makes (options : FixupOptions) (files : List ListEntry) (marks : NewDirectories)
    (fixing : Fixing μ) :
    Meets (fixUp options files marks) fixing
      (fun done after => Granted fixing.keeper (owed options files marks) after.keeper ∧
        done = credit (owed options files marks) {})
      (fun failure after => Refused fixing.keeper (owed options files marks) failure
        after.keeper) := by
  unfold fixUp owed
  split
  · exact Makes.foldlM (fixEntry_makes options marks) files.zipIdx {} fixing
  · exact Makes.none {} fixing

/-- What is seen of it by watching: the calls that are owed, in order, and none after the first
that is refused. -/
theorem fixUp_watched (options : FixupOptions) (files : List ListEntry) (marks : NewDirectories)
    (keeper : μ) (journal : Journal) :
    Meets (fixUp options files marks) (⟨⟨keeper, []⟩, journal⟩ : Fixing (Watched μ))
      (fun _ after => after.keeper.log = (owed options files marks).map (·, none))
      (fun failure after => ∃ issued call rest fault,
        owed options files marks = issued ++ call :: rest ∧
        after.keeper.log = issued.map (·, none) ++ [(call, some fault)] ∧
        failure = call.refusal fault) := by
  refine (fixUp_makes options files marks _).mono ?_ ?_
  · rintro _ after ⟨granted, -⟩
    exact (Watched.of_granted granted).2
  · rintro _ after ⟨order, earlier, failed, cause⟩
    obtain ⟨-, logged⟩ := (Watched.perform_asks _ _).of_error failed
    refine ⟨_, _, _, _, order, ?_, cause⟩
    rw [logged, (Watched.of_granted earlier).2, List.nil_append]

/-- Every directory that is new is owed its permissions, and every one if they are preserved. -/
theorem countP_owed {options : FixupOptions} (recursive : options.recursive = true)
    (files : List ListEntry) (marks : NewDirectories) :
    (owed options files marks).countP (!·.isTime) = files.zipIdx.countP fun item =>
      item.1.isDirectory && (marks.isNew item.2 || options.preservePermissions) := by
  rw [owed, if_pos recursive]
  induction files.zipIdx with
  | nil => rfl
  | cons item rest ih =>
      rw [List.flatMap_cons, List.countP_append, ih, List.countP_cons, Nat.add_comm]
      congr 1
      by_cases directory : item.1.isDirectory = true
      · by_cases timed : options.preserveTimes = true <;>
          by_cases permitted : (marks.isNew item.2 || options.preservePermissions) = true <;>
          simp [owedTo, directory, timed, permitted, isTime]
      · simp [owedTo, directory]

end Destination

end TreeSync

import TreeSync.Proofs.Destination.Reach
import TreeSync.Proofs.Run.Confinement
import TreeSync.Run.Receive

namespace TreeSync

/-! The course of a run around the exchange.

Before the exchange a run makes directories and removes what is extraneous, and after it
changes attributes. None of this makes a file or touches the roles.
-/

open TreeSync.Action

/-- A quiet change within the directory that is open, if one is. -/
def Change.TidiesOpen (directory : Option Location) (tree : Tree) (change : Change) : Prop :=
  ∃ root, directory = some root ∧ change.Tidies root tree

/-- A change of attributes within the directory that is open, if one is. -/
def Change.AdornsOpen (directory : Option Location) (tree : Tree) (change : Change) : Prop :=
  ∃ root, directory = some root ∧ change.Adorns root tree

def Endpoint.wholeFiles {ς : Type} (options : Options) (sandbox : ς) (patience : Nat) :
    Endpoint FileRequester FileCollector ς where
  options
  uploader := .ofOptions options
  downloader := .ofOptions options
  sandbox
  patience

namespace Running

variable {υ δ γ ς κ : Type}

/-- What a run does apart from the exchange. -/
structure Proceeds (allowed : Tree → Change → Prop) (before after : Running υ δ ς κ) : Prop where
  options : after.endpoint.options = before.endpoint.options
  uploader : after.endpoint.uploader = before.endpoint.uploader
  downloader : after.endpoint.downloader = before.endpoint.downloader
  prune : after.endpoint.prune = before.endpoint.prune
  disk : Disk.Evolves allowed before.disk after.disk

variable {allowed : Tree → Change → Prop} {before : Running υ δ ς κ}

theorem Proceeds.accumulates : Accumulates (Proceeds (υ := υ) (δ := δ) (ς := ς) (κ := κ) allowed) where
  refl running := ⟨rfl, rfl, rfl, rfl, .refl running.disk⟩
  trans earlier later :=
    { options := later.options.trans earlier.options
      uploader := later.uploader.trans earlier.uploader
      downloader := later.downloader.trans earlier.downloader
      prune := later.prune.trans earlier.prune
      disk := earlier.disk.trans later.disk }

theorem Proceeds.mono {wider : Tree → Change → Prop} {after : Running υ δ ς κ}
    (proceeds : Proceeds allowed before after)
    (weaker : ∀ tree change, allowed tree change → wider tree change) :
    Proceeds wider before after :=
  { proceeds with disk := proceeds.disk.mono weaker }

theorem Proceeds.adorned {directory : Option Location} {after : Running υ δ ς κ}
    (proceeds : Proceeds (Change.AdornsOpen directory) before after) :
    Proceeds (Change.TidiesOpen directory) before after := by
  refine proceeds.mono fun _ _ adorns => ?_
  obtain ⟨root, opened, fine⟩ := adorns
  exact ⟨root, opened, fine.tidies⟩

theorem info_proceeds (flag : InfoFlag) (level : UInt8) (message : String) :
    Keeps (Proceeds allowed) (info flag level message : Step υ δ ς κ Unit) :=
  .change fun running => ⟨rfl, rfl, rfl, rfl, .refl running.disk⟩

theorem debug_proceeds (flag : DebugFlag) (level : UInt8) (message : String) :
    Keeps (Proceeds allowed) (debug flag level message : Step υ δ ς κ Unit) :=
  .change fun running => ⟨rfl, rfl, rfl, rfl, .refl running.disk⟩

theorem warn_proceeds (message : String) :
    Keeps (Proceeds allowed) (warn message : Step υ δ ς κ Unit) :=
  .change fun running => ⟨rfl, rfl, rfl, rfl, .refl running.disk⟩

theorem within_proceeds {ε α τ : Type} {part : Running υ δ ς κ → τ}
    {replace : τ → Running υ δ ς κ → Running υ δ ς κ} (step : EStateM ε τ α)
    (apart : ∀ inside running, Proceeds allowed running (replace inside running)) :
    Keeps (Proceeds allowed) (within part replace step) := by
  intro before
  refine Meets.within (Meets.intro ?_ ?_)
  · exact fun _ after _ => ⟨apart after before, trivial⟩
  · exact fun _ after _ => apart after before

theorem onSandbox_proceeds (step : String) (root : Path)
    (action : EStateM Fault (Confining ς) Unit) :
    Keeps (Proceeds allowed) (onSandbox step root action : Step υ δ ς κ Unit) :=
  .explaining (within_proceeds _ fun _ running => ⟨rfl, rfl, rfl, rfl, .refl running.disk⟩)

theorem send_proceeds [ByteSink κ] (step : String) (emission : Emission) :
    Keeps (Proceeds allowed) (send step emission : Step υ δ ς κ Unit) :=
  .explaining (within_proceeds _ fun _ running => ⟨rfl, rfl, rfl, rfl, .refl running.disk⟩)

theorem receive_proceeds {α : Type} (step : String) (action : EStateM Fault (Inflow κ) α) :
    Keeps (Proceeds allowed) (receive step action : Step υ δ ς κ α) :=
  .explaining (within_proceeds _ fun _ running => ⟨rfl, rfl, rfl, rfl, .refl running.disk⟩)

theorem onRoot_proceeds {α : Type} (step : String) (root : Path) {action : EStateM Fault Disk α}
    {good : α → Prop} (evolves : Keeps (Disk.Evolves allowed) action good) :
    Keeps (Proceeds allowed) (onRoot step root action : Step υ δ ς κ α) good := by
  have onDisk : Keeps (fun before after => Disk.Evolves allowed before.disk after.disk)
      (Host.onDisk action) good := .within evolves fun _ _ evolved => evolved
  exact .explaining (.within onDisk fun _ _ evolved => ⟨rfl, rfl, rfl, rfl, evolved⟩)

theorem receiveList_proceeds [ByteSource κ] :
    Keeps (Proceeds allowed) (receiveList : Step υ δ ς κ (List ListEntry)) := by
  refine .bind Proceeds.accumulates (receive_proceeds _ _) fun files _ => ?_
  refine .bind Proceeds.accumulates (receive_proceeds _ _) fun integrity _ => fun before => ?_
  refine Meets.cond (fun _ => Meets.throw ?_) fun _ => Meets.pure ⟨?_, trivial⟩
  · exact Proceeds.accumulates.refl before
  · exact Proceeds.accumulates.refl before

theorem onHost_proceeds {α : Type} {step : EStateM Failure Host α}
    (evolves : Keeps (fun before after => Disk.Evolves allowed before.disk after.disk) step) :
    Keeps (Proceeds allowed) (onHost step : Step υ δ ς κ α) :=
  .within evolves fun _ _ evolved => ⟨rfl, rfl, rfl, rfl, evolved⟩

theorem removeFound_proceeds {endpoint : Endpoint υ δ ς}
    {directory : Option Location} {found : List FoundEntry} {files : List ListEntry}
    (prunes : endpoint.prune = Destination.pruneAll) :
    Keeps (Proceeds (Change.TidiesOpen directory))
      (removeFound endpoint directory found files : Step υ δ ς κ Removals) := by
  cases directory with
  | some directory =>
      unfold removeFound
      rw [prunes]
      refine onHost_proceeds ((Destination.pruneAll_tidies found files).mono ?_ fun _ _ => trivial)
      exact fun _ _ tidied => tidied.mono fun _ _ fine => ⟨directory, rfl, fine⟩
  | none =>
      refine onHost_proceeds ((Destination.planRemovals_keeps found files).mono ?_
        fun _ _ => trivial)
      exact fun _ _ same => .of_eq same

theorem clear_proceeds {root : Path} {directory : Option Location} {files : List ListEntry}
    (prunes : before.endpoint.prune = Destination.pruneAll) :
    Meets (clear root directory files) before
      (fun _ after => Proceeds (Change.TidiesOpen directory) before after)
      (fun _ after => Proceeds (Change.TidiesOpen directory) before after) := by
  have looks : Keeps (fun before after => Disk.Evolves (Change.TidiesOpen directory)
      before.disk after.disk) (Destination.contents root) :=
    (Destination.contents_keeps root).mono (fun _ _ same => .of_eq same) fun _ _ => trivial
  have removes (found : List FoundEntry) : Keeps (Proceeds (Change.TidiesOpen directory))
      (removeFound before.endpoint directory found files : Step υ δ ς κ Removals) :=
    removeFound_proceeds prunes
  have whole := Keeps.bind Proceeds.accumulates (onHost_proceeds looks) fun found _ => removes found
  refine Meets.get (Meets.cond (fun _ => ?_) fun _ => Meets.pure (Proceeds.accumulates.refl before))
  exact (whole before).mono (fun _ _ => And.left) (fun _ _ => id)

theorem fixUp_proceeds {directory : Option Location} {files : List ListEntry}
    {marks : NewDirectories} :
    Keeps (Proceeds (Change.AdornsOpen directory))
      (fixUp directory files marks : Step υ δ ς κ Fixups) := by
  cases directory with
  | none => exact .pure Proceeds.accumulates trivial
  | some root =>
      refine .get fun running before => Meets.within ?_
      have fixes := Destination.fixUp_adorns running.endpoint.options.fixups files marks
      refine (fixes ⟨⟨root, before.disk⟩, before.inflow.journal⟩).mono ?_ ?_
      · intro _ fixing adorned
        exact ⟨⟨rfl, rfl, rfl, rfl, adorned.1.2.mono fun _ _ fine => ⟨root, rfl, fine⟩⟩, trivial⟩
      · intro _ fixing adorned
        exact ⟨rfl, rfl, rfl, rfl, adorned.2.mono fun _ _ fine => ⟨root, rfl, fine⟩⟩

theorem options_proceeds : Keeps (Proceeds allowed) (options : Step υ δ ς κ Options) :=
  .get fun _ => .pure Proceeds.accumulates trivial

theorem options_then {α : Type} {rest : Options → Step υ δ ς κ α}
    {done : α → Running υ δ ς κ → Prop} {failed : Failure → Running υ δ ς κ → Prop}
    (next : Meets (rest before.endpoint.options) before done failed) :
    Meets (options >>= rest) before done failed :=
  next

variable [Connection κ]

theorem agreeOnEnd_proceeds (phase : Phase) :
    Keeps (Proceeds allowed) (agreeOnEnd phase : Step υ δ ς κ Phase) := by
  refine .bind Proceeds.accumulates (send_proceeds _ _) fun _ _ => ?_
  refine .bind Proceeds.accumulates (receive_proceeds _ _) fun _ _ => ?_
  split
  · exact .throw Proceeds.accumulates
  · refine .bind Proceeds.accumulates (debug_proceeds _ _ _) fun _ _ => ?_
    exact .pure Proceeds.accumulates trivial

theorem receiveTotals_proceeds :
    Keeps (Proceeds allowed) (receiveTotals : Step υ δ ς κ (Option Totals)) := by
  refine .bind Proceeds.accumulates options_proceeds fun options _ before => ?_
  refine Meets.cond (fun _ => Meets.pure ⟨Proceeds.accumulates.refl before, trivial⟩) fun _ => ?_
  refine Keeps.bind Proceeds.accumulates (receive_proceeds _ _) (fun totals _ => ?_) before
  refine .bind Proceeds.accumulates (info_proceeds _ _ _) fun _ _ => ?_
  exact .pure Proceeds.accumulates trivial

theorem conclude_proceeds {root : Path} {directory : Option Location} {files : List ListEntry}
    {removals : Removals} {phase : Phase} {marks : NewDirectories} :
    Keeps (Proceeds (Change.AdornsOpen directory))
      (conclude root directory files removals phase marks : Step υ δ ς κ Outcome)
      fun outcome => outcome.removals = removals := by
  refine .bind Proceeds.accumulates (info_proceeds _ _ _) fun _ _ => ?_
  refine .bind Proceeds.accumulates fixUp_proceeds fun _ _ => ?_
  refine .bind Proceeds.accumulates (agreeOnEnd_proceeds phase) fun _ _ => ?_
  refine .bind Proceeds.accumulates receiveTotals_proceeds fun _ _ => ?_
  refine .bind Proceeds.accumulates (send_proceeds _ _) fun _ _ => ?_
  refine .bind Proceeds.accumulates (info_proceeds _ _ _) fun _ _ => ?_
  exact .pure Proceeds.accumulates rfl

variable [Sandbox ς]

omit [Connection κ] [Sandbox ς] in
theorem openRoot_proceeds (root : Path) :
    Keeps (Proceeds allowed) (openRoot root : Step υ δ ς κ (Option Location)) := by
  refine .bind Proceeds.accumulates options_proceeds fun options _ => ?_
  split
  · exact .pure Proceeds.accumulates trivial
  · have opens : Keeps (Disk.Evolves allowed) (Destination.openRoot root) :=
      .get fun _ => Disk.Evolves.of_keeps (Disk.look_keeps _)
    exact .bind Proceeds.accumulates (onRoot_proceeds _ root opens) fun _ _ =>
      .pure Proceeds.accumulates trivial

/-- What is done to the open root once it is clear. -/
def enclose (root : Path) (removals : Removals) : Step υ δ ς κ Removals := do
  onSandbox "confine" root (Sandbox.confine root)
  info .misc 2 (root.display ++ ": ready for phase 1 data")
  return removals

omit [Connection κ] in
theorem makeReady_eq (root : Path) (directory : Option Location) (files : List ListEntry) :
    (makeReady root directory files : Step υ δ ς κ Removals) =
      clear root directory files >>= enclose root :=
  rfl

omit [Connection κ] in
theorem enclose_proceeds (root : Path) (removals : Removals) :
    Keeps (Proceeds allowed) (enclose root removals : Step υ δ ς κ Removals) (· = removals) := by
  refine .bind Proceeds.accumulates (onSandbox_proceeds _ _ _) fun _ _ => ?_
  refine .bind Proceeds.accumulates (info_proceeds _ _ _) fun _ _ => ?_
  exact .pure Proceeds.accumulates rfl

omit [Connection κ] in
theorem makeReady_proceeds {root : Path} {directory : Option Location} {files : List ListEntry}
    (prunes : before.endpoint.prune = Destination.pruneAll) :
    Meets (makeReady root directory files) before
      (fun _ after => Proceeds (Change.TidiesOpen directory) before after)
      (fun _ after => Proceeds (Change.TidiesOpen directory) before after) := by
  rw [makeReady_eq]
  refine (clear_proceeds prunes).bind fun removals middle cleared => ?_
  exact (enclose_proceeds root removals).onward Proceeds.accumulates cleared

/-- The root is all that is made before it is opened, and a dry run makes none. -/
theorem prepare_meets {relation : Running υ δ ς κ → Running υ δ ς κ → Prop}
    (accumulates : Accumulates relation)
    (still : ∀ before after, Proceeds (fun _ _ => False) before after → relation before after)
    (root : Path) (makes : before.endpoint.options.dryRun = false →
      Keeps relation (onRoot "mkpath" root (Destination.makePath root) : Step υ δ ς κ Unit)) :
    Meets (prepare root) before (fun _ after => relation before after)
      (fun _ after => relation before after) := by
  have keeps {α : Type} {step : Step υ δ ς κ α} (proceeds : Keeps (Proceeds fun _ _ => False) step) :
      Keeps relation step := proceeds.mono still fun _ _ => trivial
  have ends {step : Step υ δ ς κ (Option (List ListEntry))} (kept : Keeps relation step) :
      Meets step before (fun _ after => relation before after)
        (fun _ after => relation before after) := kept.meets before
  refine options_then (ends ?_)
  refine .bind accumulates (keeps (onSandbox_proceeds _ _ _)) fun _ _ => ?_
  refine .optional accumulates (keeps (send_proceeds _ _)) ?_
  refine .bind accumulates (keeps receiveList_proceeds) fun files _ => ?_
  refine .cond ?_ ?_
  · refine .bind accumulates (keeps (warn_proceeds _)) fun _ _ => ?_
    exact .pure accumulates trivial
  refine .optional accumulates (keeps (info_proceeds _ _ _)) ?_
  refine .bind accumulates (keeps (info_proceeds _ _ _)) fun _ _ => ?_
  split
  · next acts => exact .bind accumulates (makes acts) fun _ _ => .pure accumulates trivial
  · exact .pure accumulates trivial

theorem prepare_keeps {relation : Running υ δ ς κ → Running υ δ ς κ → Prop}
    (accumulates : Accumulates relation)
    (still : ∀ before after, Proceeds (fun _ _ => False) before after → relation before after)
    (root : Path)
    (makes : Keeps relation (onRoot "mkpath" root (Destination.makePath root) : Step υ δ ς κ Unit)) :
    Keeps relation (prepare root : Step υ δ ς κ (Option (List ListEntry))) := by
  intro before
  have meets : Meets (prepare root) before (fun _ after => relation before after)
      (fun _ after => relation before after) :=
    prepare_meets accumulates still root fun _ => makes
  exact meets.mono (fun _ _ kept => ⟨kept, trivial⟩) fun _ _ => id

theorem prepare_proceeds (root : Path) :
    Keeps (Proceeds fun _ change => change.Quiet)
      (prepare root : Step υ δ ς κ (Option (List ListEntry))) := by
  refine prepare_keeps Proceeds.accumulates (fun _ _ still => ?_) root ?_
  · exact still.mono fun _ _ => False.elim
  · exact (onRoot_proceeds "mkpath" root (Destination.makePath_quietly root)).forget

section Roles

variable {before : Running FileRequester FileCollector ς κ} {task : Task}

omit [Sandbox ς] in
theorem exchange_runs {done failed : Exchange.WholeFiles κ → Prop}
    (ends : Meets (Exchange.run task before.endpoint.patience)
      (beginExchange task.files.length before) (fun _ last => done last)
      (fun _ last => failed last)) :
    Meets (exchange task) before (fun _ after => ∃ last, done last ∧ after = endExchange last before)
      (fun _ after => ∃ last, failed last ∧ after = endExchange last before) := by
  refine Meets.get (Meets.within (ends.followedBy ?_ ?_))
  · exact fun _ last failed => ⟨last, failed, rfl⟩
  · exact fun phase last done => Meets.get (Meets.pure ⟨last, done, rfl⟩)

omit [Sandbox ς] in
theorem exchange_meets (holds : Exchange.WholeFiles κ → Prop)
    (ends : holds (stateAfter (Exchange.run task before.endpoint.patience)
      (beginExchange task.files.length before))) :
    Meets (exchange task) before (fun _ after => ∃ last, holds last ∧ after = endExchange last before)
      (fun _ after => ∃ last, holds last ∧ after = endExchange last before) := by
  refine exchange_runs ((Meets.left (Exchange.run task before.endpoint.patience)).mono ?_ ?_)
  · exact fun _ _ same => same ▸ ends
  · exact fun _ _ same => same ▸ ends

end Roles

end Running

end TreeSync

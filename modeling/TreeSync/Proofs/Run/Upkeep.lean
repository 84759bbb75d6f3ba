import TreeSync.Proofs.Message.Reading
import TreeSync.Proofs.Run.Stages

namespace TreeSync.Running

/-! What the stages of a run around its exchange leave alone.

They work on the disk and the journal and read from the connection. None of them
changes the options, the mode of the connection or the record of the rounds.
-/

open TreeSync.Action TreeSync.Inflow

variable {υ δ γ ς κ ε α : Type} {relation : κ → κ → Prop}

/-- What a stage spares; `relation` tells what becomes of the connection. -/
structure Spares (relation : κ → κ → Prop) (before after : Running υ δ ς κ) : Prop where
  inflow : Drawn relation before.inflow after.inflow
  steps : after.steps = before.steps
  options : after.endpoint.options = before.endpoint.options

theorem Spares.accumulates (accumulates : Accumulates relation) :
    Accumulates (Spares (υ := υ) (δ := δ) (ς := ς) relation) where
  refl running := ⟨(Drawn.accumulates accumulates).refl running.inflow, rfl, rfl⟩
  trans earlier later :=
    { inflow := (Drawn.accumulates accumulates).trans earlier.inflow later.inflow
      steps := later.steps.trans earlier.steps
      options := later.options.trans earlier.options }

/-- What is done about the acknowledgement once the end was announced. -/
def acknowledge [ByteSource κ] (phase : Phase) : Step υ δ ς κ Phase := do
  receive "phase acknowledgement" (Wire.readDone "phase acknowledgement")
  match phase.after .peerAcknowledged with
  | .error refused => throw (.protocol "phase acknowledgement" (.outOfOrder refused))
  | .ok next =>
      debug .protocol 1 s!"peer acknowledged phase 1, now in phase {next.number}"
      return next

/-- What is done about the list once it was received. -/
def makeRoot (root : Path) (options : Options) (files : List ListEntry) :
    Step υ δ ς κ (Option (List ListEntry)) := do
  if options.server = false && files.isEmpty then
    warn "empty file list: nothing to receive"
    return none
  if options.server = false then
    info .fileList 1 s!"Transfer starting: {files.length} files"
  info .misc 2 (root.display ++ ": receiver destination")
  if options.dryRun = false then onRoot "mkpath" root (Destination.makePath root)
  return some files

section Parts

variable (accumulates : Accumulates relation)

include accumulates

theorem info_spares (flag : InfoFlag) (level : UInt8) (message : String) :
    Keeps (Spares relation) (info flag level message : Step υ δ ς κ Unit) :=
  .change fun running => ⟨.report accumulates running.inflow _, rfl, rfl⟩

theorem debug_spares (flag : DebugFlag) (level : UInt8) (message : String) :
    Keeps (Spares relation) (debug flag level message : Step υ δ ς κ Unit) :=
  .change fun running => ⟨.report accumulates running.inflow _, rfl, rfl⟩

theorem warn_spares (message : String) :
    Keeps (Spares relation) (warn message : Step υ δ ς κ Unit) :=
  .change fun running => ⟨.report accumulates running.inflow _, rfl, rfl⟩

theorem options_spares : Keeps (Spares relation) (options : Step υ δ ς κ Options) :=
  .get fun _ => .pure (Spares.accumulates accumulates) trivial

theorem onHost_spares (step : EStateM ε Host α) :
    Keeps (Spares relation) (onHost step : EStateM ε (Running υ δ ς κ) α) :=
  .aside fun _ running => ⟨.report accumulates running.inflow _, rfl, rfl⟩

theorem onRoot_spares (step : String) (root : Path) (action : EStateM Fault Disk α) :
    Keeps (Spares relation) (onRoot step root action : Step υ δ ς κ α) :=
  .explaining (onHost_spares accumulates _)

theorem onSandbox_spares (step : String) (root : Path)
    (action : EStateM Fault (Confining ς) Unit) :
    Keeps (Spares relation) (onSandbox step root action : Step υ δ ς κ Unit) :=
  .explaining <| .aside fun _ running => ⟨.report accumulates running.inflow _, rfl, rfl⟩

omit accumulates in
theorem receive_spares (step : String) {action : EStateM Fault (Inflow κ) α}
    (draws : Keeps (Drawn relation) action) :
    Keeps (Spares relation) (receive step action : Step υ δ ς κ α) :=
  .explaining (.within draws fun _ _ drawn => ⟨drawn, rfl, rfl⟩)

omit accumulates in
theorem send_spares [ByteSink κ] (step : String) {emission : Emission}
    (sends : Keeps relation (emission.send : EStateM Fault κ Unit)) :
    Keeps (Spares relation) (send step emission : Step υ δ ς κ Unit) :=
  .explaining (.within sends fun _ _ sent => ⟨⟨sent, rfl⟩, rfl, rfl⟩)

theorem removeFound_spares (endpoint : Endpoint υ δ ς) (directory : Option Location)
    (found : List FoundEntry) (files : List ListEntry) :
    Keeps (Spares relation) (removeFound endpoint directory found files : Step υ δ ς κ Removals) := by
  cases directory <;> exact onHost_spares accumulates _

theorem clear_spares (root : Path) (directory : Option Location) (files : List ListEntry) :
    Keeps (Spares relation) (clear root directory files : Step υ δ ς κ Removals) := by
  have trans := Spares.accumulates (υ := υ) (δ := δ) (ς := ς) accumulates
  refine .get fun running => .cond ?_ (.pure trans trivial)
  exact .bind trans (onHost_spares accumulates _) fun found _ =>
    removeFound_spares accumulates _ _ found _

theorem fixUp_spares (directory : Option Location) (files : List ListEntry)
    (marks : NewDirectories) :
    Keeps (Spares relation) (fixUp directory files marks : Step υ δ ς κ Fixups) := by
  cases directory with
  | none => exact .pure (Spares.accumulates accumulates) trivial
  | some root =>
      exact .get fun _ => .aside fun _ running =>
        ⟨.report accumulates running.inflow _, rfl, rfl⟩

theorem openRoot_spares (root : Path) :
    Keeps (Spares relation) (openRoot root : Step υ δ ς κ (Option Location)) := by
  have trans := Spares.accumulates (υ := υ) (δ := δ) (ς := ς) accumulates
  refine .bind trans (options_spares accumulates) fun options _ => .cond (.pure trans trivial) ?_
  exact .bind trans (onRoot_spares accumulates _ _ _) fun _ _ => .pure trans trivial

theorem makeReady_spares [Sandbox ς] (root : Path) (directory : Option Location)
    (files : List ListEntry) :
    Keeps (Spares relation) (makeReady root directory files : Step υ δ ς κ Removals) := by
  have trans := Spares.accumulates (υ := υ) (δ := δ) (ς := ς) accumulates
  refine .bind trans (clear_spares accumulates root directory files) fun removals _ => ?_
  refine .bind trans (onSandbox_spares accumulates _ _ _) fun _ _ => ?_
  exact .bind trans (info_spares accumulates _ _ _) fun _ _ => .pure trans trivial

variable [Connection κ] (reads : ByteSource.Respects relation)

include reads

theorem receiveList_spares :
    Keeps (Spares relation) (receiveList : Step υ δ ς κ (List ListEntry)) := by
  have trans := Spares.accumulates (υ := υ) (δ := δ) (ς := ς) accumulates
  have integers := Wire.readInt_keeps (Drawn.accumulates accumulates) (read_draws accumulates reads)
  refine .bind trans (receive_spares _ (FileList.read_draws accumulates reads)) fun files _ => ?_
  refine .bind trans (receive_spares _ integers) fun integrity _ => ?_
  exact .cond (.throw trans) (.pure trans trivial)

theorem acknowledge_spares (phase : Phase) :
    Keeps (Spares relation) (acknowledge phase : Step υ δ ς κ Phase) := by
  have trans := Spares.accumulates (υ := υ) (δ := δ) (ς := ς) accumulates
  have marks := Wire.readDone_keeps (Drawn.accumulates accumulates) (read_draws accumulates reads)
  refine .bind trans (receive_spares _ (marks _)) fun _ _ => ?_
  split
  · exact .throw trans
  · exact .bind trans (debug_spares accumulates _ _ _) fun _ _ => .pure trans trivial

theorem receiveTotals_spares :
    Keeps (Spares relation) (receiveTotals : Step υ δ ς κ (Option Totals)) := by
  have trans := Spares.accumulates (υ := υ) (δ := δ) (ς := ς) accumulates
  have totals := Totals.receive_keeps (Drawn.accumulates accumulates) (read_draws accumulates reads)
  refine .bind trans (options_spares accumulates) fun options _ => .cond (.pure trans trivial) ?_
  refine .bind trans (receive_spares _ totals) fun totals _ => ?_
  exact .bind trans (info_spares accumulates _ _ _) fun _ _ => .pure trans trivial

omit [Connection κ] reads in
theorem makeRoot_spares (root : Path) (options : Options) (files : List ListEntry) :
    Keeps (Spares relation)
      (makeRoot root options files : Step υ δ ς κ (Option (List ListEntry)))
      fun found => found = none → options.server = false ∧ files = [] := by
  have trans := Spares.accumulates (υ := υ) (δ := δ) (ς := ς) accumulates
  have tells := info_spares (υ := υ) (δ := δ) (ς := ς) accumulates
  unfold makeRoot
  split
  · next skips =>
    have skipped : options.server = false ∧ files = [] := by simpa using skips
    exact .bind trans (warn_spares accumulates _) fun _ _ => .pure trans fun _ => skipped
  · refine .optional trans (tells _ _ _) (.bind trans (tells _ _ _) fun _ _ => ?_)
    exact .optional trans (onRoot_spares accumulates _ _ _) (.pure trans nofun)

variable [Sandbox ς]

/-- A run up to its exchange, where it does not matter what is sent. -/
theorem readying_spares (sends : ∀ emission : Emission,
      Keeps relation (emission.send : EStateM Fault κ Unit)) (root : Path) :
    Keeps (Spares relation) (readying root : Step υ δ ς κ (Option Task)) := by
  have trans := Spares.accumulates (υ := υ) (δ := δ) (ς := ς) accumulates
  have prepares : Keeps (Spares relation) (prepare root : Step υ δ ς κ (Option (List ListEntry))) := by
    refine .bind trans (options_spares accumulates) fun options _ => ?_
    refine .bind trans (onSandbox_spares accumulates _ _ _) fun _ _ => ?_
    refine .optional trans (send_spares _ (sends _)) ?_
    exact .bind trans (receiveList_spares accumulates reads) fun files _ =>
      (makeRoot_spares accumulates root options files).forget
  have opens : Keeps (Spares relation) (opening root : Step υ δ ς κ (Option Task)) := by
    refine .bind trans prepares fun found _ => ?_
    cases found with
    | none => exact .pure trans trivial
    | some files =>
        refine .get fun running => .bind trans (.change fun running => ?_) fun _ _ => ?_
        · exact ⟨(Drawn.accumulates accumulates).refl running.inflow, rfl, rfl⟩
        · exact .bind trans (openRoot_spares accumulates root) fun _ _ => .pure trans trivial
  refine .bind trans opens fun found _ => ?_
  cases found with
  | none => exact .pure trans trivial
  | some task =>
      refine .bind trans (makeReady_spares accumulates root _ _) fun _ _ => ?_
      exact .bind trans (options_spares accumulates) fun _ _ => .pure trans trivial

omit [Sandbox ς] in
/-- A run after its exchange, where it does not matter what is sent. -/
theorem conclude_spares (sends : ∀ emission : Emission,
      Keeps relation (emission.send : EStateM Fault κ Unit)) (root : Path)
    (directory : Option Location) (files : List ListEntry) (removals : Removals) (phase : Phase)
    (marks : NewDirectories) :
    Keeps (Spares relation)
      (conclude root directory files removals phase marks : Step υ δ ς κ Outcome) := by
  have trans := Spares.accumulates (υ := υ) (δ := δ) (ς := ς) accumulates
  have tells := info_spares (υ := υ) (δ := δ) (ς := ς) accumulates
  have agrees : Keeps (Spares relation) (agreeOnEnd phase : Step υ δ ς κ Phase) :=
    .bind trans (send_spares _ (sends _)) fun _ _ => acknowledge_spares accumulates reads phase
  refine .bind trans (tells _ _ _) fun _ _ => ?_
  refine .bind trans (fixUp_spares accumulates _ _ _) fun _ _ => .bind trans agrees fun _ _ => ?_
  refine .bind trans (receiveTotals_spares accumulates reads) fun _ _ => ?_
  refine .bind trans (send_spares _ (sends _)) fun _ _ => ?_
  exact .bind trans (tells _ _ _) fun _ _ => .pure trans trivial

end Parts

end TreeSync.Running

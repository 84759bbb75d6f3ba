import TreeSync.Proofs.Diagnostics.Terseness
import TreeSync.Transfer.FileCollector

namespace TreeSync

/-! The two roles do the same however much they report. -/

open TreeSync.Action Journaled

instance {υ κ : Type} : Journaled (Uploading υ κ) where
  journal uploading := uploading.host.journal
  reporting uploading journal := { uploading with host := { uploading.host with journal } }

instance {δ γ σ : Type} : Journaled (Downloading δ γ σ) where
  journal downloading := downloading.inflow.journal
  reporting downloading journal :=
    { downloading with inflow := { downloading.inflow with journal } }

namespace Uploading

variable {ε α υ κ : Type}

theorem onHost_mirrors {step : EStateM ε Host α} (inner : Mirrors Muted step step) :
    Mirrors Muted (onHost step : EStateM ε (Uploading υ κ) α) (onHost step) := by
  refine inner.within ?_ ?_
  · rintro now _ ⟨full, terser, rfl⟩
    exact ⟨full, terser, rfl⟩
  · rintro now _ host _ ⟨_, _, rfl⟩ ⟨full, terser, rfl⟩
    exact ⟨full, terser, rfl⟩

theorem onDisk_mirrors (step : EStateM ε Disk α) :
    Mirrors Muted (onHost (Host.onDisk step) : EStateM ε (Uploading υ κ) α)
      (onHost (Host.onDisk step)) :=
  onHost_mirrors (Host.onDisk_mirrors step)

theorem send_mirrors [ByteSink κ] (emission : Emission) :
    Mirrors Muted (send emission : EStateM Fault (Uploading υ κ) Unit) (send emission) := by
  refine (Mirrors.same emission.send).within ?_ ?_
  · rintro now _ ⟨full, -, rfl⟩
    rfl
  · rintro now _ connection _ ⟨full, terser, rfl⟩ rfl
    exact ⟨full, terser, rfl⟩

end Uploading

namespace FileRequester

variable {κ : Type}

theorem prepareDirectory_mirrors (index : Nat) (path : Path) (task : Task) (root : Location) :
    Mirrors Muted (prepareDirectory (κ := κ) index path task root)
      (prepareDirectory index path task root) := by
  refine .bind (Uploading.onDisk_mirrors _) fun standing => ?_
  cases standing with
  | directory => exact .pure ()
  | missing =>
      refine .bind (Uploading.onDisk_mirrors _) fun _ => ?_
      refine .bind (change_mirrors (fun _ _ => rfl) fun _ => rfl) fun _ => ?_
      exact Uploading.onHost_mirrors (Host.debug_mirrors _ _ _)
  | regular | other => exact .throw _

theorem examineDirectory_mirrors (index : Nat) (entry : ListEntry) (task : Task) :
    Mirrors Muted (examineDirectory (κ := κ) index entry task)
      (examineDirectory index entry task) := by
  refine .get ?_
  rintro now _ ⟨full, -, rfl⟩
  refine .cond (Uploading.onHost_mirrors (Host.info_mirrors _ _ _)) (.cond (.pure ()) ?_)
  exact .bind (.ofExcept _) fun root => prepareDirectory_mirrors index entry.path task root

variable [ByteSink κ]

theorem requestFile_mirrors (index : Nat) (entry : ListEntry) (task : Task) :
    Mirrors Muted (requestFile (κ := κ) index entry task) (requestFile index entry task) := by
  refine .cond (.throw _) ?_
  refine .bind (Uploading.send_mirrors _) fun _ => ?_
  refine .bind (Uploading.onHost_mirrors (Host.debug_mirrors _ _ _)) fun _ => ?_
  exact change_mirrors (fun _ _ => rfl) fun _ => rfl

theorem examineFile_mirrors (index : Nat) (entry : ListEntry) (task : Task) :
    Mirrors Muted (examineFile (κ := κ) index entry task) (examineFile index entry task) := by
  refine .get ?_
  rintro now _ ⟨full, -, rfl⟩
  refine .cond (Uploading.onHost_mirrors (Host.info_mirrors _ _ _)) ?_
  refine .bind (.ofExcept _) fun root => .bind (Uploading.onDisk_mirrors _) fun standing => ?_
  refine .cond ?_ (.cond (.throw _) (requestFile_mirrors index entry task))
  refine .bind (Uploading.onHost_mirrors (Host.debug_mirrors _ _ _)) fun _ => ?_
  exact change_mirrors (fun _ _ => rfl) fun _ => rfl

theorem announceEnd_mirrors :
    Mirrors Muted (announceEnd : EStateM Fault (Uploading FileRequester κ) Unit) announceEnd := by
  refine .bind (Uploading.send_mirrors _) fun _ => ?_
  refine .bind (change_mirrors (fun _ _ => rfl) fun _ => rfl) fun _ => .get ?_
  rintro now _ ⟨full, -, rfl⟩
  exact Uploading.onHost_mirrors (Host.debug_mirrors _ _ _)

theorem advance_mirrors (task : Task) : Mirrors Muted (advance (κ := κ) task) (advance task) := by
  have moves : Mirrors Muted (moveOn (κ := κ)) moveOn :=
    change_mirrors (fun _ _ => rfl) fun _ => rfl
  refine .bind (change_mirrors (fun _ _ => rfl) fun _ => rfl) fun _ => .get ?_
  rintro now _ ⟨full, -, rfl⟩
  dsimp only [reporting]
  split
  · next index _ =>
    cases task.files[index]? with
    | none => exact .bind (.pure ()) fun _ => moves
    | some entry =>
        refine .bind ?_ fun _ => moves
        refine .cond (examineDirectory_mirrors index entry task) (.cond ?_ ?_)
        · exact examineFile_mirrors index entry task
        · exact Uploading.onHost_mirrors (Host.info_mirrors _ _ _)
  · exact announceEnd_mirrors
  · exact .pure ()

end FileRequester

namespace Downloading

variable {ε α δ γ σ : Type}

theorem onDisk_mirrors (step : EStateM ε Disk α) :
    Mirrors Muted (onDisk step : EStateM ε (Downloading δ γ σ) α) (onDisk step) := by
  refine (Mirrors.same step).within ?_ ?_
  · rintro now _ ⟨full, -, rfl⟩
    rfl
  · rintro now _ disk _ ⟨full, terser, rfl⟩ rfl
    exact ⟨full, terser, rfl⟩

theorem receive_mirrors {step : EStateM ε (Inflow σ) α} (inner : Mirrors Muted step step) :
    Mirrors Muted (receive step : EStateM ε (Downloading δ γ σ) α) (receive step) := by
  refine inner.within ?_ ?_
  · rintro now _ ⟨full, terser, rfl⟩
    exact ⟨full, terser, rfl⟩
  · rintro now _ inflow _ ⟨_, _, rfl⟩ ⟨full, terser, rfl⟩
    exact ⟨full, terser, rfl⟩

theorem report_mirrors {change : Journal → Journal}
    (reports : ∀ {terse full : Journal}, terse.Terser full → (change terse).Terser (change full)) :
    Mirrors Muted (report change : EStateM ε (Downloading δ γ σ) Unit) (report change) := by
  refine .change ?_
  rintro now _ ⟨full, terser, rfl⟩
  exact ⟨_, reports terser, rfl⟩

end Downloading

namespace FileCollector

open Downloading

variable {σ : Type}

theorem commit_mirrors (arriving : ArrivingFile) (entry : ListEntry) (umask : UInt32) :
    Mirrors Muted (commit (σ := σ) arriving entry umask) (commit arriving entry umask) := by
  refine .cond (.refuse _) (.get ?_)
  rintro now _ ⟨full, -, rfl⟩
  refine .bind (onDisk_mirrors _) fun _ => ?_
  refine .bind (change_mirrors (fun _ _ => rfl) fun _ => rfl) fun _ => ?_
  exact report_mirrors fun terser => terser.info _ _ _

variable [ByteSource σ]

theorem readInt_mirrors :
    Mirrors Muted (Downloading.receive Wire.readInt : Step σ Int32)
      (Downloading.receive Wire.readInt) :=
  receive_mirrors (Wire.readInt_mirrors Inflow.answers_muted)

theorem begin_mirrors (announcedIndex : Int) (task : Task) :
    Mirrors Muted (begin (σ := σ) announcedIndex task) (begin announcedIndex task) := by
  refine .bind (.ofExcept _) fun found => ?_
  refine .bind readInt_mirrors fun blocks => .bind readInt_mirrors fun _ => ?_
  refine .bind readInt_mirrors fun _ => .bind readInt_mirrors fun _ => ?_
  refine .cond (.refuse _) ?_
  refine .bind (.ofExcept _) fun root => .bind (onDisk_mirrors _) fun place => ?_
  refine .bind (onDisk_mirrors _) fun temporary => ?_
  exact .bind (report_mirrors fun terser => terser.debug _ _ _) fun _ => .pure _

theorem addPiece_mirrors (arriving : ArrivingFile) (length : Nat) :
    Mirrors Muted (addPiece (σ := σ) arriving length) (addPiece arriving length) := by
  refine .bind (receive_mirrors (Inflow.answers_muted.readUpTo length)) fun content => ?_
  refine .bind (onDisk_mirrors _) fun _ => ?_
  refine .cond (.throw _) ?_
  exact .bind (report_mirrors fun terser => terser.debug _ _ _) fun _ => .pure _

theorem goOn_mirrors (arriving : ArrivingFile) (task : Task) :
    Mirrors Muted (goOn (σ := σ) arriving task) (goOn arriving task) := by
  refine .bind readInt_mirrors fun token => .cond ?_ (.cond (.throw _) (.cond (.throw _) ?_))
  · cases task.files[arriving.index]? with
    | none => exact .refuse _
    | some entry => exact .bind (commit_mirrors arriving entry task.umask) fun _ => .pure none
  · exact .bind (addPiece_mirrors arriving _) fun _ => .pure _

theorem startNext_mirrors (task : Task) :
    Mirrors Muted (startNext (σ := σ) task) (startNext task) := by
  refine .bind readInt_mirrors fun index => .cond ?_ ?_
  · refine .get ?_
    rintro now _ ⟨full, -, rfl⟩
    exact .bind (report_mirrors fun terser => terser.debug _ _ _) fun _ => .pure _
  · refine .bind (begin_mirrors _ task) fun arriving => ?_
    exact .bind (change_mirrors (fun _ _ => rfl) fun _ => rfl) fun _ => .pure _

theorem advance_mirrors (task : Task) :
    Mirrors Muted (advance (σ := σ) task) (advance task) := by
  refine .get ?_
  rintro now _ ⟨full, -, rfl⟩
  dsimp only [reporting]
  cases now.pending with
  | none => exact startNext_mirrors task
  | some arriving =>
      refine .bind (change_mirrors (fun _ _ => rfl) fun _ => rfl) fun _ => ?_
      refine .bind (.onFailure (goOn_mirrors arriving task) ?_) fun pending => ?_
      · rintro now _ ⟨full, terser, rfl⟩
        exact ⟨full, terser, rfl⟩
      · exact .bind (change_mirrors (fun _ _ => rfl) fun _ => rfl) fun _ => .pure _

end FileCollector

end TreeSync

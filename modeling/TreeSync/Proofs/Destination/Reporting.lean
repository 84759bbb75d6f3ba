import TreeSync.Destination.Fixup
import TreeSync.Destination.Pruning
import TreeSync.Proofs.Diagnostics.Terseness

namespace TreeSync.Destination

/-! The destination is listed, cleared and fixed up alike however much is reported. -/

open TreeSync.Action Journaled

theorem contents_mirrors (root : Path) :
    Mirrors Muted (contents root : EStateM Failure Host (List FoundEntry)) (contents root) := by
  have lists (directory : Location) (found : Location × Node) :
      Mirrors Muted (listNode root directory found) (listNode root directory found) := by
    refine .cond (.refuse _) ?_
    exact .bind (Host.debug_mirrors _ _ _) fun _ => .pure _
  refine .bind (.attempt (Host.onDisk_mirrors _)) fun looked => ?_
  rcases looked with fault | _ | directory
  · exact .cond (.pure []) (.throw _)
  · exact .pure []
  · refine .bind (Host.debug_mirrors _ _ _) fun _ => .get ?_
    rintro now _ ⟨full, -, rfl⟩
    refine .bind (.mapM (lists directory) _) fun entries => ?_
    exact .bind (Host.debug_mirrors _ _ _) fun _ => .pure entries

theorem reportRemoval_mirrors {ε : Type} (removals : Removals) (entry : FoundEntry) :
    Mirrors Muted (reportRemoval removals entry : EStateM ε Host Removals)
      (reportRemoval removals entry) :=
  .bind (Host.info_mirrors _ _ _) fun _ => .pure _

theorem planRemovals_mirrors {ε : Type} (found : List FoundEntry) (listed : List ListEntry) :
    Mirrors Muted (planRemovals found listed : EStateM ε Host Removals)
      (planRemovals found listed) :=
  .foldlM reportRemoval_mirrors _ _

theorem pruneAll_mirrors (root : Location) (found : List FoundEntry) (listed : List ListEntry) :
    Mirrors Muted (pruneAll root found listed) (pruneAll root found listed) := by
  refine .bind (.foldlM (fun removals entry => ?_) _ _) fun removals => ?_
  · refine .bind (.explaining (Host.onDisk_mirrors _)) fun _ => ?_
    exact reportRemoval_mirrors removals entry
  · exact .bind (Host.debug_mirrors _ _ _) fun _ => .pure removals

variable {μ : Type}

instance : Journaled (Fixing μ) := ⟨Fixing.journal, fun fixing journal => { fixing with journal }⟩

theorem fixOne_mirrors (step : String) (path : Path) (call : EStateM Fault μ Unit)
    (report : String) :
    Mirrors Muted (fixOne step path call report) (fixOne step path call report) := by
  refine .bind (.explaining ((Mirrors.same call).within ?_ ?_)) fun _ => .change ?_
  · rintro now _ ⟨full, -, rfl⟩
    rfl
  · rintro now _ keeper _ ⟨full, terser, rfl⟩ rfl
    exact ⟨full, terser, rfl⟩
  · rintro now _ ⟨full, terser, rfl⟩
    exact ⟨_, terser.debug _ _ _, rfl⟩

theorem fixUp_mirrors [DirectoryKeeper μ] (options : FixupOptions) (files : List ListEntry)
    (marks : NewDirectories) :
    Mirrors Muted (fixUp (μ := μ) options files marks) (fixUp options files marks) := by
  refine .cond (.foldlM (fun done item => ?_) _ _) (.pure _)
  obtain ⟨entry, index⟩ := item
  refine .cond (.bind (.cond ?_ (.pure done)) fun done => .cond ?_ (.pure done)) (.pure done)
  · exact .bind (fixOne_mirrors _ _ _ _) fun _ => .pure _
  · exact .bind (fixOne_mirrors _ _ _ _) fun _ => .pure _

end TreeSync.Destination

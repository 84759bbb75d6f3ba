import TreeSync.Destination.Fixup
import TreeSync.Proofs.Concurring
import TreeSync.Proofs.Disk.Agreeing
import TreeSync.Proofs.Disk.Effects

namespace TreeSync

/-! Directories that are fixed up on two trees.

Both trees are given the same times and permissions in the same places, so what they agreed
on they still agree on, and now on those times as well.
-/

open TreeSync.Action

/-- Whether a place is that of a listed directory. -/
def Dates (root : Location) (files : List ListEntry) (place : Location) : Prop :=
  ∃ entry ∈ files, entry.isDirectory = true ∧ entry.path.placeBeneath root = some place

/-- Two disks that are fixed up beneath one root. -/
structure RootedDisk.Agrees (root : Location) (kept : Prop) (dated : Location → Prop)
    (now there : RootedDisk) : Prop where
  here : now.root = root
  yonder : there.root = root
  trees : now.disk.tree.Agrees kept dated there.disk.tree

/-- Calls that the system grants on both disks leave what was agreed on. -/
theorem Disk.granted_concurs {α : Type} {now there : Disk} {call : HandleCall}
    {rest others : Unit → EStateM Fault Disk α} {done : α → Disk → Disk → Prop}
    (next : Concurs (rest ()) now (others ()) there done) :
    Concurs (granted call >>= rest) now (granted call >>= others) there done := by
  have asks : Concurs (granted call) now (granted call) there
      fun _ after after' => now = after ∧ there = after' := by
    refine .of_meets ((granted_meets call).mono (fun _ _ met => met.1) fun _ _ _ => trivial)
      ((granted_meets call).mono (fun _ _ met => met.1) fun _ _ _ => trivial) ?_
    exact fun _ _ _ _ same same' => ⟨rfl, same, same'⟩
  refine asks.bind fun _ _ _ met => ?_
  obtain ⟨rfl, rfl⟩ := met
  exact next

variable {root : Location} {kept : Prop} {dated : Location → Prop}

theorem RootedDisk.change_concurs {path : Path} {apply : Location → EStateM Fault Disk Unit}
    {dated' : Location → Prop} {now there : RootedDisk} (agrees : now.Agrees root kept dated there)
    (applies : ∀ place, path.placeBeneath root = some place →
      Concurs (apply place) now.disk (apply place) there.disk
        fun _ after after' => after.tree.Agrees kept dated' after'.tree) :
    Concurs (change path apply) now (change path apply) there
      fun _ after after' => after.Agrees root kept dated' after' := by
  unfold change
  change Concurs (within RootedDisk.disk _ _) now (within RootedDisk.disk _ _) there _
  refine .within ?_
  rw [agrees.here, agrees.yonder]
  have opens : Concurs (Disk.openBeneath root path) now.disk (Disk.openBeneath root path) there.disk
      fun place after after' => path.placeBeneath root = some place ∧ after = now.disk ∧
        after' = there.disk := by
    refine .of_meets ((Disk.openBeneath_meets path).mono (fun _ _ met => met) fun _ _ _ => trivial)
      ((Disk.openBeneath_meets path).mono (fun _ _ met => met) fun _ _ _ => trivial) ?_
    intro place after place' after' met met'
    obtain ⟨rfl, placed, -⟩ := met
    obtain ⟨rfl, placed', -⟩ := met'
    exact ⟨Option.some.inj (placed.symm.trans placed'), placed, rfl, rfl⟩
  refine opens.bind fun place after after' met => ?_
  obtain ⟨placed, rfl, rfl⟩ := met
  exact (applies place placed).mono fun _ _ _ trees => ⟨rfl, rfl, trees⟩

namespace Destination

variable {options : FixupOptions} {marks : NewDirectories} {now there : Fixing RootedDisk}

theorem fixOne_concurs {dated' : Location → Prop} {step report : String} {path : Path}
    {call : EStateM Fault RootedDisk Unit}
    (calls : Concurs call now.keeper call there.keeper
      fun _ after after' => after.Agrees root kept dated' after') :
    Concurs (fixOne step path call report) now (fixOne step path call report) there
      fun _ after after' => after.keeper.Agrees root kept dated' after'.keeper :=
  .bind (.explaining (.within calls)) fun _ _ _ agrees => .change agrees

theorem fixTime_concurs (entry : ListEntry) (done : Fixups)
    (agrees : now.keeper.Agrees root kept dated there.keeper) :
    Concurs (fixTime options entry done) now (fixTime options entry done) there
      fun _ after after' => after.keeper.Agrees root kept
        (fun place => dated place ∨
          options.preserveTimes = true ∧ entry.path.placeBeneath root = some place)
        after'.keeper := by
  refine .cond (fun times => ?_) fun untimed => .pure ?_
  · have sets : Concurs (DirectoryKeeper.setTime entry.path entry.mtime : EStateM Fault RootedDisk Unit)
        now.keeper (DirectoryKeeper.setTime entry.path entry.mtime) there.keeper
        fun _ after after' => after.Agrees root kept
          (fun place => dated place ∨ entry.path.placeBeneath root = some place) after' := by
      refine RootedDisk.change_concurs agrees fun place placed =>
        Disk.granted_concurs (.change ?_)
      refine (agrees.trees.setTime entry.mtime).mono fun other fine => fine.imp_right fun same => ?_
      exact (Option.some.inj (placed.symm.trans same)).symm
    refine (fixOne_concurs sets).bind fun _ _ _ agrees => .pure ?_
    exact { agrees with trees := agrees.trees.mono fun _ fine => fine.imp_right And.right }
  · refine { agrees with trees := agrees.trees.mono fun _ fine => ?_ }
    exact fine.resolve_right fun timed => untimed timed.1

theorem fixPermissions_concurs (isNew : Bool) (entry : ListEntry) (done : Fixups)
    (agrees : now.keeper.Agrees root kept dated there.keeper) :
    Concurs (fixPermissions options isNew entry done) now (fixPermissions options isNew entry done)
      there fun _ after after' => after.keeper.Agrees root kept dated after'.keeper := by
  refine .cond (fun _ => ?_) fun _ => .pure agrees
  refine (fixOne_concurs ?_).bind fun _ _ _ agrees => .pure agrees
  exact RootedDisk.change_concurs agrees fun place placed =>
    Disk.granted_concurs (.change (agrees.trees.setPermissions _))

theorem fixEntry_concurs (done : Fixups) (item : ListEntry × Nat)
    (agrees : now.keeper.Agrees root kept dated there.keeper) :
    Concurs (fixEntry options marks done item) now (fixEntry options marks done item) there
      fun _ after after' => after.keeper.Agrees root kept
        (fun place => dated place ∨ options.preserveTimes = true ∧ Dates root [item.1] place)
        after'.keeper := by
  refine .cond (fun directory => ?_) fun other => .pure ?_
  · refine (fixTime_concurs item.1 done agrees).bind fun done _ _ agrees => ?_
    refine (fixPermissions_concurs _ item.1 done agrees).mono fun _ _ _ agrees => ?_
    refine { agrees with trees := agrees.trees.mono fun place fine => fine.imp_right fun timed => ?_ }
    obtain ⟨times, entry, listed, -, placed⟩ := timed
    exact ⟨times, List.mem_singleton.mp listed ▸ placed⟩
  · refine { agrees with trees := agrees.trees.mono fun place fine => fine.resolve_right fun timed => ?_ }
    obtain ⟨-, entry, listed, directory, -⟩ := timed
    exact other (List.mem_singleton.mp listed ▸ directory)

theorem fixEntries_concurs (items : List (ListEntry × Nat)) (done : Fixups)
    (agrees : now.keeper.Agrees root kept dated there.keeper) :
    Concurs (items.foldlM (fixEntry options marks) done) now
      (items.foldlM (fixEntry options marks) done) there
      fun _ after after' => after.keeper.Agrees root kept
        (fun place => dated place ∨
          options.preserveTimes = true ∧ Dates root (items.map Prod.fst) place)
        after'.keeper := by
  induction items generalizing now there dated done with
  | nil =>
      refine .pure { agrees with trees := agrees.trees.mono fun place fine => ?_ }
      refine fine.resolve_right fun timed => ?_
      obtain ⟨-, entry, listed, -⟩ := timed
      cases listed
  | cons item rest ih =>
      rw [List.foldlM_cons]
      refine (fixEntry_concurs done item agrees).bind fun done _ _ agrees => ?_
      refine (ih done agrees).mono fun _ _ _ agrees => ?_
      refine { agrees with trees := agrees.trees.mono fun place fine => ?_ }
      rcases fine with earlier | ⟨times, entry, listed, directory, placed⟩
      · exact .inl (.inl earlier)
      · rcases List.mem_cons.mp listed with rfl | later
        · exact .inl (.inr ⟨times, _, List.mem_singleton_self _, directory, placed⟩)
        · exact .inr ⟨times, entry, later, directory, placed⟩

/-- Fixing up two trees that agree but for times leaves them in agreement, on the times of
the listed directories too if those are set. -/
theorem fixUp_concurs (files : List ListEntry)
    (agrees : now.keeper.Agrees root kept dated there.keeper) :
    Concurs (fixUp options files marks) now (fixUp options files marks) there
      fun _ after after' => after.keeper.Agrees root kept
        (fun place => dated place ∨ (options.recursive = true ∧ options.preserveTimes = true) ∧
          Dates root files place)
        after'.keeper := by
  refine .cond (fun recursive => ?_) fun flat => .pure ?_
  · refine (fixEntries_concurs _ _ agrees).mono fun _ _ _ agrees => ?_
    refine { agrees with trees := agrees.trees.mono fun place fine => fine.imp_right fun timed => ?_ }
    rw [List.zipIdx_map_fst]
    exact ⟨timed.1.2, timed.2⟩
  · refine { agrees with trees := agrees.trees.mono fun place fine => ?_ }
    exact fine.resolve_right fun timed => flat timed.1.1

end Destination

end TreeSync

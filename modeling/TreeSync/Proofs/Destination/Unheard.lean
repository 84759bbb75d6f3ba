import TreeSync.Proofs.Concurring
import TreeSync.Proofs.Destination.Reach
import TreeSync.Proofs.Following

namespace TreeSync

/-! What is done to the destination does not depend on what was reported before. -/

open TreeSync.Action

namespace Host

variable {ε α β : Type} {now there : Host}

/-- Whether a step ends in the same way on hosts that share a disk. -/
def Unheard (step : EStateM ε Host α) : Prop :=
  ∀ now there : Host, now.disk = there.disk →
    Concurs step now step there fun _ after after' => after.disk = after'.disk

namespace Unheard

theorem pure (value : α) : Unheard (Pure.pure value : EStateM ε Host α) :=
  fun _ _ same => .pure same

theorem throw (cause : ε) : Unheard (MonadExcept.throw cause : EStateM ε Host α) :=
  fun _ _ _ => .throw

theorem bind {step : EStateM ε Host β} {rest : β → EStateM ε Host α} (first : Unheard step)
    (next : ∀ value, Unheard (rest value)) : Unheard (step >>= rest) :=
  fun now there same => (first now there same).bind fun value after after' => next value after after'

theorem cond {condition : Prop} [Decidable condition] {yes no : EStateM ε Host α}
    (holds : Unheard yes) (fails : Unheard no) : Unheard (if condition then yes else no) :=
  fun now there same => .cond (fun _ => holds now there same) fun _ => fails now there same

theorem onDisk (step : EStateM ε Disk α) : Unheard (Host.onDisk step) := by
  intro now there same
  refine .within ?_
  rw [same]
  exact .again fun _ _ _ => rfl

theorem explaining {δ : Type} {explain : δ → ε} {step : EStateM δ Host α} (inner : Unheard step) :
    Unheard (Action.explaining explain step) :=
  fun now there same => .explaining (inner now there same)

theorem attempt {δ : Type} (step : EStateM δ Disk α) :
    Unheard (Action.attempt (Host.onDisk step) : EStateM ε Host (Except δ α)) := by
  intro now there same
  have fails {now there : Host} (same : now.disk = there.disk) (cause : δ) (after : Host)
      (failed : Host.onDisk step now = .error cause after) :
      ∃ after', Host.onDisk step there = .error cause after' ∧ after.disk = after'.disk := by
    unfold Host.onDisk within at failed ⊢
    rw [same] at failed
    cases ran : step there.disk with
    | ok value disk =>
        rw [ran] at failed
        cases failed
    | error cause' disk =>
        rw [ran] at failed
        cases failed
        exact ⟨_, rfl, rfl⟩
  refine .attempt (onDisk step now there same) (fails same) fun cause after failed => ?_
  obtain ⟨after', failed, -⟩ := fails same.symm cause after failed
  exact ⟨after', failed⟩

theorem info (flag : InfoFlag) (level : UInt8) (message : String) :
    Unheard (Host.info flag level message : EStateM ε Host Unit) :=
  fun _ _ same => .change same

theorem debug (flag : DebugFlag) (level : UInt8) (message : String) :
    Unheard (Host.debug flag level message : EStateM ε Host Unit) :=
  fun _ _ same => .change same

theorem foldlM {step : β → α → EStateM ε Host β} (each : ∀ value item, Unheard (step value item))
    (items : List α) (value : β) : Unheard (items.foldlM step value) :=
  fun _ _ same => .foldlM (fun value item now there => each value item now there) items value same

theorem mapM {step : α → EStateM ε Host β} (each : ∀ item, Unheard (step item)) (items : List α) :
    Unheard (items.mapM step) :=
  fun _ _ same => .mapM (fun item now there => each item now there) items same

end Unheard

end Host

namespace Destination

open Host (Unheard)

theorem reportRemoval_unheard {ε : Type} (removals : Removals) (entry : FoundEntry) :
    Unheard (reportRemoval removals entry : EStateM ε Host Removals) :=
  .bind (.info _ _ _) fun _ => .pure _

theorem planRemovals_unheard {ε : Type} (found : List FoundEntry) (listed : List ListEntry) :
    Unheard (planRemovals found listed : EStateM ε Host Removals) :=
  .foldlM reportRemoval_unheard _ _

theorem pruneAll_unheard (root : Location) (found : List FoundEntry) (listed : List ListEntry) :
    Unheard (pruneAll root found listed) := by
  have prunes (removals : Removals) (entry : FoundEntry) : Unheard (prune root removals entry) :=
    .bind (.explaining (.onDisk _)) fun _ => reportRemoval_unheard removals entry
  exact .bind (.foldlM prunes _ _) fun removals => .bind (.debug _ _ _) fun _ => .pure removals

theorem contents_unheard (root : Path) : Unheard (contents root) := by
  refine .bind (.attempt (findRoot root)) fun found => ?_
  split
  · exact .cond (.pure _) (.throw _)
  · exact .pure _
  · next directory =>
    have lists (found : Location × Node) : Unheard (listNode root directory found) :=
      .cond (.throw _) (.bind (.debug _ _ _) fun _ => .pure _)
    refine .bind (.debug _ _ _) fun _ now there same => .get ?_
    rw [same]
    refine Unheard.bind (.mapM lists _) (fun entries => ?_) now there same
    exact .bind (.debug _ _ _) fun _ => .pure _

/-- A listing that succeeds does so on every host with that tree, seen from the same directory. -/
theorem contents_follows {now there : Host} (tree : there.disk.tree = now.disk.tree)
    (origin : there.disk.workingDirectory = now.disk.workingDirectory) (root : Path) :
    Follows (contents root) now (contents root) there fun _ _ _ => True := by
  have same : rootOn there root = rootOn now root := by
    unfold rootOn
    rw [tree, origin]
  intro entries after ran
  rw [contents, bind_ok (attempt_findRoot root now)] at ran
  rw [contents, bind_ok (attempt_findRoot root there), same]
  revert entries after
  change Follows _ now _ there _
  split
  · exact .cond (fun _ => .pure trivial) fun _ => .throw
  · exact .pure trivial
  · next directory _ =>
    refine .changeThen (.get ?_)
    have listed : there.disk.tree.beneath directory = now.disk.tree.beneath directory := by rw [tree]
    dsimp only
    rw [listed]
    have lists (found : Location × Node) (now there : Host) (_ : True) :
        Follows (listNode root directory found) now (listNode root directory found) there
          fun _ _ _ => True :=
      .cond (fun _ => .throw) fun _ => .changeThen (.pure trivial)
    exact (Follows.mapM lists _ trivial).bind fun _ _ _ _ => .changeThen (.pure trivial)

end Destination

end TreeSync

import TreeSync.Proofs.Disk.Effects
import TreeSync.Transfer.FileRequester

namespace TreeSync

/-! What the uploader does to the disk.

It makes at most one directory in a step: that of an entry of the list, where nothing
stood before.
-/

open TreeSync.Action

namespace Disk

variable {root : Location}

theorem parentBeneath_keeps (path : Path) : Keeps Eq (parentBeneath root path) :=
  fun _ => (parentBeneath_meets path).mono (fun _ _ met => ⟨met.1, trivial⟩) (fun _ _ same => same)

theorem nodeAt_keeps {directory : Location} {name : Name} : Keeps Eq (nodeAt directory name) :=
  fun _ => nodeAt_meets.mono (fun _ _ met => ⟨met.1, trivial⟩) (fun _ _ same => same)

theorem reach_meets {disk : Disk} (path : Path) :
    Meets (reach root path) disk
      (fun seat after => disk = after ∧ disk.tree.Seats root path seat.1 seat.2)
      (fun _ after => disk = after) :=
  Meets.explaining (parentBeneath_meets path)

end Disk

theorem Standing.find_keeps (root : Location) (path : Path) : Keeps Eq (find root path) := by
  unfold find
  refine .bind .eq (.attempt (.explaining (Disk.parentBeneath_keeps path))) fun seat _ => ?_
  split
  · split
    · exact .pure .eq trivial
    · exact .throw .eq
  · refine .bind .eq (.attempt Disk.nodeAt_keeps) fun node _ => ?_
    split
    · exact .pure .eq trivial
    · split
      · exact .pure .eq trivial
      · exact .throw .eq

/-- A disk on which the directory of an entry was made, if anything was done to it. -/
inductive Task.Prepares (task : Task) (before : Disk) : Disk → Prop
  | nothing : Prepares task before before
  | directory {root parent : Location} {name : Name} {entry : ListEntry} {permissions : UInt32}
      (opened : task.root = some root) (listed : entry ∈ task.files)
      (kind : entry.isDirectory = true) (leads : before.tree.Leads root parent)
      (plain : name.Plain) (place : entry.path.placeBeneath root = some (name :: parent))
      (free : before.tree.get? (name :: parent) = none) :
      Prepares task before (before.perform (.madeDirectory (name :: parent) permissions))

theorem Task.destination_meets (task : Task) {σ : Type} {before : σ} :
    Meets (ofExcept task.destination : EStateM Fault σ Location) before
      (fun root after => before = after ∧ task.root = some root) (fun _ after => before = after) := by
  unfold destination
  split
  · next root opened => exact Meets.pure ⟨rfl, opened⟩
  · exact Meets.throw rfl

namespace Uploading

variable {ε α υ κ : Type}

def SameDisk (before after : Uploading υ κ) : Prop :=
  before.host.disk = after.host.disk

theorem SameDisk.accumulates : Accumulates (SameDisk (υ := υ) (κ := κ)) :=
  ⟨fun _ => rfl, Eq.trans⟩

theorem onDisk_keeps {step : EStateM ε Disk α} (keeps : Keeps Eq step) :
    Keeps SameDisk (onHost (Host.onDisk step) : EStateM ε (Uploading υ κ) α) := by
  have onHost : Keeps (fun before after => before.disk = after.disk) (Host.onDisk step) :=
    .within keeps fun _ _ same => same
  exact .within onHost fun _ _ same => same

theorem debug_keeps {flag : DebugFlag} {level : UInt8} {message : String} :
    Keeps SameDisk (onHost (Host.debug flag level message) : EStateM ε (Uploading υ κ) Unit) :=
  fun _ => ⟨rfl, trivial⟩

theorem info_keeps {flag : InfoFlag} {level : UInt8} {message : String} :
    Keeps SameDisk (onHost (Host.info flag level message) : EStateM ε (Uploading υ κ) Unit) :=
  fun _ => ⟨rfl, trivial⟩

theorem send_keeps [ByteSink κ] (emission : Emission) :
    Keeps SameDisk (send emission : EStateM Fault (Uploading υ κ) Unit) := by
  intro before
  unfold send
  refine Meets.within ?_
  exact Meets.intro (fun _ _ _ => ⟨rfl, trivial⟩) (fun _ _ _ => rfl)

end Uploading

namespace FileRequester

open Uploading

variable {κ : Type}

abbrev Preparing (task : Task) (step : EStateM Fault (Uploading FileRequester κ) α) : Prop :=
  ∀ before, Meets step before
    (fun _ after => task.Prepares before.host.disk after.host.disk)
    (fun _ after => task.Prepares before.host.disk after.host.disk)

namespace Preparing

variable {α β : Type} {task : Task}

theorem of_keeps {step : EStateM Fault (Uploading FileRequester κ) α}
    (keeps : Keeps SameDisk step) : Preparing task step := by
  intro before
  refine (keeps before).mono ?_ ?_
  · intro _ after met
    obtain ⟨same, _⟩ := met
    unfold SameDisk at same
    exact same ▸ .nothing
  · intro _ after same
    unfold SameDisk at same
    exact same ▸ .nothing

theorem bind {step : EStateM Fault (Uploading FileRequester κ) β}
    {rest : β → EStateM Fault (Uploading FileRequester κ) α} (keeps : Keeps SameDisk step)
    (next : ∀ value, Preparing task (rest value)) : Preparing task (step >>= rest) := by
  intro before
  refine Meets.bind ((keeps before).mono (fun _ _ met => met.1) ?_) ?_
  · intro _ after same
    unfold SameDisk at same
    exact same ▸ .nothing
  · intro value after same
    unfold SameDisk at same
    rw [same]
    exact next value after

theorem andThen {step : EStateM Fault (Uploading FileRequester κ) β}
    {rest : β → EStateM Fault (Uploading FileRequester κ) α} (prepares : Preparing task step)
    (keeps : ∀ value, Keeps SameDisk (rest value)) : Preparing task (step >>= rest) := by
  intro before
  refine Meets.bind (prepares before) fun value middle prepared => ?_
  refine (keeps value middle).mono ?_ ?_
  · intro _ after met
    obtain ⟨same, _⟩ := met
    unfold SameDisk at same
    exact same ▸ prepared
  · intro _ after same
    unfold SameDisk at same
    exact same ▸ prepared

theorem get {rest : Uploading FileRequester κ → EStateM Fault (Uploading FileRequester κ) α}
    (next : ∀ state, Preparing task (rest state)) : Preparing task (MonadState.get >>= rest) :=
  fun before => Meets.get (next before before)

end Preparing

theorem makeDirectory_prepares {task : Task} {root : Location} {entry : ListEntry}
    {permissions : UInt32} (opened : task.root = some root) (listed : entry ∈ task.files)
    (kind : entry.isDirectory = true) :
    Preparing (κ := κ) task (Uploading.onHost <| Host.onDisk do
      let (parent, name) ← Disk.reach root entry.path
      Disk.makeDirectory parent name permissions) := by
  intro before
  refine Meets.within (Meets.within ?_)
  refine (Disk.reach_meets entry.path).followedBy ?_ ?_
  · intro _ after same
    exact same ▸ .nothing
  · intro seat _ met
    obtain ⟨parent, name⟩ := seat
    obtain ⟨rfl, seated⟩ := met
    refine Disk.makeDirectory_meets.mono ?_ ?_
    · intro _ _ made
      obtain ⟨other, free, rfl⟩ := made
      cases seated with
      | itself => exact absurd rfl other
      | entry leads plain place => exact .directory opened listed kind leads plain place free
    · intro _ after same
      exact same ▸ .nothing

theorem prepareDirectory_prepares {task : Task} {root : Location} {index : Nat} {entry : ListEntry}
    (opened : task.root = some root) (listed : entry ∈ task.files)
    (kind : entry.isDirectory = true) :
    Preparing task (prepareDirectory (κ := κ) index entry.path task root) := by
  refine .bind (onDisk_keeps (Standing.find_keeps root entry.path)) fun standing => ?_
  split
  · exact .of_keeps (.pure SameDisk.accumulates trivial)
  · refine .andThen (makeDirectory_prepares opened listed kind) fun _ => ?_
    exact .bind SameDisk.accumulates (.change fun _ => rfl) fun _ _ => debug_keeps
  · exact .of_keeps (.throw SameDisk.accumulates)
  · exact .of_keeps (.throw SameDisk.accumulates)

theorem examineDirectory_prepares {task : Task} {index : Nat} {entry : ListEntry}
    (listed : entry ∈ task.files) (kind : entry.isDirectory = true) :
    Preparing task (examineDirectory (κ := κ) index entry task) := by
  refine .get fun uploading => ?_
  dsimp only
  split
  · exact .of_keeps info_keeps
  · split
    · exact .of_keeps (.pure SameDisk.accumulates trivial)
    · intro before
      refine task.destination_meets.followedBy ?_ ?_
      · intro _ after same
        exact same ▸ .nothing
      · intro root _ met
        obtain ⟨rfl, opened⟩ := met
        exact prepareDirectory_prepares opened listed kind before

variable [ByteSink κ]

theorem requestFile_keeps (index : Nat) (entry : ListEntry) (task : Task) :
    Keeps SameDisk (requestFile (κ := κ) index entry task) := by
  unfold requestFile
  split
  · exact .throw SameDisk.accumulates
  · refine .bind SameDisk.accumulates (send_keeps _) fun _ _ => ?_
    exact .bind SameDisk.accumulates debug_keeps fun _ _ => .change fun _ => rfl

theorem examineFile_keeps (index : Nat) (entry : ListEntry) (task : Task) :
    Keeps SameDisk (examineFile (κ := κ) index entry task) := by
  refine .get fun uploading => ?_
  split
  · exact info_keeps
  · refine .bind SameDisk.accumulates (.ofExcept SameDisk.accumulates fun _ _ => trivial) ?_
    intro root _
    refine .bind SameDisk.accumulates (onDisk_keeps (Standing.find_keeps root entry.path)) ?_
    intro standing _
    split
    · exact .bind SameDisk.accumulates debug_keeps fun _ _ => .change fun _ => rfl
    · split
      · exact .throw SameDisk.accumulates
      · exact requestFile_keeps index entry task

theorem examine_prepares {task : Task} {index : Nat} {entry : ListEntry}
    (listed : entry ∈ task.files) : Preparing task (examine (κ := κ) index entry task) := by
  unfold examine
  split
  · next kind => exact examineDirectory_prepares listed kind
  · split
    · exact .of_keeps (examineFile_keeps index entry task)
    · exact .of_keeps info_keeps

theorem announceEnd_keeps : Keeps SameDisk (announceEnd (κ := κ)) := by
  refine .bind SameDisk.accumulates (send_keeps _) fun _ _ => ?_
  refine .bind SameDisk.accumulates (.change fun _ => rfl) fun _ _ => ?_
  exact .get fun _ => debug_keeps

theorem advance_prepares (task : Task) : Preparing task (advance (κ := κ) task) := by
  refine .bind (.change fun _ => rfl) fun _ => .get fun uploading => ?_
  split
  · next index _ =>
    split
    · next entry listed =>
      exact .andThen (examine_prepares (List.mem_of_getElem? listed)) fun _ => .change fun _ => rfl
    · exact .of_keeps (.change fun _ => rfl)
  · exact .of_keeps announceEnd_keeps
  · exact .of_keeps (.pure SameDisk.accumulates trivial)

end FileRequester

end TreeSync

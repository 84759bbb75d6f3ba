import TreeSync.Proofs.Following
import TreeSync.Proofs.Stream.Sending
import TreeSync.Proofs.Transfer.Overlay

namespace TreeSync

/-! The uploader among arriving files, and alone.

Whatever a step of the uploader brings about while files arrive, it would also bring about
on a disk without them. It looks at one place only, and nothing arrives there before it has
passed.
-/

open TreeSync.Action

namespace FileRequester

variable {κ : Type} {laid : Location → Prop} {sent : κ → Bytes → Prop} {task : Task}

/-- The uploader at work, and the same uploader alone with a sink that keeps everything. -/
structure Shadows (laid : Location → Prop) (sent : κ → Bytes → Prop)
    (now : Uploading FileRequester κ) (bare : Uploading FileRequester BoundedSink) : Prop where
  uploader : now.uploader = bare.uploader
  cursor : now.cursor = bare.cursor
  marks : now.newDirectories = bare.newDirectories
  overlays : now.host.disk.tree.Overlays laid bare.host.disk.tree
  umask : now.host.disk.umask = bare.host.disk.umask
  said : ∃ said, sent now.connection said ∧ bare.connection.Holds said

variable {now : Uploading FileRequester κ} {bare : Uploading FileRequester BoundedSink}

theorem onDisk_shadows {α : Type} {step other : EStateM Fault Disk α}
    (shadows : Shadows laid sent now bare)
    (inner : Follows step now.host.disk other bare.host.disk fun _ disk bareDisk =>
      disk.tree.Overlays laid bareDisk.tree ∧ disk.umask = bareDisk.umask) :
    Follows (Uploading.onHost (Host.onDisk step)) now (Uploading.onHost (Host.onDisk other)) bare
      fun _ after bareAfter => Shadows laid sent after bareAfter := by
  refine .within (.within (inner.mono fun _ _ _ held => ?_))
  exact { shadows with overlays := held.1, umask := held.2 }

theorem debug_shadows {flag : DebugFlag} {level : UInt8} {message message' : String}
    (shadows : Shadows laid sent now bare) :
    Follows (Uploading.onHost (Host.debug flag level message) : EStateM Fault _ Unit) now
      (Uploading.onHost (Host.debug flag level message') : EStateM Fault _ Unit) bare
      fun _ after bareAfter => Shadows laid sent after bareAfter :=
  .within (.change { shadows with })

theorem info_shadows {flag : InfoFlag} {level : UInt8} {message message' : String}
    (shadows : Shadows laid sent now bare) :
    Follows (Uploading.onHost (Host.info flag level message) : EStateM Fault _ Unit) now
      (Uploading.onHost (Host.info flag level message') : EStateM Fault _ Unit) bare
      fun _ after bareAfter => Shadows laid sent after bareAfter :=
  .within (.change { shadows with })

theorem find_shadows {root : Location} {path : Path} (shadows : Shadows laid sent now bare)
    (apart : ∀ place, path.placeBeneath root = some place → ¬ laid place) :
    Follows (Uploading.onHost (Host.onDisk (Standing.find root path))) now
      (Uploading.onHost (Host.onDisk (Standing.find root path))) bare
      fun _ after bareAfter => Shadows laid sent after bareAfter := by
  refine onDisk_shadows shadows fun standing after found => ?_
  obtain ⟨rfl, bareFound⟩ := Standing.find_overlaid shadows.overlays apart found
  exact ⟨_, bareFound, shadows.overlays, shadows.umask⟩

theorem prepareDirectory_shadows {index : Nat} {path : Path} {root : Location}
    (shadows : Shadows laid sent now bare)
    (apart : ∀ place, path.placeBeneath root = some place → ¬ laid place) :
    Follows (prepareDirectory index path task root) now (prepareDirectory index path task root) bare
      fun _ after bareAfter => Shadows laid sent after bareAfter := by
  refine (find_shadows shadows apart).bind fun standing now bare shadows => ?_
  split
  · exact .pure shadows
  · refine (onDisk_shadows shadows ?_).bind fun _ now bare shadows => ?_
    · have sees : Disk.Sees (Disk.reach root path) now.host.disk bare.host.disk :=
        Disk.reach_sees shadows.overlays.guides path
      have reaches : Follows (Disk.reach root path) now.host.disk (Disk.reach root path)
          bare.host.disk fun _ after bareAfter =>
            after.tree.Overlays laid bareAfter.tree ∧ after.umask = bareAfter.umask := by
        intro seat after ran
        obtain ⟨rfl, there⟩ := sees.done seat after ran
        exact ⟨_, there, shadows.overlays, shadows.umask⟩
      refine reaches.bind fun seat disk bareDisk held => ?_
      intro _ after made
      obtain ⟨bareAfter, bareMade, overlays, umask⟩ :=
        Disk.makeDirectory_overlaid held.1 held.2 made
      exact ⟨bareAfter, bareMade, overlays, umask⟩
    · refine .bind (.change ?_) fun _ now bare shadows => debug_shadows shadows
      exact { shadows with marks := by rw [shadows.marks] }
  · exact .throw
  · exact .throw

theorem destination_shadows (shadows : Shadows laid sent now bare) :
    Follows (ofExcept task.destination : EStateM Fault (Uploading FileRequester κ) Location) now
      (ofExcept task.destination : EStateM Fault (Uploading FileRequester BoundedSink) Location) bare
      fun root after bareAfter => Shadows laid sent after bareAfter ∧ task.root = some root := by
  refine .ofExcept fun root opened => ⟨shadows, ?_⟩
  unfold Task.destination at opened
  split at opened
  · next there =>
    cases opened
    exact there
  · cases opened

theorem examineDirectory_shadows {index : Nat} {entry : ListEntry}
    (shadows : Shadows laid sent now bare)
    (apart : ∀ root place, task.root = some root → entry.path.placeBeneath root = some place →
      ¬ laid place) :
    Follows (examineDirectory index entry task) now (examineDirectory index entry task) bare
      fun _ after bareAfter => Shadows laid sent after bareAfter := by
  refine .get ?_
  rw [shadows.uploader]
  refine .cond (fun _ => info_shadows shadows) fun _ => .cond (fun _ => .pure shadows) fun _ => ?_
  refine (destination_shadows shadows).bind fun root now bare held => ?_
  exact prepareDirectory_shadows held.1 fun place => apart root place held.2

variable [ByteSink κ]

theorem send_shadows {emission : Emission} (adds : ByteSink.Adds sent fun _ _ => True)
    (whole : emission.refusal = none) (shadows : Shadows laid sent now bare) :
    Follows (Uploading.send emission) now (Uploading.send emission) bare
      fun _ after bareAfter => Shadows laid sent after bareAfter := by
  refine .within fun _ connection ran => ?_
  obtain ⟨said, held, bareHeld⟩ := shadows.said
  have sending := (Emission.send_meets adds whole held).of_ok ran
  obtain ⟨_, sink, bareRan, keeps⟩ :=
    (Emission.send_meets BoundedSink.accepts whole bareHeld).succeeds
  exact ⟨sink, bareRan, { shadows with said := ⟨_, sending, keeps⟩ }⟩

theorem requestFile_shadows {index : Nat} {entry : ListEntry}
    (adds : ByteSink.Adds sent fun _ _ => True) (shadows : Shadows laid sent now bare) :
    Follows (requestFile index entry task) now (requestFile index entry task) bare
      fun _ after bareAfter => Shadows laid sent after bareAfter := by
  refine .cond (fun _ => .throw) fun _ => (send_shadows adds rfl shadows).bind ?_
  intro _ now bare shadows
  refine (debug_shadows shadows).bind fun _ now bare shadows => .change ?_
  exact { shadows with uploader := by rw [shadows.uploader] }

theorem examineFile_shadows {index : Nat} {entry : ListEntry}
    (adds : ByteSink.Adds sent fun _ _ => True) (shadows : Shadows laid sent now bare)
    (apart : ∀ root place, task.root = some root → entry.path.placeBeneath root = some place →
      ¬ laid place) :
    Follows (examineFile index entry task) now (examineFile index entry task) bare
      fun _ after bareAfter => Shadows laid sent after bareAfter := by
  refine .get ?_
  rw [shadows.uploader]
  refine .cond (fun _ => info_shadows shadows) fun _ => ?_
  refine (destination_shadows shadows).bind fun root now bare held => ?_
  refine (find_shadows held.1 fun place => apart root place held.2).bind ?_
  intro standing now bare shadows
  refine .cond (fun _ => ?_) fun _ => .cond (fun _ => .throw) fun _ => ?_
  · refine (debug_shadows shadows).bind fun _ now bare shadows => .change ?_
    exact { shadows with uploader := by rw [shadows.uploader] }
  · exact requestFile_shadows adds shadows

theorem examine_shadows {index : Nat} {entry : ListEntry}
    (adds : ByteSink.Adds sent fun _ _ => True) (shadows : Shadows laid sent now bare)
    (apart : ∀ root place, task.root = some root → entry.path.placeBeneath root = some place →
      ¬ laid place) :
    Follows (examine index entry task) now (examine index entry task) bare
      fun _ after bareAfter => Shadows laid sent after bareAfter :=
  .cond (fun _ => examineDirectory_shadows shadows apart) fun _ =>
    .cond (fun _ => examineFile_shadows adds shadows apart) fun _ => info_shadows shadows

omit [ByteSink κ] in
theorem moveOn_shadows (shadows : Shadows laid sent now bare) :
    Follows (moveOn (κ := κ)) now (moveOn (κ := BoundedSink)) bare
      fun _ after bareAfter => Shadows laid sent after bareAfter :=
  .change { shadows with cursor := by rw [shadows.cursor] }

theorem announceEnd_shadows (adds : ByteSink.Adds sent fun _ _ => True)
    (shadows : Shadows laid sent now bare) :
    Follows (announceEnd (κ := κ)) now (announceEnd (κ := BoundedSink)) bare
      fun _ after bareAfter => Shadows laid sent after bareAfter := by
  refine (send_shadows adds rfl shadows).bind fun _ now bare shadows => ?_
  refine (moveOn_shadows shadows).bind fun _ now bare shadows => .get ?_
  exact debug_shadows shadows

/-- What a step of the uploader brings about among arriving files, it brings about alone,
as long as none of the files stands in the place of the entry it is about. -/
theorem advance_shadows (adds : ByteSink.Adds sent fun _ _ => True)
    (shadows : Shadows laid sent now bare)
    (apart : ∀ index entry root place, now.cursor.position? = some (.entry index) →
      task.files[index]? = some entry → task.root = some root →
      entry.path.placeBeneath root = some place → ¬ laid place) :
    Follows (advance task) now (advance task) bare
      fun _ after bareAfter => Shadows laid sent after bareAfter := by
  have lent : Shadows laid sent { now with secondary := none }
      { bare with secondary := none, cursor := now.cursor } := { shadows with cursor := rfl }
  refine .changeThen (.get ?_)
  dsimp only
  rw [← shadows.cursor]
  cases position : now.cursor.position? with
  | none => exact .pure lent
  | some place =>
      cases place with
      | endOfList => exact announceEnd_shadows adds lent
      | entry index =>
          dsimp only
          cases listed : task.files[index]? with
          | none => exact moveOn_shadows lent
          | some entry =>
              dsimp only
              have clear (root place : Location) := apart index entry root place position listed
              refine (examine_shadows adds lent clear).bind fun _ now bare shadows => ?_
              exact moveOn_shadows shadows

end FileRequester

end TreeSync

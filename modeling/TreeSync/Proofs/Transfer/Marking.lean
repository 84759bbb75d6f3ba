import Mathlib.Data.List.Basic
import TreeSync.Proofs.Outcomes
import TreeSync.Transfer.FileRequester

namespace TreeSync

/-! Which entries the uploader marks as new: directories of the list, and nothing else. -/

open TreeSync.Action

namespace NewDirectories

/-- Marks that are kept for a list, on nothing but directories. -/
structure Fits (marks : NewDirectories) (files : List ListEntry) : Prop where
  length : marks.flags.length = files.length
  directories : ∀ index, marks.isNew index = true →
    ∃ entry, files[index]? = some entry ∧ entry.isDirectory = true

namespace Fits

variable {marks : NewDirectories} {files : List ListEntry}

theorem none (files : List ListEntry) : (NewDirectories.none files.length).Fits files where
  length := List.length_replicate
  directories index marked := by
    simp only [isNew, NewDirectories.none, List.getElem?_replicate] at marked
    split at marked <;> cases marked

theorem mark {index : Nat} {entry : ListEntry} (fits : marks.Fits files)
    (listed : files[index]? = some entry) (directory : entry.isDirectory = true) :
    (marks.mark index).Fits files where
  length := (length_flags_mark marks index).trans fits.length
  directories other marked := by
    rw [isNew_mark, Bool.or_eq_true, Bool.and_eq_true, decide_eq_true_eq, decide_eq_true_eq] at marked
    rcases marked with earlier | ⟨rfl, -⟩
    · exact fits.directories other earlier
    · exact ⟨entry, listed, directory⟩

/-- Every mark counts for one directory of the list. -/
theorem count (fits : marks.Fits files) : marks.count =
    files.zipIdx.countP fun item => item.1.isDirectory && marks.isNew item.2 := by
  have flags : (List.range' 0 files.length).map marks.isNew = marks.flags := by
    refine List.ext_getElem (by simp [fits.length]) fun index _ inside => ?_
    simp [isNew, inside]
  have kinds : files.zipIdx.countP (fun item => item.1.isDirectory && marks.isNew item.2) =
      files.zipIdx.countP (marks.isNew ∘ Prod.snd) := by
    refine List.countP_congr fun item listed => ?_
    have there := List.mem_zipIdx_iff_getElem?.mp listed
    rw [Bool.and_eq_true, Function.comp_apply, and_iff_right_iff_imp]
    intro marked
    obtain ⟨entry, listed', directory⟩ := fits.directories _ marked
    cases there.symm.trans listed'
    exact directory
  rw [kinds, ← List.countP_map, List.zipIdx_map_snd, NewDirectories.count, List.count, ← flags,
    List.countP_map]
  exact List.countP_congr fun index _ => by simp

end Fits

end NewDirectories

namespace FileRequester

variable {ε α κ : Type} {files : List ListEntry}

/-- A step after which the marks still fit the list. -/
abbrev KeepsFit (files : List ListEntry) (step : EStateM ε (Uploading FileRequester κ) α) : Prop :=
  Keeps (fun before after => before.newDirectories.Fits files → after.newDirectories.Fits files) step

theorem fitting : Accumulates fun before after : Uploading FileRequester κ =>
    before.newDirectories.Fits files → after.newDirectories.Fits files :=
  ⟨fun _ => id, fun earlier later fits => later (earlier fits)⟩

theorem onHost_fits (step : EStateM ε Host α) :
    KeepsFit files (Uploading.onHost step : EStateM ε (Uploading FileRequester κ) α) :=
  .aside fun _ _ => id

theorem prepareDirectory_fits {index : Nat} {entry : ListEntry} (task : Task) (root : Location)
    (listed : files[index]? = some entry) (directory : entry.isDirectory = true) :
    KeepsFit files (prepareDirectory (κ := κ) index entry.path task root) := by
  refine .bind fitting (onHost_fits _) fun standing _ => ?_
  split
  · exact .pure fitting trivial
  · refine .bind fitting (onHost_fits _) fun _ _ => ?_
    exact .bind fitting (.change fun _ fits => fits.mark listed directory) fun _ _ => onHost_fits _
  · exact .throw fitting
  · exact .throw fitting

theorem examineDirectory_fits {index : Nat} {entry : ListEntry} (task : Task)
    (listed : files[index]? = some entry) (directory : entry.isDirectory = true) :
    KeepsFit files (examineDirectory (κ := κ) index entry task) := by
  refine .get fun uploading => .cond (onHost_fits _) (.cond (.pure fitting trivial) ?_)
  exact .bind fitting (.ofExcept fitting fun _ _ => trivial) fun root _ =>
    prepareDirectory_fits task root listed directory

variable [ByteSink κ]

theorem send_fits (emission : Emission) :
    KeepsFit files (Uploading.send emission : EStateM Fault (Uploading FileRequester κ) Unit) :=
  .aside fun _ _ => id

theorem examineFile_fits (index : Nat) (entry : ListEntry) (task : Task) :
    KeepsFit files (examineFile (κ := κ) index entry task) := by
  refine .get fun uploading => .cond (onHost_fits _) ?_
  refine .bind fitting (.ofExcept fitting fun _ _ => trivial) fun root _ => ?_
  refine .bind fitting (onHost_fits _) fun standing _ => .cond ?_ (.cond (.throw fitting) ?_)
  · exact .bind fitting (onHost_fits _) fun _ _ => .change fun _ => id
  · refine .cond (.throw fitting) (.bind fitting (send_fits _) fun _ _ => ?_)
    exact .bind fitting (onHost_fits _) fun _ _ => .change fun _ => id

theorem examine_fits {index : Nat} {entry : ListEntry} (task : Task)
    (listed : files[index]? = some entry) : KeepsFit files (examine (κ := κ) index entry task) := by
  unfold examine
  split
  · next directory => exact examineDirectory_fits task listed directory
  · exact .cond (examineFile_fits index entry task) (onHost_fits _)

/-- The uploader marks no entry but that of a directory, whatever its step comes to. -/
theorem advance_fits (task : Task) : KeepsFit task.files (advance (κ := κ) task) := by
  have moves : KeepsFit task.files (moveOn (κ := κ)) := .change fun _ => id
  refine .bind fitting (.change fun _ => id) fun _ _ => .get fun uploading => ?_
  split
  · next index _ =>
    split
    · next entry listed => exact .bind fitting (examine_fits task listed) fun _ _ => moves
    · exact moves
  · refine .bind fitting (send_fits _) fun _ _ => .bind fitting moves fun _ _ => .get fun _ => ?_
    exact onHost_fits _
  · exact .pure fitting trivial

end FileRequester

end TreeSync

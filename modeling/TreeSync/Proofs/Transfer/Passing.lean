import TreeSync.Proofs.Disk.Showing
import TreeSync.Proofs.Transfer.Collecting

namespace TreeSync

/-! Files are received under names that the system takes.

The directory of an entry is opened before its content is read, and the last name is looked
at when the content is moved there. So each path that content was received for can be
descended from then on, as long as its directories stand.
-/

open TreeSync.Action

section Rename

variable {disk : Disk} {directory : Location} {name : Name} {source : Path}

theorem Disk.renameFile_names (named : name = selfName ∨ name.Plain) :
    Meets (renameFile directory source ⟨name⟩) disk (fun _ _ => name.Sound) (fun _ _ => True) := by
  refine (look_meets _).followedBy (fun _ _ _ => trivial) ?_
  rintro origin _ ⟨rfl, -⟩
  refine (look_meets _).followedBy (fun _ _ _ => trivial) ?_
  rintro destination _ ⟨rfl, resolved⟩
  cases destination with
  | whole place => cases origin <;> exact trivial
  | entry newPlace newName =>
      have checked := Tree.check_of_resolve resolved
      have plain : name.Plain := by
        rcases named with rfl | plain
        · rw [Tree.resolve_self] at resolved
          cases resolved
        · exact plain
      rw [Tree.resolve_plain plain checked] at resolved
      cases resolved
      have clean : 0 ∉ name := fun nul => by simp [Path.check, nul] at checked
      cases origin with
      | whole => exact trivial
      | entry oldPlace oldName =>
          refine (look_meets _).followedBy (fun _ _ _ => trivial) ?_
          rintro found _ ⟨rfl, -⟩
          cases found with
          | none => exact trivial
          | some node =>
              refine (look_meets _).followedBy (fun _ _ _ => trivial) ?_
              rintro occupant _ ⟨rfl, looked⟩
              have fits := (Tree.childAt_ok looked).1
              exact Meets.intro (fun _ _ _ => plain.sound ⟨clean, fits⟩) fun _ _ _ => trivial

end Rename

namespace FileCollector

variable {σ : Type} [ByteSource σ] {task : Task}

/-- What is known of the paths that content was received for, or is being received for. -/
structure Passes (task : Task) (pending : Option ArrivingFile) (downloader : FileCollector) :
    Prop where
  pending : ∀ arriving, pending = some arriving →
    ∃ entry, task.files[arriving.index]? = some entry ∧ entry.path.PassableTo arriving.name
  received : ∀ index ∈ downloader.received,
    ∃ entry, task.files[index]? = some entry ∧ entry.path.Passable

theorem Passes.start {downloader : FileCollector} (fresh : downloader.received = []) :
    Passes task none downloader :=
  ⟨nofun, fun _ listed => by rw [fresh] at listed; cases listed⟩

/-- Steps on the file in progress that neither end it nor take up another. -/
def SameFile (before after : Downloading FileCollector ArrivingFile σ) : Prop :=
  after.pending = before.pending ∧ after.downloader = before.downloader

omit [ByteSource σ] in
theorem SameFile.accumulates : Accumulates (SameFile (σ := σ)) :=
  ⟨fun _ => ⟨rfl, rfl⟩, fun earlier later => ⟨later.1.trans earlier.1, later.2.trans earlier.2⟩⟩

omit [ByteSource σ] in
theorem receive_sameFile {α : Type} (step : EStateM Fault (Inflow σ) α) :
    Keeps SameFile (Downloading.receive step : Step σ α) :=
  .aside fun _ _ => ⟨rfl, rfl⟩

omit [ByteSource σ] in
theorem onDisk_sameFile {α : Type} {step : EStateM Fault Disk α} {good : α → Prop}
    (ends : Keeps (fun _ _ => True) step good) :
    Keeps SameFile (Downloading.onDisk step : Step σ α) good :=
  .within ends fun _ _ _ => ⟨rfl, rfl⟩

omit [ByteSource σ] in
theorem report_sameFile (change : Journal → Journal) :
    Keeps SameFile (Downloading.report change : Step σ Unit) :=
  .change fun _ => ⟨rfl, rfl⟩

theorem begin_passes (index : Int32) (task : Task) :
    Keeps SameFile (begin index.toInt task : Step σ ArrivingFile) fun arriving =>
      ∃ entry, task.files[arriving.index]? = some entry ∧ entry.path.PassableTo arriving.name := by
  have trans := SameFile.accumulates (σ := σ)
  have int := receive_sameFile (σ := σ) Wire.readInt
  refine .bind trans (.ofExcept trans fun _ => announced_ok) fun found fine => ?_
  obtain ⟨position, entry⟩ := found
  refine .bind trans int fun blocks _ => .bind trans int fun _ _ => ?_
  refine .bind trans int fun _ _ => .bind trans int fun _ _ => ?_
  split
  · exact .throw trans
  refine .bind trans (.ofExcept trans fun _ => id) fun root _ => ?_
  have reaches : Keeps (fun _ _ => True) (Disk.reach root entry.path)
      fun seat => entry.path.PassableTo seat.2 := fun _ =>
    Meets.explaining (Disk.parentBeneath_passes.mono (fun _ _ met => ⟨trivial, met.2⟩)
      fun _ _ _ => trivial)
  refine .bind trans (onDisk_sameFile reaches) fun seat passes => ?_
  obtain ⟨parent, name⟩ := seat
  refine .bind trans (.aside fun _ _ => ⟨rfl, rfl⟩) fun temporary _ => ?_
  exact .bind trans (report_sameFile _) fun _ _ => .pure trans ⟨entry, fine.1, passes⟩

variable {before : Downloading FileCollector ArrivingFile σ}

omit [ByteSource σ] in
theorem commit_passes {arriving : ArrivingFile} {entry : ListEntry} (umask : UInt32)
    (passes : entry.path.PassableTo arriving.name) :
    Meets (commit arriving entry umask) before
      (fun _ after => after.downloader = before.downloader.withReceived arriving entry ∧
        entry.path.Passable)
      (fun _ _ => True) := by
  refine Meets.cond (fun _ => trivial) fun _ => Meets.get ?_
  have named : arriving.name = selfName ∨ arriving.name.Plain := by
    obtain ⟨names, down, -, last⟩ := passes
    rw [← last]
    cases ends : names.getLast? with
    | none => exact .inl rfl
    | some name => exact .inr (Path.plain_of_mem_descent down (List.mem_of_getLast? ends))
  have moves {disk : Disk} : Meets (arriving.temporary.persist ⟨arriving.name⟩) disk
      (fun _ _ => arriving.name.Sound) (fun _ _ => True) :=
    Meets.onFailure (Disk.renameFile_names named)
  have finishes : Meets (do
      Disk.setPermissions arriving.temporary.file (before.downloader.permissionsFor entry umask)
      if before.downloader.preserveTimes then Disk.setTime arriving.temporary.file entry.mtime
      arriving.temporary.persist ⟨arriving.name⟩) before.disk
      (fun _ _ => arriving.name.Sound) (fun _ _ => True) := by
    refine (Disk.setPermissions_meets _).followedBy (fun _ _ _ => trivial) fun _ _ _ => ?_
    split
    · exact (Disk.setTime_meets _ _).followedBy (fun _ _ _ => trivial) fun _ _ _ => moves
    · exact moves
  refine Downloading.onDisk_then finishes (fun _ _ _ => trivial) fun _ disk sound => ?_
  exact Meets.changeThen (Meets.change ⟨rfl, passes.passable sound⟩)

theorem goOn_passes {arriving : ArrivingFile} {entry : ListEntry}
    (listed : task.files[arriving.index]? = some entry)
    (passes : entry.path.PassableTo arriving.name)
    (received : ∀ index ∈ before.downloader.received,
      ∃ entry, task.files[index]? = some entry ∧ entry.path.Passable) :
    Meets (goOn arriving task) before
      (fun pending after => Passes task pending after.downloader) (fun _ _ => True) := by
  have same := (receive_sameFile (σ := σ) Wire.readInt before).mono
    (fun _ _ met => met.1.2) fun _ _ _ => trivial
  refine same.bind fun token middle downloader => ?_
  dsimp only
  refine Meets.cond (fun _ => ?_) fun _ => Meets.cond (fun _ => trivial) fun _ =>
    Meets.cond (fun _ => trivial) fun _ => ?_
  · rw [listed]
    refine (commit_passes task.umask passes).bind fun _ after met => Meets.pure ⟨nofun, ?_⟩
    obtain ⟨taken, passable⟩ := met
    intro index among
    rw [taken, downloader] at among
    rcases List.mem_append.mp among with earlier | last
    · exact received index earlier
    · rw [List.mem_singleton.mp last]
      exact ⟨entry, listed, passable⟩
  · have grows : Keeps SameFile (addPiece arriving token.toInt.toNat : Step σ ArrivingFile)
        fun longer => longer.index = arriving.index ∧ longer.name = arriving.name := by
      have trans := SameFile.accumulates (σ := σ)
      refine .bind trans (receive_sameFile _) fun content _ => ?_
      refine .bind trans (.aside fun _ _ => ⟨rfl, rfl⟩) fun _ _ => ?_
      refine .cond (.throw trans) ?_
      exact .bind trans (report_sameFile _) fun _ _ => .pure trans ⟨rfl, rfl⟩
    refine ((grows middle).mono (fun _ _ met => met) fun _ _ _ => trivial).bind
      fun longer after met => Meets.pure ⟨?_, ?_⟩
    · rintro _ ⟨⟩
      rw [met.2.1, met.2.2]
      exact ⟨entry, listed, passes⟩
    · rw [met.1.2, downloader]
      exact received

/-- One step of the downloader keeps to paths that can be descended. -/
theorem advance_passes (task : Task) (passes : Passes task before.pending before.downloader) :
    Meets (advance task) before (fun _ after => Passes task after.pending after.downloader)
      (fun _ _ => True) := by
  refine Meets.get ?_
  cases held : before.pending with
  | none =>
      have same := (receive_sameFile (σ := σ) Wire.readInt before).mono
        (fun _ _ met => met.1) fun _ _ _ => trivial
      refine same.bind fun index middle met => ?_
      have kept : Passes task middle.pending middle.downloader := by
        rw [met.1, met.2]
        exact passes
      refine Meets.cond (fun _ => Meets.get (Meets.changeThen (Meets.pure kept))) fun _ => ?_
      refine ((begin_passes index task middle).mono (fun _ _ met => met)
        fun _ _ _ => trivial).bind fun arriving after met => Meets.changeThen (Meets.pure ⟨?_, ?_⟩)
      · rintro _ ⟨⟩
        exact met.2
      · rw [met.1.2]
        exact kept.received
  | some arriving =>
      obtain ⟨entry, listed, passable⟩ := passes.pending arriving held
      refine Meets.changeThen (Meets.bind (Meets.onFailure
        (goOn_passes listed passable passes.received)) ?_)
      exact fun pending after passes => Meets.changeThen (Meets.pure passes)

end FileCollector

end TreeSync

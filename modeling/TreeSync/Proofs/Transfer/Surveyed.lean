import TreeSync.Proofs.Transfer.Shadowing
import TreeSync.Proofs.Transfer.Surveying

namespace TreeSync

/-! A whole survey of the destination.

From what each entry is found to be follows what the whole walk has asked for, noted, marked
and made, and what it left as it was. The walk ends with the mark that closes the requests or
at the first obstacle, and nothing more is said after that mark.
-/

open TreeSync.Action

theorem Tree.directory_of_sight {before after : Tree} {place : Location} {permissions : UInt32}
    (same : after.sight place = before.sight place)
    (stands : ∃ mtime, before.get? place = some (.directory ⟨permissions, mtime⟩)) :
    ∃ mtime, after.get? place = some (.directory ⟨permissions, mtime⟩) := by
  obtain ⟨mtime, found⟩ := stands
  unfold Tree.sight at same
  rw [found] at same
  obtain ⟨node, there, alike⟩ := Option.map_eq_some_iff.mp same
  cases node <;> cases alike
  exact ⟨_, there⟩

theorem Node.touch_comp_touch (time : Int64) :
    Node.touch time ∘ Node.touch time = Node.touch time := by
  funext node
  cases node <;> rfl

namespace FileRequester

/-- The entries of the list so far, each as it was found when its turn came. -/
inductive Survey (task : Task) (root : Location) (recursive : Bool) (start : Disk) :
    List Finding → Disk → Prop
  | start : Survey task root recursive start [] start
  | next {findings : List Finding} {finding : Finding} {entry : ListEntry} {middle after : Disk}
      (earlier : Survey task root recursive start findings middle)
      (listed : task.files[findings.length]? = some entry)
      (finds : Finds task root recursive entry middle finding after) :
      Survey task root recursive start (findings ++ [finding]) after

/-- The indices of what was found to be `wanted`, in order. -/
def Finding.indices (wanted : Finding) (findings : List Finding) : List Nat :=
  (List.range findings.length).filter fun index => findings[index]? = some wanted

theorem Finding.getElem?_concat {wanted finding : Finding} {findings : List Finding} {index : Nat} :
    (findings ++ [finding])[index]? = some wanted ↔
      findings[index]? = some wanted ∨ finding = wanted ∧ index = findings.length := by
  rcases Nat.lt_trichotomy index findings.length with less | rfl | more
  · simp [List.getElem?_append_left less, Nat.ne_of_lt less]
  · simp
  · have beyond : findings[index]? = none := List.getElem?_eq_none (Nat.le_of_lt more)
    simp [List.getElem?_append_right (Nat.le_of_lt more), Nat.sub_ne_zero_of_lt more,
      Nat.ne_of_gt more, beyond]

theorem Finding.indices_concat (wanted finding : Finding) (findings : List Finding) :
    wanted.indices (findings ++ [finding]) =
      wanted.indices findings ++ if finding = wanted then [findings.length] else [] := by
  have earlier : (List.range findings.length).filter
      (fun index => (findings ++ [finding])[index]? = some wanted) = wanted.indices findings := by
    refine List.filter_congr fun index among => ?_
    rw [List.getElem?_append_left (List.mem_range.mp among)]
  unfold Finding.indices at earlier ⊢
  rw [List.length_append, List.length_singleton, List.range_succ, List.filter_append, earlier]
  by_cases same : finding = wanted <;> simp [same]

theorem Finding.indices_sorted (wanted : Finding) (findings : List Finding) :
    (wanted.indices findings).Pairwise (· < ·) :=
  List.pairwise_lt_range.filter _

/-- Whether a directory of the list was made at a place. -/
def MadeAt (task : Task) (root : Location) (findings : List Finding) (place : Location) : Prop :=
  ∃ (index : Nat) (entry : ListEntry), findings[index]? = some Finding.made ∧
    task.files[index]? = some entry ∧ entry.path.placeBeneath root = some place

variable {task : Task} {root : Location} {recursive : Bool} {start now : Disk}
  {findings : List Finding} {finding : Finding} {entry : ListEntry} {place : Location}

theorem madeAt_concat (listed : task.files[findings.length]? = some entry) :
    MadeAt task root (findings ++ [finding]) place ↔
      MadeAt task root findings place ∨
        finding = .made ∧ entry.path.placeBeneath root = some place := by
  constructor
  · rintro ⟨index, other, found, listed', placed⟩
    rcases Finding.getElem?_concat.mp found with earlier | ⟨made, rfl⟩
    · exact .inl ⟨index, other, earlier, listed', placed⟩
    · cases listed.symm.trans listed'
      exact .inr ⟨made, placed⟩
  · rintro (⟨index, other, found, listed', placed⟩ | ⟨made, placed⟩)
    · exact ⟨index, other, Finding.getElem?_concat.mpr (.inl found), listed', placed⟩
    · exact ⟨findings.length, entry, Finding.getElem?_concat.mpr (.inr ⟨made, rfl⟩), listed, placed⟩

theorem madeAt_concat_of_ne (other : finding ≠ .made) :
    MadeAt task root (findings ++ [finding]) place ↔ MadeAt task root findings place := by
  simp only [MadeAt, Finding.getElem?_concat, other, false_and, or_false]

/-- What the list made of the tree: the missing directories of the list, and of all the rest
nothing but the times of the directories that they were made in. -/
structure Shape (task : Task) (root : Location) (findings : List Finding) (start now : Disk) :
    Prop where
  made : ∀ place, MadeAt task root findings place → start.tree.get? place = none ∧
    now.tree.HasDirectory place.tail ∧
    ∃ mtime, now.tree.get? place = some (.directory ⟨granted task now place.tail, mtime⟩)
  entered : ∀ place, ¬ MadeAt task root findings place →
    (∃ name, MadeAt task root findings (name :: place)) →
      now.tree.get? place = (start.tree.get? place).map (Node.touch start.clock)
  elsewhere : ∀ place, ¬ MadeAt task root findings place →
    (∀ name, ¬ MadeAt task root findings (name :: place)) →
      now.tree.get? place = start.tree.get? place

theorem get?_perform_madeDirectory {disk : Disk} {parent : Location} {name : Name}
    {permissions : UInt32} (place : Location) :
    (disk.perform (.madeDirectory (name :: parent) permissions)).tree.get? place =
      if place = name :: parent then some (.directory ⟨permissions, disk.clock⟩)
      else if place = parent then (disk.tree.get? place).map (Node.touch disk.clock)
      else disk.tree.get? place := by
  have apart : parent ≠ name :: parent := fun same => by
    have longer := congrArg List.length same
    simp at longer
  unfold Disk.perform Change.apply
  dsimp only [List.tail_cons]
  rw [Tree.get?_touch, Tree.get?_set]
  by_cases here : place = name :: parent
  · have above : place ≠ parent := fun same => apart (same ▸ here)
    simp [here, Ne.symm apart]
  · simp [here]

namespace Shape

theorem begin (start : Disk) : Shape task root [] start start where
  made := by
    rintro place ⟨index, entry, found, -⟩
    cases found
  entered := by
    rintro place - ⟨name, index, entry, found, -⟩
    cases found
  elsewhere _ _ _ := rfl

/-- What was missing at any moment was missing from the start. -/
theorem missing (shape : Shape task root findings start now) (free : now.tree.get? place = none) :
    start.tree.get? place = none := by
  by_cases made : MadeAt task root findings place
  · exact (shape.made place made).1
  · by_cases entered : ∃ name, MadeAt task root findings (name :: place)
    · rw [shape.entered place made entered] at free
      exact Option.map_eq_none_iff.mp free
    · rwa [shape.elsewhere place made fun name there => entered ⟨name, there⟩] at free

theorem keeps (shape : Shape task root findings start now)
    (stands : start.tree.HasDirectory place) : now.tree.HasDirectory place := by
  obtain ⟨attributes, found⟩ := stands
  have notMade : ¬ MadeAt task root findings place := fun made => by
    rw [(shape.made place made).1] at found
    cases found
  by_cases entered : ∃ name, MadeAt task root findings (name :: place)
  · exact ⟨_, by rw [shape.entered place notMade entered, found]; rfl⟩
  · exact ⟨_, (shape.elsewhere place notMade fun name there => entered ⟨name, there⟩).trans found⟩

theorem same (shape : Shape task root findings start now) (other : finding ≠ .made) :
    Shape task root (findings ++ [finding]) start now := by
  constructor
  all_goals simp only [madeAt_concat_of_ne other]
  · exact shape.made
  · exact shape.entered
  · exact shape.elsewhere

theorem makes {parent : Location} {name : Name} (shape : Shape task root findings start now)
    (clock : now.clock = start.clock) (listed : task.files[findings.length]? = some entry)
    (placed : entry.path.placeBeneath root = some (name :: parent))
    (stands : now.tree.HasDirectory parent) (free : now.tree.get? (name :: parent) = none) :
    Shape task root (findings ++ [.made]) start
      (now.perform (.madeDirectory (name :: parent) (granted task now parent))) := by
  have madeAt (place : Location) : MadeAt task root (findings ++ [.made]) place ↔
      MadeAt task root findings place ∨ place = name :: parent := by
    rw [madeAt_concat listed, placed]
    simp [eq_comm]
  have seen (place : Location) (other : place ≠ name :: parent) :
      (now.perform (.madeDirectory (name :: parent) (granted task now parent))).tree.sight place =
        now.tree.sight place :=
    Change.sight_apply_of_not_altered (by simpa [Change.altered] using other)
  -- what stands in a tree is not where the new directory goes
  have apart {place : Location} (there : now.tree.HasDirectory place) : place ≠ name :: parent := by
    rintro rfl
    exact Tree.not_hasDirectory_of_free free there
  have grants {place : Location} (there : now.tree.HasDirectory place) :
      granted task (now.perform (.madeDirectory (name :: parent) (granted task now parent))) place =
        granted task now place := by
    have mark := Disk.inheritedMark_of_sight (seen place (apart there))
    exact congrArg (directoryPermissions &&& ~~~task.umask ||| ·) mark
  constructor
  · intro place made
    rcases (madeAt place).mp made with earlier | rfl
    · obtain ⟨missing, above, there⟩ := shape.made place earlier
      have kept : place ≠ name :: parent := by
        obtain ⟨mtime, found⟩ := there
        exact apart ⟨_, found⟩
      refine ⟨missing, above.of_sight (seen _ (apart above)), ?_⟩
      rw [grants above]
      exact Tree.directory_of_sight (seen place kept) there
    · refine ⟨shape.missing free, stands.of_sight (seen _ (apart stands)), now.clock, ?_⟩
      rw [List.tail_cons, grants stands, get?_perform_madeDirectory, if_pos rfl]
  · intro place notMade entered
    rw [madeAt, not_or] at notMade
    rw [get?_perform_madeDirectory, if_neg notMade.2, clock]
    by_cases earlier : ∃ name, MadeAt task root findings (name :: place)
    · rw [shape.entered place notMade.1 earlier]
      split
      · rw [Option.map_map, Node.touch_comp_touch]
      · rfl
    · rw [shape.elsewhere place notMade.1 fun name there => earlier ⟨name, there⟩]
      obtain ⟨other, made⟩ := entered
      rcases (madeAt _).mp made with before | here
      · exact absurd ⟨other, before⟩ earlier
      · rw [if_pos (List.cons.inj here).2]
  · intro place notMade notEntered
    rw [madeAt, not_or] at notMade
    have notAbove : place ≠ parent := by
      rintro rfl
      exact notEntered name ((madeAt _).mpr (.inr rfl))
    rw [get?_perform_madeDirectory, if_neg notMade.2, if_neg notAbove]
    exact shape.elsewhere place notMade.1 fun name there =>
      notEntered name ((madeAt _).mpr (.inl there))

end Shape

namespace Survey

theorem settings (survey : Survey task root recursive start findings now) :
    now.umask = start.umask ∧ now.clock = start.clock := by
  induction survey with
  | start => exact ⟨rfl, rfl⟩
  | next earlier listed finds ih => cases finds <;> exact ih

theorem shape (survey : Survey task root recursive start findings now) :
    Shape task root findings start now := by
  induction survey with
  | start => exact .begin start
  | next earlier listed finds ih =>
      cases finds with
      | passed | current | asked => exact ih.same nofun
      | made wanted missing placed stands free =>
          exact ih.makes earlier.settings.2 listed placed stands free

/-- Each regular file that was passed was found current or asked for. -/
theorem counts (survey : Survey task root recursive start findings now) :
    (Finding.asked.indices findings).length + (Finding.current.indices findings).length =
      (task.files.take findings.length).countP ListEntry.isRegular := by
  induction survey with
  | start => rfl
  | @next findings finding entry middle after earlier listed finds ih =>
      have step : finding = .asked ∨ finding = .current ↔ entry.isRegular = true := by
        cases finds with
        | passed irregular => simp [irregular]
        | current regular | asked regular => simp [regular]
        | made wanted =>
            have directory := wanted.1
            simp only [ListEntry.isDirectory, decide_eq_true_eq] at directory
            simp [ListEntry.isRegular, directory, Mode.directory, Mode.regular]
      rw [List.length_append, List.length_singleton, List.take_add_one, listed,
        List.countP_append, ← ih, Finding.indices_concat, Finding.indices_concat]
      cases finding <;> simp_all <;> omega

end Survey

variable {κ : Type}

/-- So many steps of the uploader. -/
def walk [ByteSink κ] (task : Task) : Nat → EStateM Fault (Uploading FileRequester κ) Unit
  | 0 => pure ()
  | steps + 1 => do
      walk task steps
      advance task

/-- The uploader before its first step. -/
def setOut (options : Options) (task : Task) (secondary : Secondary) (connection : κ)
    (host : Host) : Uploading FileRequester κ where
  uploader := .ofOptions options
  cursor := .start task.files.length
  secondary
  newDirectories := .none task.files.length
  connection
  host

/-- What the uploader knows and has said once it found so much, and then said `marks`. -/
structure Reports (sent : κ → Bytes → Prop) (options : Options) (task : Task)
    (root : Location) (start : Disk) (said : Bytes) (findings : List Finding) (marks : List Int32)
    (now : Uploading FileRequester κ) : Prop where
  survey : Survey task root options.recursive start findings now.host.disk
  dryRun : now.uploader.dryRun = options.dryRun
  recursive : now.uploader.recursive = options.recursive
  requested : now.uploader.requested = Finding.asked.indices findings
  upToDate : now.uploader.upToDate = Finding.current.indices findings
  flags : now.newDirectories.flags.length = task.files.length
  isNew : ∀ index, now.newDirectories.isNew index = decide (findings[index]? = some .made)
  sent : sent now.connection
    (said ++ Speech.bytes ((Finding.asked.indices findings).flatMap (Speech.ask task.checksum) ++ marks))

namespace Reports

variable {sent : κ → Bytes → Prop} {options : Options} {start : Disk} {said : Bytes}
  {marks : List Int32} {before after : Uploading FileRequester κ}

theorem moved (reports : Reports sent options task root start said findings marks before)
    (unmoved : Unmoved before after) :
    Reports sent options task root start said findings marks after where
  survey := by
    rw [unmoved.disk]
    exact reports.survey
  dryRun := by rw [unmoved.uploader, reports.dryRun]
  recursive := by rw [unmoved.uploader, reports.recursive]
  requested := by rw [unmoved.uploader, reports.requested]
  upToDate := by rw [unmoved.uploader, reports.upToDate]
  flags := by rw [unmoved.newDirectories, reports.flags]
  isNew index := by rw [unmoved.newDirectories, reports.isNew]
  sent := by
    rw [unmoved.connection]
    exact reports.sent

/-- An entry is added to what was found, and the cursor may go on. -/
theorem handles (reports : Reports sent options task root start said findings [] before)
    (inside : task.files[findings.length]? = some entry)
    (handles : Handles sent task root findings.length entry
      (said ++ Speech.bytes ((Finding.asked.indices findings).flatMap (Speech.ask task.checksum) ++ []))
      finding before after) (cursor : Cursor) :
    Reports sent options task root start said (findings ++ [finding]) [] { after with cursor } where
  survey := by
    have finds := handles.finds
    rw [reports.recursive] at finds
    exact .next reports.survey inside finds
  dryRun := by
    rw [← reports.dryRun]
    change after.uploader.dryRun = _
    rw [handles.uploader]
    cases finding <;> rfl
  recursive := by
    rw [← reports.recursive]
    change after.uploader.recursive = _
    rw [handles.uploader]
    cases finding <;> rfl
  requested := by
    change after.uploader.requested = _
    rw [handles.uploader, Finding.indices_concat, ← reports.requested]
    cases finding <;> simp [Finding.note]
  upToDate := by
    change after.uploader.upToDate = _
    rw [handles.uploader, Finding.indices_concat, ← reports.upToDate]
    cases finding <;> simp [Finding.note]
  flags := by
    change after.newDirectories.flags.length = _
    rw [handles.newDirectories, ← reports.flags]
    cases finding <;> simp [Finding.mark]
  isNew index := by
    have within := (List.getElem?_eq_some_iff.mp inside).1
    change after.newDirectories.isNew index = _
    rw [handles.newDirectories]
    by_cases made : finding = .made
    · rw [Finding.mark, if_pos made, NewDirectories.isNew_mark, reports.isNew, reports.flags]
      by_cases here : index = findings.length
      · simp [made, here, within]
      · simp [Finding.getElem?_concat, here]
    · rw [Finding.mark, if_neg made, reports.isNew]
      simp [Finding.getElem?_concat, made]
  sent := by
    have told := handles.sent
    change sent after.connection _
    rw [Finding.indices_concat]
    simp only [List.append_nil, List.append_assoc, ← Speech.bytes_append] at told ⊢
    rw [List.flatMap_append]
    cases finding <;> simpa [Finding.words] using told

end Reports

section

variable [ByteSink κ] {sent : κ → Bytes → Prop} {options : Options} {start : Disk} {said : Bytes}
  {now : Uploading FileRequester κ}

/-- One more entry is found to be something, or an obstacle is met and nothing has changed. -/
theorem advance_surveys (accepts : ByteSink.Accepts sent) (opened : task.root = some root)
    (acts : options.dryRun = false) (cleared : start.umask = 0)
    (stands : start.tree.HasDirectory root)
    (reports : Reports sent options task root start said findings [] now)
    (position : now.cursor.position? = some (.entry findings.length))
    (listed : task.files[findings.length]? = some entry) :
    Meets (advance task) now
      (fun _ after => after.cursor = now.cursor.advance ∧
        ∃ finding, Reports sent options task root start said (findings ++ [finding]) [] after)
      (fun fault after => after.cursor = now.cursor ∧
        Reports sent options task root start said findings [] after ∧
        Obstacle root options.recursive findings.length entry after.host.disk fault) := by
  let lent : Uploading FileRequester κ := { now with secondary := none }
  have reports' : Reports sent options task root start said findings [] lent := { reports with }
  have stands' : now.host.disk.tree.HasDirectory root := reports.survey.shape.keeps stands
  have cleared' : now.host.disk.umask = 0 := reports.survey.settings.1.trans cleared
  refine Meets.changeThen (Meets.get ?_)
  dsimp only
  rw [position]
  dsimp only
  rw [listed]
  dsimp only
  have acts' : lent.uploader.dryRun = false := reports.dryRun.trans acts
  refine (examine_surveys accepts opened acts' cleared' stands' reports.sent).followedBy ?_ ?_
  · rintro fault after ⟨obstacle, unmoved⟩
    refine ⟨unmoved.cursor, reports'.moved unmoved, ?_⟩
    rw [unmoved.disk, ← reports'.recursive]
    exact obstacle
  · rintro _ after ⟨finding, handles⟩
    refine Meets.change ⟨congrArg Cursor.advance handles.cursor, finding, ?_⟩
    exact reports'.handles listed handles _

/-- Once every entry was found to be something, the end is announced. -/
theorem advance_closes (accepts : ByteSink.Accepts sent)
    (reports : Reports sent options task root start said findings [] now)
    (position : now.cursor.position? = some .endOfList) :
    Meets (advance task) now
      (fun _ after => after.cursor = now.cursor.advance ∧ after.secondary = none ∧
        Reports sent options task root start said findings [Wire.doneIndex] after)
      (fun _ _ => False) := by
  let lent : Uploading FileRequester κ := { now with secondary := none }
  refine Meets.changeThen (Meets.get ?_)
  dsimp only
  rw [position]
  change Meets announceEnd lent _ _
  have whole : (Wire.writeInt Wire.doneIndex).refusal = none := rfl
  have told : sent lent.connection _ := reports.sent
  refine (send_meets accepts whole told).bind ?_
  rintro _ _ ⟨connection, told, rfl⟩
  refine Meets.changeThen (Meets.get ⟨rfl, rfl, { reports with sent := ?_ }⟩)
  rw [Speech.bytes_append, ← List.append_assoc]
  simpa [Speech.bytes, Wire.writeInt, Emission.write, Emission.bytes] using told

theorem advance_exhausted (ended : now.cursor.exhausted = true)
    (unarmed : now.secondary = none) : advance task now = .ok () now := by
  have position := Cursor.position?_eq_none.mpr ended
  have lent : { now with secondary := none } = now := by rw [← unarmed]
  have changed : (modify fun uploading => { uploading with secondary := none } :
      EStateM Fault (Uploading FileRequester κ) Unit) now = .ok () now := by
    exact congrArg _ lent
  have got : (get : EStateM Fault (Uploading FileRequester κ) _) now = .ok now now := rfl
  unfold advance
  rw [bind_ok changed, bind_ok got, position]
  rfl

/-- Nothing is said or done any more after the end. -/
theorem walk_exhausted (ended : now.cursor.exhausted = true) (unarmed : now.secondary = none)
    (steps : Nat) : walk task steps now = .ok () now := by
  induction steps with
  | zero => rfl
  | succ steps ih => exact (bind_ok ih).trans (advance_exhausted ended unarmed)

/-- After as many steps the first so many entries were found to be something, unless there was
an obstacle before. -/
theorem walk_surveys (accepts : ByteSink.Accepts sent) (opened : task.root = some root)
    (acts : options.dryRun = false) (cleared : start.umask = 0)
    (stands : start.tree.HasDirectory root)
    (reports : Reports sent options task root start said [] [] now)
    (cursor : now.cursor = .start task.files.length) (steps : Nat)
    (inside : steps ≤ task.files.length) :
    Meets (walk task steps) now
      (fun _ after => ∃ findings : List Finding, findings.length = steps ∧
        Reports sent options task root start said findings [] after ∧
        after.cursor.next = steps ∧ after.cursor.total = task.files.length)
      (fun fault after => ∃ (findings : List Finding) (entry : ListEntry),
        Reports sent options task root start said findings [] after ∧
        after.cursor.next = findings.length ∧ task.files[findings.length]? = some entry ∧
        Obstacle root options.recursive findings.length entry after.host.disk fault) := by
  induction steps with
  | zero => exact Meets.pure ⟨[], rfl, reports, by rw [cursor]; rfl, by rw [cursor]; rfl⟩
  | succ steps ih =>
      refine (ih (by omega)).bind ?_
      rintro _ middle ⟨findings, length, reports, next, total⟩
      have position : middle.cursor.position? = some (.entry findings.length) := by
        rw [Cursor.position?, if_pos (by omega), next, length]
      have listed : task.files[findings.length]? = some task.files[findings.length] :=
        List.getElem?_eq_getElem (by omega)
      refine (advance_surveys accepts opened acts cleared stands reports position listed).mono ?_ ?_
      · rintro _ after ⟨moved, finding, reports⟩
        refine ⟨findings ++ [finding], by simp [length], reports, ?_, ?_⟩
        · rw [moved, Cursor.next_advance (Cursor.not_exhausted position), next]
        · rw [moved, Cursor.total_advance, total]
      · rintro fault after ⟨stays, reports, obstacle⟩
        exact ⟨findings, _, reports, by rw [stays, next, length], listed, obstacle⟩

end

/-- A list of a directory, a file in it, a file that is there already and the
directory again. -/
def mixedTask : Task where
  root := some [[100]]
  files := [.directory ⟨[115]⟩ 0o755 0, .file ⟨[115, slash, 97]⟩ 0o644 0 1,
    .file ⟨[98]⟩ 0o644 5 1, .directory ⟨[115]⟩ 0o755 0]
  umask := 0o022

/-- A destination that holds one file and hands its group on. -/
def markedHost : Host where
  disk :=
    { tree := ((Tree.empty.set [] (.directory ⟨0o755, 0⟩)).set [[100]]
        (.directory ⟨0o2755, 3⟩)).set [[98], [100]] (.file ⟨0o644, 5⟩ [120])
      clock := 7 }

def mixedStart : Uploading FileRequester BoundedSink :=
  setOut { recursive := true } mixedTask none {} markedHost

end FileRequester

end TreeSync

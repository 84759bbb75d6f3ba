import TreeSync.Proofs.Disk.Showing
import TreeSync.Proofs.Transfer.Asking

namespace TreeSync

/-! What the uploader has found out about the entries it passed.

A regular file is passed because it was asked for, or because the size and time of what its
path shows are those of the entry. The notes of the uploader tell which.
-/

open TreeSync.Action

/-- Whether the path of an entry shows a file of its size and time. -/
def ListEntry.InPlace (entry : ListEntry) (root : Location) (tree : Tree) : Prop :=
  ∃ attributes content, tree.Shows root entry.path (.file attributes content) ∧
    content.length = entry.size.toNat ∧ attributes.mtime = entry.mtime

/-- Whether a file with the size and time of the entry is shown where the entry is to go. -/
def FileRequester.Current (task : Task) (entry : ListEntry) (tree : Tree) : Prop :=
  ∃ root, task.root = some root ∧ entry.InPlace root tree

/-- Whether that is so for the file that the list has at an index. -/
def Task.HasCurrent (task : Task) (tree : Tree) (index : Nat) : Prop :=
  ∃ entry, task.files[index]? = some entry ∧ entry.isRegular = true ∧
    FileRequester.Current task entry tree

namespace FileRequester

variable {κ : Type} {task : Task} {index : Nat} {entry : ListEntry}
  {before after : Uploading FileRequester κ}

theorem inPlace_of_upToDate {root : Location} {tree : Tree} {node : Node}
    (shows : tree.Shows root entry.path node)
    (fits : (Standing.ofNode node).upToDate entry = true) : entry.InPlace root tree := by
  unfold Standing.upToDate at fits
  cases node with
  | file attributes content =>
      obtain ⟨size, time⟩ := Standing.regular.inj (of_decide_eq_true fits)
      exact ⟨attributes, content, shows, size, time⟩
  | directory | link | fifo => cases of_decide_eq_true fits

/-- What a step leaves alone that notes nothing. -/
structure Stays (before after : Uploading FileRequester κ) : Prop where
  uploader : after.uploader = before.uploader
  cursor : after.cursor = before.cursor

theorem Stays.accumulates : Accumulates (Stays (κ := κ)) where
  refl _ := ⟨rfl, rfl⟩
  trans earlier later :=
    ⟨later.uploader.trans earlier.uploader, later.cursor.trans earlier.cursor⟩

theorem onHost_stays {ε α : Type} (step : EStateM ε Host α) :
    Keeps Stays (Uploading.onHost step : EStateM ε (Uploading FileRequester κ) α) :=
  .aside fun _ _ => ⟨rfl, rfl⟩

theorem examineDirectory_stays (index : Nat) (entry : ListEntry) (task : Task) :
    Keeps Stays (examineDirectory (κ := κ) index entry task) := by
  have trans := Stays.accumulates (κ := κ)
  refine .get fun _ => .cond (onHost_stays _) (.cond (.pure trans trivial) ?_)
  refine .bind trans (.ofExcept trans fun _ _ => trivial) fun root _ => ?_
  refine .bind trans (onHost_stays _) fun standing _ => ?_
  split
  · exact .pure trans trivial
  · refine .bind trans (onHost_stays _) fun _ _ => ?_
    exact .bind trans (.change fun _ => ⟨rfl, rfl⟩) fun _ _ => onHost_stays _
  · exact .throw trans
  · exact .throw trans

/-- What the uploader notes about the entry at an index when it passes it. -/
inductive Notes (task : Task) (index : Nat) (entry : ListEntry) (tree : Tree)
    (before after : FileRequester) : Prop
  | nothing (passes : entry.isRegular = true → before.dryRun = true) (same : after = before)
  | asked (noted : after = { before with requested := before.requested ++ [index] })
  | found (regular : entry.isRegular = true) (current : Current task entry tree)
      (noted : after = { before with upToDate := before.upToDate ++ [index] })

variable [ByteSink κ]

theorem send_stays (emission : Emission) :
    Keeps Stays (Uploading.send emission : EStateM Fault (Uploading FileRequester κ) Unit) :=
  .aside fun _ _ => ⟨rfl, rfl⟩

theorem requestFile_notes :
    Meets (requestFile index entry task) before
      (fun _ after => after.cursor = before.cursor ∧ after.uploader =
        { before.uploader with requested := before.uploader.requested ++ [index] })
      (fun _ after => Stays before after) := by
  have trans := Stays.accumulates (κ := κ)
  refine Meets.cond (fun _ => Meets.throw (trans.refl before)) fun _ => ?_
  refine ((send_stays _).meets before).followedBy (fun _ _ => id) fun _ sent earlier => ?_
  refine ((onHost_stays _).onward trans earlier).followedBy (fun _ _ => id) fun _ told stays => ?_
  exact Meets.change ⟨stays.cursor, by rw [stays.uploader]⟩

theorem examineFile_notes (regular : entry.isRegular = true) :
    Meets (examineFile index entry task) before
      (fun _ after => after.cursor = before.cursor ∧
        Notes task index entry before.host.disk.tree before.uploader after.uploader)
      (fun _ after => Stays before after) := by
  have trans := Stays.accumulates (κ := κ)
  refine Meets.get (Meets.cond (fun dry => ?_) fun _ => ?_)
  · refine ((onHost_stays _).meets before).mono (fun _ after stays => ?_) fun _ _ => id
    exact ⟨stays.cursor, .nothing (fun _ => dry) stays.uploader⟩
  refine task.destination_meets.followedBy (fun _ _ same => same ▸ trans.refl before) ?_
  intro root _ met
  obtain ⟨rfl, opened⟩ := met
  have finds : Meets (Uploading.onHost (Host.onDisk (Standing.find root entry.path))) before
      (fun standing after => before = after ∧ (standing = .missing ∨
        ∃ node, standing = .ofNode node ∧ before.host.disk.tree.Shows root entry.path node))
      (fun _ after => Stays before after) := by
    refine Meets.within (Meets.within (Standing.find_shows.mono ?_ fun _ _ _ => ⟨rfl, rfl⟩))
    rintro standing _ ⟨rfl, found⟩
    exact ⟨rfl, found⟩
  refine finds.followedBy (fun _ _ => id) fun standing _ met => ?_
  obtain ⟨rfl, shown⟩ := met
  refine Meets.cond (fun fits => ?_) fun _ => Meets.cond (fun _ => Meets.throw (trans.refl _)) fun _ => ?_
  · refine ((onHost_stays _).meets before).followedBy (fun _ _ => id) fun _ told stays => ?_
    have current : Current task entry before.host.disk.tree := by
      rcases shown with rfl | ⟨node, rfl, shows⟩
      · cases of_decide_eq_true fits
      · exact ⟨root, opened, inPlace_of_upToDate shows fits⟩
    exact Meets.change ⟨stays.cursor, .found regular current (by rw [stays.uploader])⟩
  · exact requestFile_notes.mono (fun _ _ met => ⟨met.1, .asked met.2⟩) fun _ _ => id

theorem examine_notes :
    Meets (examine index entry task) before
      (fun _ after => after.cursor = before.cursor ∧
        Notes task index entry before.host.disk.tree before.uploader after.uploader)
      (fun _ after => Stays before after) := by
  have stays {step : EStateM Fault (Uploading FileRequester κ) Unit} (keeps : Keeps Stays step)
      (irregular : entry.isRegular ≠ true) :
      Meets step before (fun _ after => after.cursor = before.cursor ∧
        Notes task index entry before.host.disk.tree before.uploader after.uploader)
        (fun _ after => Stays before after) := by
    refine (keeps.meets before).mono (fun _ after stays => ⟨stays.cursor, ?_⟩) fun _ _ => id
    exact .nothing (fun regular => absurd regular irregular) stays.uploader
  refine Meets.cond (fun directory => ?_) fun _ => Meets.cond examineFile_notes fun other => ?_
  · refine stays (examineDirectory_stays index entry task) fun regular => ?_
    simp only [ListEntry.isDirectory, ListEntry.isRegular, decide_eq_true_eq] at directory regular
    rw [directory] at regular
    cases regular
  · exact stays (onHost_stays _) other

/-- What one step of the uploader notes: something about the entry at the cursor, or nothing
where there is none. -/
inductive Minds (task : Task) (before after : Uploading FileRequester κ) : Prop
  | entry {entry : ListEntry} (inside : before.cursor.next < before.cursor.total)
      (listed : task.files[before.cursor.next]? = some entry)
      (notes : Notes task before.cursor.next entry before.host.disk.tree before.uploader
        after.uploader)
  | nothing (missing : before.cursor.next < before.cursor.total →
      task.files[before.cursor.next]? = none) (same : after.uploader = before.uploader)

theorem advance_minds (task : Task) (before : Uploading FileRequester κ) :
    Meets (advance task) before
      (fun _ after => after.cursor = before.cursor.advance ∧ Minds task before after)
      (fun _ after => Stays before after) := by
  have trans := Stays.accumulates (κ := κ)
  have unarmed : Stays before { before with secondary := none } := ⟨rfl, rfl⟩
  refine Meets.changeThen (Meets.get ?_)
  split
  · next index position =>
    have position : before.cursor.position? = some (.entry index) := position
    obtain ⟨rfl, inside⟩ := Cursor.next_entry position
    split
    · next entry listed =>
      refine examine_notes.followedBy (fun _ _ => trans.trans unarmed) fun _ passed met => ?_
      exact Meets.change ⟨congrArg Cursor.advance met.1, .entry inside listed met.2⟩
    · next missing => exact Meets.change ⟨rfl, .nothing (fun _ => missing) rfl⟩
  · next position =>
    have position : before.cursor.position? = some .endOfList := position
    have missing (inside : before.cursor.next < before.cursor.total) :
        task.files[before.cursor.next]? = none := by
      simp [Cursor.position?, inside] at position
    refine ((send_stays _).onward trans unarmed).followedBy (fun _ _ => id) fun _ sent stays => ?_
    refine Meets.changeThen (Meets.get ?_)
    exact ⟨congrArg Cursor.advance stays.cursor, .nothing missing stays.uploader⟩
  · next position =>
    have position : before.cursor.position? = none := position
    have missing (inside : before.cursor.next < before.cursor.total) :
        task.files[before.cursor.next]? = none := by
      simp [Cursor.position?, inside] at position
    have ended := Cursor.advance_exhausted (Cursor.position?_eq_none.mp position)
    exact Meets.pure ⟨ended.symm, .nothing missing rfl⟩

/-- What one step of the uploader has found out. -/
structure Checks (task : Task) (before after : Uploading FileRequester κ) : Prop where
  requested : before.uploader.requested ⊆ after.uploader.requested
  dryRun : after.uploader.dryRun = before.uploader.dryRun
  cursor : after.cursor = before.cursor.advance
  entry : ∀ entry, before.cursor.next < before.cursor.total →
    task.files[before.cursor.next]? = some entry → entry.isRegular = true →
      before.cursor.next ∈ after.uploader.requested ∨ Current task entry before.host.disk.tree

theorem advance_checks (task : Task) (acts : before.uploader.dryRun = false) :
    Meets (advance task) before (fun _ after => Checks task before after) (fun _ _ => True) := by
  refine (advance_minds task before).mono (fun _ after met => ?_) fun _ _ _ => trivial
  obtain ⟨cursor, minds⟩ := met
  cases minds with
  | nothing missing same =>
      refine ⟨by rw [same]; exact List.Subset.refl _, by rw [same], cursor, ?_⟩
      intro entry inside listed
      cases (missing inside).symm.trans listed
  | @entry entry _ listed notes =>
      cases notes with
      | nothing passes same =>
          refine ⟨by rw [same]; exact List.Subset.refl _, by rw [same], cursor, ?_⟩
          intro other _ again regular
          cases listed.symm.trans again
          cases acts.symm.trans (passes regular)
      | asked noted =>
          refine ⟨by rw [noted]; exact List.subset_append_left _ _, by rw [noted], cursor, ?_⟩
          intro _ _ _ _
          rw [noted]
          exact .inl (List.mem_append_right _ (List.mem_singleton_self _))
      | found _ current noted =>
          refine ⟨by rw [noted]; exact List.Subset.refl _, by rw [noted], cursor, ?_⟩
          intro other _ again _
          cases listed.symm.trans again
          exact .inr current

/-- Whether every entry is noted once at most, and none ahead of the cursor. -/
structure Sorted (uploader : FileRequester) (cursor : Cursor) : Prop where
  once : (uploader.requested ++ uploader.upToDate).Nodup
  passed : ∀ index ∈ uploader.requested ++ uploader.upToDate, index < cursor.next

omit [ByteSink κ] in
theorem Minds.sorted (minds : Minds task before after)
    (cursor : after.cursor = before.cursor.advance)
    (sorted : before.uploader.Sorted before.cursor) : after.uploader.Sorted after.cursor := by
  have same (uploader : after.uploader = before.uploader) : after.uploader.Sorted after.cursor := by
    rw [uploader, cursor]
    refine ⟨sorted.once, fun index among => ?_⟩
    exact Nat.lt_of_lt_of_le (sorted.passed index among) before.cursor.next_le_advance
  cases minds with
  | nothing _ uploader => exact same uploader
  | @entry entry inside _ notes =>
      have next : after.cursor.next = before.cursor.next + 1 := by
        rw [cursor, Cursor.advance, dif_pos (Nat.le_of_lt inside)]
      -- what is noted is the entry at the cursor, which was not yet
      have noted (adds : (after.uploader.requested ++ after.uploader.upToDate).Perm
          (before.cursor.next :: (before.uploader.requested ++ before.uploader.upToDate))) :
          after.uploader.Sorted after.cursor := by
        refine ⟨adds.nodup_iff.mpr (List.nodup_cons.mpr ⟨fun among => ?_, sorted.once⟩), ?_⟩
        · exact Nat.lt_irrefl _ (sorted.passed _ among)
        · intro index among
          rw [next]
          rcases List.mem_cons.mp (adds.mem_iff.mp among) with rfl | earlier
          · exact Nat.lt_succ_self _
          · exact Nat.lt_succ_of_lt (sorted.passed index earlier)
      cases notes with
      | nothing _ uploader => exact same uploader
      | asked uploader =>
          refine noted ?_
          rw [uploader, List.append_assoc]
          exact List.perm_middle
      | found _ _ uploader =>
          refine noted ?_
          rw [uploader, ← List.append_assoc]
          exact List.perm_append_singleton _ _

omit [ByteSink κ] in
/-- What is noted as up to date was in place when it was looked at. -/
theorem Minds.current (minds : Minds task before after) (among : index ∈ after.uploader.upToDate) :
    index ∈ before.uploader.upToDate ∨ task.HasCurrent before.host.disk.tree index := by
  cases minds with
  | nothing _ same => exact .inl (same ▸ among)
  | @entry entry _ listed notes =>
      cases notes with
      | nothing _ same => exact .inl (same ▸ among)
      | asked noted =>
          rw [noted] at among
          exact .inl among
      | found regular current noted =>
          rw [noted] at among
          rcases List.mem_append.mp among with earlier | last
          · exact .inl earlier
          · rw [List.mem_singleton.mp last]
            exact .inr ⟨entry, listed, regular, current⟩

end FileRequester

end TreeSync

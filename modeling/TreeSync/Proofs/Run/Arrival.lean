import TreeSync.Proofs.Run.Determinacy
import TreeSync.Proofs.Transfer.Checking
import TreeSync.Proofs.Transfer.Passing

namespace TreeSync

/-! What an exchange leaves where the files of the list are to go.

Every entry was passed by the time an exchange ends well. A file that was not asked for was
found in place, and nothing but its own content can have replaced it since. So if all that
was asked for arrived, each file of the list is in place with the size and time it should have.
-/

open TreeSync.Action FileCollector

namespace Exchange

variable {κ : Type} [Connection κ] {task : Task} {first before now after last : WholeFiles κ}
  {entry : ListEntry} {place : Location} {index : Nat}

/-- No step of an exchange removes a directory. -/
theorem Moves.directories (sound : Sound task before) (moves : Moves task before after)
    (stands : before.disk.tree.HasDirectory place) : after.disk.tree.HasDirectory place := by
  have works {arriving : ArrivingFile} {changes : List Change}
      (held : before.pending = some arriving)
      (works : ∀ change ∈ changes, change.WorksOn arriving.temporary.file) :
      (before.disk.performAll changes).tree.HasDirectory place ∧
        (before.disk.performAll changes).tree.HasFile arriving.temporary.file := by
    obtain ⟨root, entry, belongs⟩ := sound arriving held
    exact ⟨(Disk.performAll_confined works belongs.stands.file belongs.holds).2 place stands,
      Disk.performAll_hasFile works belongs.stands.file⟩
  cases moves with
  | prepared _ _ prepares =>
      generalize after.disk = disk at prepares ⊢
      cases prepares with
      | nothing => exact stands
      | directory _ _ _ _ _ _ free =>
          refine Change.keepsDirectories (fun altered listed => ?_) stands
          rw [List.mem_singleton.mp listed]
          exact Tree.not_hasDirectory_of_free free
  | collected collects =>
      cases collects with
      | ended _ _ _ disk _ =>
          have disk : after.disk = before.disk := disk
          exact disk ▸ stands
      | began _ _ _ _ _ _ _ fresh _ disk _ _ =>
          rw [show after.disk = _ from disk]
          exact fresh.keepsDirectories stands
      | @grew arriving content held _ _ disk _ _ _ =>
          rw [show after.disk = _ from disk]
          exact (works held (List.forall_mem_singleton.mpr (.wrote content))).1
      | committed held _ _ _ _ _ free disk _ =>
          rw [show after.disk = _ from disk]
          obtain ⟨stays, file⟩ := works held (finishing_works _ _ _ _)
          refine Change.keepsDirectories (fun altered listed => ?_) stays
          simp only [Change.altered, List.mem_cons, List.not_mem_nil, or_false] at listed
          rcases listed with rfl | rfl
          · exact file.not_hasDirectory
          · exact free.elim (fun same => same ▸ file.not_hasDirectory) id
  | lost loses =>
      cases loses with
      | idle _ _ _ _ disk =>
          rw [show after.disk = _ from disk]
          exact stands
      | stranded _ _ _ strands =>
          obtain ⟨-, -, -, -, stranded⟩ := strands
          rw [show after.disk = _ from stranded.made]
          exact stranded.fresh.keepsDirectories stands
      | gaveUp held _ _ changed disk =>
          rw [show after.disk = _ from disk]
          obtain ⟨stays, file⟩ := works held changed
          refine Change.keepsDirectories (fun altered listed => ?_) stays
          rw [List.mem_singleton.mp listed]
          exact file.not_hasDirectory

/-- Whether a file that fits the entry stood in its place from the start, by way of
directories that stand now. -/
structure StoodBy (task : Task) (entry : ListEntry) (first now : Tree) : Prop where
  passable : entry.path.Passable
  stood : ∃ root place attributes content, task.root = some root ∧
    (∃ parent name, now.Seats root entry.path parent name) ∧
    entry.path.placeBeneath root = some place ∧
    first.get? place = some (.file attributes content) ∧
    content.length = entry.size.toNat ∧ attributes.mtime = entry.mtime

theorem StoodBy.mono {first before after : Tree} (stood : StoodBy task entry first before)
    (kept : ∀ place, before.HasDirectory place → after.HasDirectory place) :
    StoodBy task entry first after := by
  obtain ⟨passable, root, place, attributes, content, opened, ⟨parent, name, seats⟩, rest⟩ := stood
  exact ⟨passable, root, place, attributes, content, opened, ⟨parent, name, seats.mono kept⟩, rest⟩

/-- What an exchange knows of the entries it passed and the files it received. -/
structure Knows (task : Task) (first now : WholeFiles κ) : Prop where
  acts : now.uploader.dryRun = false
  total : now.cursor.total = task.files.length
  passes : Passes task now.pending now.downloader
  seated : ∀ index ∈ now.downloader.received, ∃ root entry, task.root = some root ∧
    task.files[index]? = some entry ∧
    ∃ parent name, now.disk.tree.Seats root entry.path parent name
  passed : ∀ index entry, index < now.cursor.next → task.files[index]? = some entry →
    entry.isRegular = true →
      index ∈ now.uploader.requested ∨ index ∈ now.downloader.received ∨
        StoodBy task entry first.disk.tree now.disk.tree

omit [Connection κ] in
theorem Knows.start (acts : first.uploader.dryRun = false)
    (fresh : first.downloader.received = []) (idle : first.pending = none)
    (cursor : first.cursor = .start task.files.length) : Knows task first first where
  acts := acts
  total := by rw [cursor]; rfl
  passes := idle ▸ Passes.start fresh
  seated index listed := by
    rw [fresh] at listed
    cases listed
  passed index entry early := by
    rw [cursor] at early
    exact absurd early (Nat.not_lt_zero index)

omit [Connection κ] in
/-- Steps that neither pass an entry nor receive a file add nothing. -/
theorem Knows.onward (knows : Knows task first before)
    (uploader : after.uploader = before.uploader) (cursor : after.cursor = before.cursor)
    (downloader : after.downloader.received = before.downloader.received)
    (passes : Passes task after.pending after.downloader)
    (kept : ∀ place, before.disk.tree.HasDirectory place → after.disk.tree.HasDirectory place) :
    Knows task first after where
  acts := uploader ▸ knows.acts
  total := cursor ▸ knows.total
  passes := passes
  seated index listed := by
    rw [downloader] at listed
    obtain ⟨root, entry, opened, found, parent, name, seats⟩ := knows.seated index listed
    exact ⟨root, entry, opened, found, parent, name, seats.mono kept⟩
  passed index entry early found kind := by
    rw [uploader, downloader]
    rw [cursor] at early
    exact (knows.passed index entry early found kind).imp_right (Or.imp_right (·.mono kept))

/-- A file that was found in place stood there from the start, or has come in full. -/
theorem StoodBy.of_current {replies : List Reply} {draft : Option Reply}
    (distinct : (task.files.map (·.path.normalized)).Nodup) (spares : first.disk.Spares task.files)
    (fresh : first.downloader.received = []) (sound : Sound task now)
    (ledger : Ledger task first now replies draft) (listed : task.files[index]? = some entry)
    (current : FileRequester.Current task entry now.disk.tree) :
    index ∈ now.downloader.received ∨ StoodBy task entry first.disk.tree now.disk.tree := by
  obtain ⟨root, opened, attributes, content, shows, size, time⟩ := current
  obtain ⟨place, placed, found⟩ := shows.found
  have places : task.Places index place := ⟨root, entry, opened, listed, placed⟩
  cases ledger.books.holding place with
  | kept same =>
      rw [← Tree.sight_eq_file, same, Tree.sight_eq_file] at found
      exact .inr ⟨shows.passable, root, place, attributes, content, opened, shows.seats, placed,
        found, size, time⟩
  | delivered complete =>
      obtain ⟨reply, among, node, becomes, -⟩ := complete
      obtain rfl := places.index_unique distinct becomes.places
      rw [ledger.received, fresh, List.nil_append]
      exact .inl (List.mem_map_of_mem among)
  | prepared _ _ _ _ _ stands =>
      exact absurd stands (Tree.HasFile.not_hasDirectory ⟨_, _, found⟩)
  | arriving here =>
      obtain ⟨arriving, held, rfl⟩ := Option.map_eq_some_iff.mp here
      obtain ⟨root', other, belongs⟩ := sound arriving held
      have drafts := ledger.books.drafts
      rw [held] at drafts
      cases drafts with
      | begun _ _ _ _ early _ named =>
          cases opened.symm.trans belongs.opened
          exact absurd (named ▸ placed) (spares early (List.mem_of_getElem? belongs.listed)
            belongs.kind belongs.seats.seatBeneath entry (List.mem_of_getElem? listed))

section Steps

variable (distinct : (task.files.map (·.path.normalized)).Nodup)
  (spares : first.disk.Spares task.files) (fresh : first.downloader.received = [])
  (idle : first.pending = none)

include distinct spares fresh idle

theorem Knows.uploaded (advanced : Advances task first before) (knows : Knows task first before)
    (done : advanceUploader task before = .ok () after) : Knows task first after := by
  obtain ⟨_, sound⟩ := advanced.visits.evolves idle
  obtain ⟨replies, draft, ledger⟩ := advanced.ledger idle
  have moves : Moves task before after := Attends.moves (.uploaded done)
  have kept (place : Location) (stands : before.disk.tree.HasDirectory place) :=
    moves.directories sound stands
  obtain ⟨pending, downloader, -⟩ := (advanceUploader_meets before).of_ok done
  have checked : FileRequester.Checks task before.lendUpload after.lendUpload := by
    have whole : Meets (advanceUploader task) before
        (fun _ after => FileRequester.Checks task before.lendUpload after.lendUpload)
        (fun _ _ => True) :=
      advanceUploader_lent (FileRequester.advance_checks task knows.acts) (fun _ _ => id)
        fun _ _ _ => id
    exact whole.of_ok done
  have cursor : after.cursor = before.cursor.advance := checked.cursor
  refine ⟨checked.dryRun.trans knows.acts, ?_, by rw [pending, downloader]; exact knows.passes,
    ?_, ?_⟩
  · rw [cursor, Cursor.total_advance]
    exact knows.total
  · intro index listed
    rw [downloader] at listed
    obtain ⟨root, entry, opened, found, parent, name, seats⟩ := knows.seated index listed
    exact ⟨root, entry, opened, found, parent, name, seats.mono kept⟩
  · intro index entry early listed kind
    rw [downloader]
    by_cases earlier : index < before.cursor.next
    · exact (knows.passed index entry earlier listed kind).imp (fun asked => checked.requested asked)
        (Or.imp_right (·.mono kept))
    · have inside : index < task.files.length := (List.getElem?_eq_some_iff.mp listed).1
      obtain rfl : before.cursor.next = index := by
        rw [cursor] at early
        unfold Cursor.advance at early
        split at early
        · exact Nat.le_antisymm (Nat.le_of_not_lt earlier) (Nat.le_of_lt_succ early)
        · exact absurd early earlier
      rcases checked.entry entry (knows.total ▸ inside) listed kind with asked | current
      · exact .inl asked
      · exact .inr ((StoodBy.of_current distinct spares fresh sound ledger listed current).imp_right
          (·.mono kept))

omit distinct spares fresh in
theorem Knows.downloaded (advanced : Advances task first before) (knows : Knows task first before)
    {outcome : DownloadOutcome} (done : advanceDownloader task before = .ok outcome after) :
    Knows task first after := by
  obtain ⟨_, sound⟩ := advanced.visits.evolves idle
  have collects := (advanceDownloader_meets sound).of_ok done
  have kept (place : Location) (stands : before.disk.tree.HasDirectory place) :=
    Moves.directories sound (.collected collects) stands
  obtain ⟨⟨uploader, cursor, -⟩, -⟩ := (Unfolds.advanceDownloader_apart before).of_ok done
  have passes : Passes task after.pending after.downloader := by
    have whole : Meets (advanceDownloader task) before
        (fun _ after => Passes task after.pending after.downloader) (fun _ _ => True) :=
      advanceDownloader_lent (advance_passes task knows.passes) (fun _ _ _ => id) fun _ _ _ => id
    exact whole.of_ok done
  cases collects with
  | ended _ _ downloader | began _ _ downloader | grew _ _ downloader =>
      have downloader : after.downloader = before.downloader := downloader
      exact knows.onward uploader cursor (by rw [downloader]) passes kept
  | @committed arriving entry held _ listed downloader =>
      obtain ⟨root, entry', belongs⟩ := sound arriving held
      have received : after.downloader.received =
          before.downloader.received ++ [arriving.index] := congrArg FileCollector.received downloader
      refine ⟨uploader ▸ knows.acts, cursor ▸ knows.total, passes, ?_, ?_⟩
      · intro index among
        rw [received] at among
        rcases List.mem_append.mp among with earlier | latest
        · obtain ⟨root, entry, opened, found, parent, name, seats⟩ := knows.seated index earlier
          exact ⟨root, entry, opened, found, parent, name, seats.mono kept⟩
        · rw [List.mem_singleton.mp latest]
          exact ⟨root, entry', belongs.opened, belongs.listed, _, _, belongs.seats.mono kept⟩
      · intro index entry early found kind
        rw [uploader, received]
        rw [cursor] at early
        refine (knows.passed index entry early found kind).imp_right ?_
        exact Or.imp (List.mem_append_left _) (·.mono kept)

theorem Advances.knows (advanced : Advances task first now)
    (acts : first.uploader.dryRun = false)
    (cursor : first.cursor = .start task.files.length) : Knows task first now := by
  induction advanced with
  | start => exact .start acts fresh idle cursor
  | attended earlier attends ih =>
      have rested {before after : WholeFiles κ} (knows : Knows task first before)
          (rests : Rests before after) : Knows task first after := by
        refine knows.onward rests.uploader rests.cursor (by rw [rests.downloader]) ?_ ?_
        · rw [rests.pending, rests.downloader]
          exact knows.passes
        · rw [rests.disk]
          exact fun _ stands => stands
      cases attends with
      | waited done => exact rested ih ((wait_rests _).of_ok done)
      | uploaded done => exact ih.uploaded distinct spares fresh idle earlier done
      | flushed done => exact rested ih ((contentWaits_rests _).of_ok done)
  | downloaded earlier done ih => exact ih.downloaded idle earlier done

/-- In the end every file of the list is in place, if all that was asked for has come. -/
theorem Completes.current (advanced : Advances task first before)
    (completes : Completes task before last) (acts : first.uploader.dryRun = false)
    (cursor : first.cursor = .start task.files.length)
    (times : first.downloader.preserveTimes = true)
    (arrived : ∀ index ∈ last.uploader.requested, index ∈ last.downloader.received)
    (member : entry ∈ task.files) (kind : entry.isRegular = true) :
    FileRequester.Current task entry last.disk.tree := by
  obtain ⟨_, sound⟩ := advanced.visits.evolves idle
  obtain ⟨replies, draft, ledger⟩ := advanced.ledger idle
  have knows := (advanced.knows distinct spares fresh idle acts cursor).downloaded idle advanced
    completes.done
  obtain ⟨index, listed⟩ := List.mem_iff_getElem?.mp member
  have inside : index < task.files.length := (List.getElem?_eq_some_iff.mp listed).1
  have passed : index < last.cursor.next := by
    have ended := completes.exhausted
    simp only [Cursor.exhausted, decide_eq_true_eq, knows.total] at ended
    omega
  cases (advanceDownloader_meets sound).of_ok completes.done with
  | ended still _ downloader disk _ =>
      have disk : last.disk = before.disk := disk
      have downloader : last.downloader = before.downloader := downloader
      have still : before.pending = none := still
      have books := ledger.books
      rw [still, ← disk] at books
      have delivered {place : Location} (places : task.Places index place)
          (complete : task.Delivered first.downloader replies last.disk.tree place) :
          FileRequester.Current task entry last.disk.tree := by
        obtain ⟨reply, among, node, becomes, found⟩ := complete
        obtain rfl := places.index_unique distinct becomes.places
        have received : reply.index ∈ last.downloader.received := by
          rw [downloader, ledger.received, fresh, List.nil_append]
          exact List.mem_map_of_mem among
        obtain ⟨entry', listed', passable⟩ := knows.passes.received _ received
        obtain ⟨root, entry'', opened, listed'', seats⟩ := knows.seated _ received
        cases listed.symm.trans listed'
        cases listed.symm.trans listed''
        cases becomes with
        | file opened' listed' _ placed size time =>
            cases opened.symm.trans opened'
            cases listed.symm.trans listed'
            exact ⟨root, opened, _, _, ⟨passable, seats, _, placed, found⟩, size, time times⟩
      have come (received : index ∈ last.downloader.received) :
          FileRequester.Current task entry last.disk.tree := by
        rw [downloader, ledger.received, fresh, List.nil_append] at received
        obtain ⟨reply, among, rfl⟩ := List.mem_map.mp received
        obtain ⟨place, node, becomes, complete, -⟩ := books.keeps reply among
        exact delivered becomes.places complete
      rcases knows.passed index entry passed listed kind with asked | received | stood
      · exact come (arrived index asked)
      · exact come received
      · obtain ⟨passable, root, place, attributes, content, opened, seats, placed, found, fits⟩ := stood
        have places : task.Places index place := ⟨root, entry, opened, listed, placed⟩
        cases books.holding place with
        | kept same =>
            rw [← Tree.sight_eq_file, ← same, Tree.sight_eq_file] at found
            exact ⟨root, opened, attributes, content, ⟨passable, seats, place, placed, found⟩, fits⟩
        | delivered complete => exact delivered places complete
        | prepared opened' member' kind' placed' =>
            obtain ⟨other, listed'⟩ := List.mem_iff_getElem?.mp member'
            obtain rfl := places.index_unique distinct ⟨_, _, opened', listed', placed'⟩
            cases listed.symm.trans listed'
            simp only [ListEntry.isDirectory, ListEntry.isRegular, decide_eq_true_eq] at kind kind'
            rw [kind'] at kind
            cases kind
        | arriving here => cases here

end Steps

end Exchange

end TreeSync

import TreeSync.Proofs.Run.Clearing
import TreeSync.Proofs.Run.Completeness
import TreeSync.Proofs.Run.Grammar
import TreeSync.Proofs.Transfer.Alone
import TreeSync.Proofs.Transfer.Checking

namespace TreeSync

/-! Which files an exchange replaces.

Every reply that comes in full is committed, whether it was asked for or not, for neither role
knows the notes of the other. So a file is kept until a reply comes for its place, and what is
committed was asked for just as long as the peer answers requests only, and each of them once.
-/

open TreeSync.Action FileCollector

namespace Exchange

variable {κ : Type} [Connection κ] {task : Task} {first before middle now after : WholeFiles κ}

/-- What becomes of the files from one moment of an exchange to another. One that is not in
progress stays as it is until a reply for its place is committed; `more` are the indices of the
replies that are. -/
structure Retains (task : Task) (before after : WholeFiles κ) (more : List Nat) : Prop where
  received : after.downloader.received = before.downloader.received ++ more
  files : ∀ place, before.disk.tree.HasFile place → ¬ HoldsDraft before place →
    (after.disk.tree.sight place = before.disk.tree.sight place ∧ ¬ HoldsDraft after place) ∨
      ∃ index ∈ more, task.Places index place

namespace Retains

omit [Connection κ] in
theorem refl (now : WholeFiles κ) : Retains task now now [] :=
  ⟨(List.append_nil _).symm, fun _ _ apart => .inl ⟨rfl, apart⟩⟩

omit [Connection κ] in
theorem trans {more later : List Nat} (earlier : Retains task before middle more)
    (further : Retains task middle after later) : Retains task before after (more ++ later) where
  received := by rw [further.received, earlier.received, List.append_assoc]
  files place stands apart := by
    rcases earlier.files place stands apart with ⟨same, apart⟩ | ⟨index, among, places⟩
    · rcases further.files place (stands.of_sight same) apart with ⟨same', apart⟩ | ⟨index, among, places⟩
      · exact .inl ⟨same'.trans same, apart⟩
      · exact .inr ⟨index, List.mem_append_right _ among, places⟩
    · exact .inr ⟨index, List.mem_append_left _ among, places⟩

omit [Connection κ] in
/-- A step that commits nothing and touches no file but the one in progress. -/
theorem of_still (received : after.downloader = before.downloader)
    (files : ∀ place, before.disk.tree.HasFile place → ¬ HoldsDraft before place →
      after.disk.tree.sight place = before.disk.tree.sight place ∧ ¬ HoldsDraft after place) :
    Retains task before after [] :=
  ⟨by rw [received, List.append_nil], fun place stands apart => .inl (files place stands apart)⟩

end Retains

omit [Connection κ] in
theorem not_holdsDraft {place : Location} (idle : now.pending = none) : ¬ HoldsDraft now place := by
  intro holds
  obtain ⟨arriving, held, _⟩ := holds
  rw [idle] at held
  cases held

omit [Connection κ] in
theorem retains_of_prepares (pending : after.pending = before.pending)
    (downloader : after.downloader = before.downloader)
    (prepares : task.Prepares before.disk after.disk) : Retains task before after [] := by
  apply Retains.of_still downloader
  intro place stands apart
  constructor
  · generalize after.disk = disk at prepares ⊢
    cases prepares with
    | nothing => rfl
    | directory _ _ _ _ _ _ free =>
        apply Change.sight_apply_of_not_altered
        intro listed
        exact stands.ne_of_free free (List.mem_singleton.mp listed)
  · unfold HoldsDraft
    rw [pending]
    exact apart

omit [Connection κ] in
theorem retains_of_loses (loses : Loses task before.lendDownload after.lendDownload) :
    Retains task before after [] := by
  cases loses with
  | idle _ pending downloader _ disk =>
      have same : after.disk.tree = before.disk.tree := by
        rw [show after.disk = _ from disk]
        rfl
      apply Retains.of_still downloader
      intro place _ _
      exact ⟨by rw [same], not_holdsDraft pending⟩
  | stranded _ pending downloader strands =>
      obtain ⟨-, -, -, -, stranded⟩ := strands
      apply Retains.of_still downloader
      intro place stands _
      rw [show after.disk = _ from stranded.made]
      exact ⟨stranded.fresh.keepsFiles stands, not_holdsDraft pending⟩
  | @gaveUp arriving changes held pending downloader works disk =>
      apply Retains.of_still downloader
      intro place _ apart
      have elsewhere : place ≠ arriving.temporary.file :=
        fun here => apart ⟨arriving, held, here.symm⟩
      have removed : after.disk.tree.sight place = _ :=
        (congrArg (fun disk => disk.tree.sight place) disk).trans Change.sight_removedFile
      rw [removed, if_neg elsewhere]
      exact ⟨Disk.sight_performAll works elsewhere, not_holdsDraft pending⟩

/-- Only the end of a reply replaces a file: the one in the place of the entry it is for. -/
theorem retains_of_collects {outcome : DownloadOutcome} (sound : Sound task before)
    (collects : Collects task before.lendDownload after.lendDownload outcome) :
    ∃ more, Retains task before after more := by
  cases collects with
  | ended _ pending downloader disk _ =>
      have disk : after.disk = before.disk := disk
      have still : Retains task before after [] := by
        apply Retains.of_still downloader
        intro place _ _
        exact ⟨by rw [disk], not_holdsDraft pending⟩
      exact ⟨[], still⟩
  | @began arriving _ _ _ _ _ _ _ _ pending downloader _ _ _ _ fresh _ disk _ _ =>
      have still : Retains task before after [] := by
        apply Retains.of_still downloader
        intro place stands _
        constructor
        · rw [show after.disk = _ from disk]
          exact fresh.keepsFiles stands
        · intro holds
          obtain ⟨other, later, rfl⟩ := holds
          cases (show after.pending = some arriving from pending).symm.trans later
          exact stands.ne_of_free fresh.free rfl
      exact ⟨[], still⟩
  | @grew arriving content held pending downloader disk _ _ _ =>
      have still : Retains task before after [] := by
        apply Retains.of_still downloader
        intro place _ apart
        constructor
        · rw [show after.disk = _ from disk]
          exact (Change.WorksOn.wrote content).sight fun here => apart ⟨arriving, held, here.symm⟩
        · intro holds
          obtain ⟨other, later, rfl⟩ := holds
          cases (show after.pending = some _ from pending).symm.trans later
          exact apart ⟨arriving, held, rfl⟩
      exact ⟨[], still⟩
  | @committed arriving entry held pending listed downloader _ plain _ disk _ =>
      obtain ⟨root, entry', belongs⟩ := sound arriving held
      obtain ⟨attributes, content, found⟩ := belongs.stands.file
      obtain ⟨_, _, seen⟩ := Task.Books.sight_committed before.downloader entry task.umask
        (arriving.name :: arriving.temporary.directory) found
      have received : after.downloader.received = before.downloader.received ++ [arriving.index] :=
        congrArg FileCollector.received downloader
      refine ⟨[arriving.index], received, fun place _ apart => ?_⟩
      by_cases there : place = arriving.name :: arriving.temporary.directory
      · have placed := belongs.seats.place plain.notSelf
        rw [← there] at placed
        exact .inr ⟨_, List.mem_singleton_self _, root, entry', belongs.opened, belongs.listed, placed⟩
      · have elsewhere : place ≠ arriving.temporary.file :=
          fun here => apart ⟨arriving, held, here.symm⟩
        have same : after.disk.tree.sight place = before.disk.tree.sight place := by
          rw [show after.disk = _ from disk]
          exact (seen place).trans ((if_neg there).trans (if_neg elsewhere))
        exact .inl ⟨same, not_holdsDraft pending⟩

theorem Moves.retains (sound : Sound task before) (moves : Moves task before after) :
    ∃ more, Retains task before after more := by
  cases moves with
  | prepared pending downloader prepares => exact ⟨[], retains_of_prepares pending downloader prepares⟩
  | collected collects => exact retains_of_collects sound collects
  | lost loses => exact ⟨[], retains_of_loses loses⟩

theorem Visits.retains (visited : Visits task before now) (sound : Sound task before) :
    ∃ more, Retains task before now more := by
  let holds (now : WholeFiles κ) : Prop := Sound task now ∧ ∃ more, Retains task before now more
  have kept (middle after : WholeFiles κ) (known : holds middle) (moves : Moves task middle after) :
      holds after := by
    obtain ⟨sound, more, earlier⟩ := known
    obtain ⟨later, further⟩ := moves.retains sound
    exact ⟨(moves.evolves sound).2, more ++ later, earlier.trans further⟩
  exact (visited.invariant holds ⟨sound, [], .refl before⟩ (fun _ => And.left) kept).2

theorem advanceUploader_minds (now : WholeFiles κ) :
    Meets (advanceUploader task) now
      (fun _ after => after.cursor = now.cursor.advance ∧
        FileRequester.Minds task now.lendUpload after.lendUpload)
      (fun _ after => after.uploader = now.uploader) := by
  have uploads := FileRequester.advance_minds task now.lendUpload
  refine advanceUploader_lent (uploads.mono ?_ ?_) (fun _ _ => id) fun _ _ _ => id
  · exact fun _ _ minds => minds
  · exact fun _ _ stays => stays.uploader

/-- What the notes of the uploader tell as long as an exchange goes on: what it found up to date
was in place at an earlier moment. -/
structure Noted (task : Task) (first now : WholeFiles κ) : Prop where
  sorted : now.uploader.Sorted now.cursor
  current : ∀ index ∈ now.uploader.upToDate, ∃ looked, Advances task first looked ∧
    Advances task looked now ∧ task.HasCurrent looked.disk.tree index

namespace Noted

theorem start (asked : first.uploader.requested = []) (found : first.uploader.upToDate = []) :
    Noted task first first where
  sorted := ⟨by simp [asked, found], by simp [asked, found]⟩
  current := by simp [found]

theorem onward (noted : Noted task first before)
    (further : ∀ {looked}, Advances task looked before → Advances task looked after)
    (uploader : after.uploader = before.uploader) (cursor : after.cursor = before.cursor) :
    Noted task first after where
  sorted := by
    rw [uploader, cursor]
    exact noted.sorted
  current index among := by
    rw [uploader] at among
    obtain ⟨looked, early, late, current⟩ := noted.current index among
    exact ⟨looked, early, further late, current⟩

theorem uploaded (noted : Noted task first before) (advanced : Advances task first before)
    (done : advanceUploader task before = .ok () after) : Noted task first after := by
  obtain ⟨cursor, minds⟩ := (advanceUploader_minds before).of_ok done
  constructor
  · exact minds.sorted cursor noted.sorted
  · intro index among
    rcases minds.current among with earlier | now
    · obtain ⟨looked, early, late, current⟩ := noted.current index earlier
      exact ⟨looked, early, late.attended (.uploaded done), current⟩
    · exact ⟨before, advanced, .attended .start (.uploaded done), now⟩

end Noted

section Logbook

variable (log : Logbook κ) {options : Options} {requests : List Nat}

include log in
theorem Advances.noted (advanced : Advances task first now)
    (asked : first.uploader.requested = []) (found : first.uploader.upToDate = []) :
    Noted task first now := by
  induction advanced with
  | start => exact .start asked found
  | attended earlier attends ih =>
      cases attends with
      | waited done =>
          have hushed := (wait_hushed log.polls).of_ok done
          exact ih.onward (·.attended (.waited done)) hushed.uploader hushed.cursor
      | uploaded done => exact ih.uploaded earlier done
      | flushed done =>
          have hushed := (contentWaits_hushed log.reads).of_ok done
          exact ih.onward (·.attended (.flushed done)) hushed.uploader hushed.cursor
  | downloaded _ done ih =>
      have hushed := (advanceDownloader_hushed log.reads task).of_ok done
      exact ih.onward (·.downloaded done) hushed.uploader hushed.cursor

/-- The requests that the uploader has noted are those that it sent. -/
theorem Advances.tells (strength : task.checksum = options.checksum)
    (advanced : Advances task first now)
    (known : Said log.sent options task first.uploader.requested first) :
    Said log.sent options task now.uploader.requested now := by
  have hushes {before after : WholeFiles κ} (hushed : Hushed log.sent before after)
      (known : Said log.sent options task before.uploader.requested before) :
      Said log.sent options task after.uploader.requested after := by
    rw [hushed.uploader]
    exact hushed.said known
  induction advanced with
  | start => exact known
  | @attended before after _ attends ih =>
      cases attends with
      | waited done => exact hushes ((wait_hushed log.polls).of_ok done) ih
      | uploaded done =>
          have uploads := FileRequester.advance_tells log.adds strength ih
          have whole : Meets (advanceUploader task) before
              (fun _ after => Said log.sent options task after.uploader.requested after)
              (fun _ _ => True) := by
            refine advanceUploader_lent (uploads.mono ?_ fun _ _ _ => trivial) (fun _ _ => id)
              fun _ _ _ => id
            intro _ _ met
            obtain ⟨⟨more, said, noted⟩, _⟩ := met
            exact noted ▸ said
          exact whole.of_ok done
      | flushed done => exact hushes ((contentWaits_hushed log.reads).of_ok done) ih
  | downloaded _ done ih => exact hushes ((advanceDownloader_hushed log.reads task).of_ok done) ih

include log in
/-- The last step of an exchange notes nothing and commits nothing. -/
theorem Closes.notes (sound : Sound task now) (closes : Closes task now after) :
    after.uploader = now.uploader ∧ after.downloader = now.downloader := by
  constructor
  · cases closes with
    | waiting failed => exact ((wait_hushed log.polls).of_error failed).uploader
    | uploading failed => exact (advanceUploader_minds now).of_error failed
    | flushing failed => exact ((contentWaits_hushed log.reads).of_error failed).uploader
    | downloading failed => exact ((advanceDownloader_hushed log.reads task).of_error failed).uploader
    | completed done => exact ((advanceDownloader_hushed log.reads task).of_ok done).uploader
  · rcases closes.effect sound with attended | loses | collects
    · exact attended.2.1
    · cases loses with
      | idle _ _ downloader | stranded _ _ downloader | gaveUp _ _ downloader => exact downloader
    · cases collects with
      | ended _ _ downloader => exact downloader

end Logbook

/-- Whether no file was committed more often than it was asked for. -/
def Answered (now : WholeFiles κ) : Prop :=
  ∀ index, now.downloader.received.count index ≤ now.uploader.requested.count index

omit [Connection κ] in
theorem answered_iff (once : now.uploader.requested.Nodup) :
    Answered now ↔ now.downloader.received.Nodup ∧
      ∀ index ∈ now.downloader.received, index ∈ now.uploader.requested := by
  constructor
  · intro answered
    constructor
    · rw [List.nodup_iff_count_le_one]
      intro index
      exact (answered index).trans (List.nodup_iff_count_le_one.mp once index)
    · intro index among
      have received := List.count_pos_iff.mpr among
      exact List.count_pos_iff.mp (Nat.lt_of_lt_of_le received (answered index))
  · intro fits index
    by_cases among : index ∈ now.downloader.received
    · have requested := List.count_pos_iff.mpr (fits.2 index among)
      exact (List.nodup_iff_count_le_one.mp fits.1 index).trans requested
    · rw [List.count_eq_zero.mpr among]
      exact Nat.zero_le _

/-- What was asked for and what was committed when an exchange came to a moment. Whatever the peer
sent in full was committed, so it was asked for if the peer sends nothing else. -/
structure Commits (sent : κ → Bytes → Prop) (options : Options) (task : Task)
    (first now : WholeFiles κ) (replies : List Reply) : Prop where
  accounted : Accounted task first now replies
  formed : ∀ reply ∈ replies, reply.WellFormed
  received : now.downloader.received = replies.map Reply.index
  becomes : ∀ reply ∈ replies, ∃ place node, reply.Becomes task first.downloader place node
  /-- All that is noted as asked for was sent before the last step. -/
  told : ∃ begun, Advances task first begun ∧ (now = begun ∨ Closes task begun now) ∧
    Said sent options task now.uploader.requested begun
  answered : Answered now ↔ (replies.map Reply.index).Nodup ∧
    ∀ reply ∈ replies, reply.index ∈ now.uploader.requested

/-- Whether the file of an entry that was found up to date was not asked for and is as it was
then, unless a reply for its place was committed since. -/
def SparesCurrent (task : Task) (first now : WholeFiles κ) (index : Nat) : Prop :=
  index ∉ now.uploader.requested ∧ ∃ looked place more, Advances task first looked ∧
    Visits task looked now ∧ task.HasCurrent looked.disk.tree index ∧ task.Places index place ∧
    now.downloader.received = looked.downloader.received ++ more ∧
    (HoldsDraft looked place ∨ now.disk.tree.sight place = looked.disk.tree.sight place ∨
      ∃ other ∈ more, task.Places other place)

section Logbook

variable (log : Logbook κ) {options : Options} (idle : first.pending = none)

include log idle

/-- At every moment the notes are those of the moment before the last step. -/
theorem Visits.begun (visited : Visits task first now) :
    ∃ begun, Advances task first begun ∧ (now = begun ∨ Closes task begun now) ∧
      now.uploader = begun.uploader ∧ now.downloader = begun.downloader := by
  rcases visited with advanced | closed
  · exact ⟨now, advanced, .inl rfl, rfl, rfl⟩
  · obtain ⟨begun, advanced, closes⟩ := closed
    obtain ⟨_, sound⟩ := advanced.visits.evolves idle
    exact ⟨begun, advanced, .inr closes, closes.notes log sound⟩

variable (asked : first.uploader.requested = []) (found : first.uploader.upToDate = [])

include asked found

theorem Visits.commits (strength : task.checksum = options.checksum)
    (fresh : first.downloader.received = []) (known : Said log.sent options task [] first)
    (visited : Visits task first now) :
    ∃ replies, Commits log.sent options task first now replies := by
  rw [← asked] at known
  obtain ⟨begun, advanced, last, uploader, downloader⟩ := visited.begun log idle
  obtain ⟨replies, draft, ledger⟩ := advanced.ledger idle
  have received : now.downloader.received = replies.map Reply.index := by
    rw [downloader, ledger.received, fresh, List.nil_append]
  have once : now.uploader.requested.Nodup := by
    rw [uploader]
    exact (advanced.noted log asked found).sorted.once.of_append_left
  have told : Said log.sent options task now.uploader.requested begun := by
    rw [uploader]
    exact advanced.tells log strength known
  have becomes (reply : Reply) (among : reply ∈ replies) :
      ∃ place node, reply.Becomes task first.downloader place node := by
    obtain ⟨place, node, becomes, _⟩ := ledger.books.keeps reply among
    exact ⟨place, node, becomes⟩
  exact ⟨replies,
    { accounted := ⟨begun, draft, ledger.takes, last⟩
      formed := ledger.formed
      received
      becomes
      told := ⟨begun, advanced, last, told⟩
      answered := by rw [answered_iff once, received, List.forall_mem_map] }⟩

theorem Visits.sparesCurrent (visited : Visits task first now) {index : Nat}
    (among : index ∈ now.uploader.upToDate) : SparesCurrent task first now index := by
  obtain ⟨begun, advanced, last, uploader, -⟩ := visited.begun log idle
  have noted := advanced.noted log asked found
  rw [uploader] at among
  obtain ⟨looked, early, late, current⟩ := noted.current index among
  have later : Visits task looked now := by
    rcases last with rfl | closes
    · exact late.visits
    · exact late.closed closes
  obtain ⟨_, sound⟩ := early.visits.evolves idle
  obtain ⟨more, retains⟩ := later.retains sound
  obtain ⟨entry, listed, _, root, opened, attributes, content, shows, _⟩ := id current
  obtain ⟨place, placed, there⟩ := shows.found
  have unasked : index ∉ now.uploader.requested := by
    rw [uploader]
    intro asked
    exact List.disjoint_of_nodup_append noted.sorted.once asked among
  have places : task.Places index place := ⟨root, entry, opened, listed, placed⟩
  refine ⟨unasked, looked, place, more, early, later, current, places, retains.received, ?_⟩
  by_cases draft : HoldsDraft looked place
  · exact .inl draft
  · exact .inr ((retains.files place ⟨attributes, content, there⟩ draft).imp_left And.left)

end Logbook

omit [Connection κ] in
theorem abandonPending_sight {place : Location} (sound : Sound task now)
    (apart : ¬ HoldsDraft now place) :
    (abandonPending now).disk.tree.sight place = now.disk.tree.sight place := by
  rcases abandonPending_disk sound with abandoned | idle
  · obtain ⟨arriving, held, removed⟩ := abandoned
    rw [removed]
    refine Change.sight_apply_of_not_altered fun listed => ?_
    exact apart ⟨arriving, held, (List.mem_singleton.mp listed).symm⟩
  · rw [idle.2]

omit [Connection κ] in
theorem abandonPending_notes (now : WholeFiles κ) :
    (abandonPending now).uploader = now.uploader ∧
      (abandonPending now).downloader = now.downloader := by
  unfold abandonPending
  split <;> exact ⟨rfl, rfl⟩

end Exchange

theorem BoundedSink.written_of_put {before after : BoundedSink} {bytes : Bytes}
    (done : put bytes before = .ok () after) : after.written = before.written ++ bytes := by
  unfold put at done
  split at done
  · cases done
    rfl
  · split at done <;> cases done
    rfl

/-- What was written to a connection by the writes that succeeded. -/
def StagedConnection.logbook : Logbook StagedConnection where
  sent connection said := connection.sink.written = said
  adds {before said} bytes held := by
    refine Meets.intro (fun _ after done => ?_) fun _ _ _ => trivial
    change StagedConnection.put bytes before = .ok () after at done
    unfold StagedConnection.put at done
    split at done
    · next sink wrote =>
      cases done
      rw [← held]
      exact BoundedSink.written_of_put wrote
    · cases done
  reads := reads_silently fun sink said => sink.written = said
  polls timeout beside := .of_leaves fun before _ held => held

namespace Running

variable {κ ς : Type} [Connection κ] {path : Path} {task : Task} {removals : Removals}
  {options : Options} {ready after : Running FileRequester FileCollector ς κ}

/-- What is left of an exchange: the notes of its last moment, and the files that stood there then
but for the one in progress. -/
def LeavesNotes (task : Task) (ready after : Running FileRequester FileCollector ς κ) : Prop :=
  ∃ last, Exchange.Visits task (beginExchange task.files.length ready) last ∧
    after.endpoint.uploader = last.uploader ∧ after.endpoint.downloader = last.downloader ∧
    ∀ place content, last.disk.tree.FileWith place content → ¬ Exchange.HoldsDraft last place →
      after.disk.tree.FileWith place content

theorem exchange_leavesNotes :
    Meets (exchange task) ready (fun _ after => LeavesNotes task ready after)
      (fun _ after => LeavesNotes task ready after) := by
  obtain ⟨last, visited, ended⟩ := Exchange.run_visits task (beginExchange task.files.length ready)
    ready.endpoint.patience
  have idle : (beginExchange task.files.length ready : Exchange.WholeFiles κ).pending = none := rfl
  obtain ⟨_, sound⟩ := visited.evolves idle
  have left : LeavesNotes task ready (endExchange (Exchange.abandonPending last) ready) := by
    obtain ⟨uploader, downloader⟩ := Exchange.abandonPending_notes last
    refine ⟨last, visited, uploader, downloader, fun place content stands apart => ?_⟩
    obtain ⟨attributes, found⟩ := stands
    refine ⟨attributes, ?_⟩
    rw [← Tree.sight_eq_file] at found ⊢
    exact (Exchange.abandonPending_sight sound apart).trans found
  have ends : Meets (exchange task) ready _ _ :=
    exchange_meets (fun exchanged => exchanged = Exchange.abandonPending last) ended
  have ended {after : Running FileRequester FileCollector ς κ}
      (met : ∃ exchanged, exchanged = Exchange.abandonPending last ∧
        after = endExchange exchanged ready) : LeavesNotes task ready after := by
    obtain ⟨exchanged, rfl, rfl⟩ := met
    exact left
  exact ends.mono (fun _ _ => ended) fun _ _ => ended

theorem finishing_leavesNotes :
    LeavesNotes task ready (stateAfter (finishing path task removals) ready) := by
  have concludes {now after : Running FileRequester FileCollector ς κ}
      (left : LeavesNotes task ready now)
      (proceeds : Proceeds (Change.AdornsOpen task.root) now after) :
      LeavesNotes task ready after := by
    obtain ⟨last, visited, uploader, downloader, files⟩ := left
    refine ⟨last, visited, proceeds.uploader.trans uploader, proceeds.downloader.trans downloader, ?_⟩
    intro place content stands apart
    rw [Tree.fileWith_iff_outline, proceeds.outline, ← Tree.fileWith_iff_outline]
    exact files place content stands apart
  have ends : Meets (finishing path task removals) ready
      (fun _ after => LeavesNotes task ready after) (fun _ after => LeavesNotes task ready after) := by
    refine exchange_leavesNotes.followedBy (fun _ _ left => left) fun result now left => ?_
    refine (conclude_proceeds now).mono ?_ ?_
    · exact fun _ _ concluded => concludes left concluded.1
    · exact fun _ _ concluded => concludes left concluded
  exact ends.stateAfter

/-- What a run of `task` replaces, at each moment of its exchange and in the end. -/
structure Replaces (sent : κ → Bytes → Prop) (options : Options) (task : Task)
    (ready final : Running FileRequester FileCollector ς κ) : Prop where
  commits : ∀ now, Exchange.Visits task (beginExchange task.files.length ready) now →
    ∃ replies,
      Exchange.Commits sent options task (beginExchange task.files.length ready) now replies
  current : ∀ now, Exchange.Visits task (beginExchange task.files.length ready) now →
    ∀ index ∈ now.uploader.upToDate,
      Exchange.SparesCurrent task (beginExchange task.files.length ready) now index
  retains : ∀ before now, Exchange.Advances task (beginExchange task.files.length ready) before →
    Exchange.Visits task before now → ∃ more, Exchange.Retains task before now more
  leaves : LeavesNotes task ready final

variable [Sandbox ς]

/-- Whatever ends a run, the files it has replaced are those that the peer sent replies for. -/
theorem run_replaces_replied (log : Logbook κ) (options : Options) (sandbox : ς) (patience : Nat)
    (connection : κ) (disk : Disk) (path : Path) (fresh : log.sent connection []) :
    let start : Running FileRequester FileCollector ς κ :=
      .start (.wholeFiles options sandbox patience) connection disk
    let final := stateAfter (run path) start
    (∀ task ready, readying path start = .ok (some task) ready →
      Replaces log.sent options task ready final) ∧
    ((∀ task ready, readying path start ≠ .ok (some task) ready) →
      final.endpoint.uploader.requested = [] ∧ final.endpoint.downloader.received = []) := by
  intro start final
  have readies : Meets (readying path) start (fun _ after => Readies start after)
      (fun _ after => Readies start after) := readying_meets rfl
  have uttered : start.Says log.sent [] := fresh
  have greeted : Meets (readying path) start _ _ := readying_uttered log.adds log.reads uttered
  have spares := readying_spares (υ := FileRequester) (δ := FileCollector) (ς := ς) (κ := κ) .any
    (fun _ => .any _) (fun _ => .any _) path
  cases prelude path start with
  | failed readied ran =>
      refine ⟨fun task ready same => ?_, fun _ => ?_⟩
      · rw [readied] at same
        cases same
      · have before := readies.of_error readied
        rw [show final = _ from stateAfter_error ran]
        exact ⟨congrArg FileRequester.requested before.uploader,
          congrArg FileCollector.received before.downloader⟩
  | skipped readied ran =>
      refine ⟨fun task ready same => ?_, fun _ => ?_⟩
      · rw [readied] at same
        cases same
      · have before := readies.of_ok readied
        rw [show final = _ from stateAfter_ok ran]
        exact ⟨congrArg FileRequester.requested before.uploader,
          congrArg FileCollector.received before.downloader⟩
  | @reached task removals ready readied umask ran =>
      refine ⟨fun task' ready' same => ?_, fun nothing => absurd readied (nothing task ready)⟩
      rw [readied] at same
      cases same
      obtain ⟨greeting, strength, -⟩ := greeted.of_ok readied
      have kept : ready.endpoint.options = options := (spares.of_ok readied).options
      have strength : task.checksum = options.checksum := kept ▸ strength task rfl
      have before := readies.of_ok readied
      have obeys : ready.endpoint.uploader.dryRun = options.dryRun :=
        congrArg FileRequester.dryRun before.uploader
      have asked : ready.endpoint.uploader.requested = [] :=
        congrArg FileRequester.requested before.uploader
      have found : ready.endpoint.uploader.upToDate = [] :=
        congrArg FileRequester.upToDate before.uploader
      have received : ready.endpoint.downloader.received = [] :=
        congrArg FileCollector.received before.downloader
      have known : Exchange.Said log.sent options task [] (beginExchange task.files.length ready) :=
        beginExchange_said task.files.length greeting obeys
      refine ⟨fun now visited => ?_, fun now visited index among => ?_,
        fun before now advanced visited => ?_, ?_⟩
      · exact visited.commits log rfl asked found strength received known
      · exact visited.sparesCurrent log rfl asked found among
      · obtain ⟨_, sound⟩ := advanced.visits.evolves rfl
        exact visited.retains sound
      · rw [show final = _ from (stateAfter_congr ran).trans (stateAfter_ensuring _ _ _)]
        exact finishing_leavesNotes

/-- A peer that replies twice to the one request it gets. -/
def repliesTwice : StagedConnection :=
  .start [⟨0, listOfOne⟩, ⟨24, headBytes 0 0 0 0 ++ pieceBytes [120, 120, 120] ++ Wire.intBytes 0 ++
    headBytes 0 0 0 0 ++ pieceBytes [121, 121, 121] ++ Wire.intBytes 0 ++
    Wire.intBytes Wire.doneIndex ++ Wire.intBytes Wire.doneIndex⟩] .half none

theorem run_replaces_replied_twice :
    StagedConnection.logbook.sent repliesTwice [] ∧ ∃ task ready last replies,
      readying ⟨selfName⟩ (.start (.wholeFiles { server := true } ({} : StrictSandbox) 0) repliesTwice
        { tree := Tree.empty.set [] (.directory ⟨0o755, 0⟩) }) = .ok (some task) ready ∧
      Exchange.Commits StagedConnection.logbook.sent { server := true } task
        (beginExchange task.files.length ready) last replies ∧
      replies.map Reply.index = [0, 0] ∧ last.uploader.requested = [0] ∧
      ¬ Exchange.Answered last := by
  let start : Running FileRequester FileCollector StrictSandbox StagedConnection :=
    .start (.wholeFiles { server := true } {} 0) repliesTwice
      { tree := Tree.empty.set [] (.directory ⟨0o755, 0⟩) }
  have fresh : StagedConnection.logbook.sent repliesTwice [] := rfl
  have readied : endsIn (readying ⟨selfName⟩ start) (fun task _ => task.isSome) = true := by
    decide +kernel
  have ended : (stateAfter (run ⟨selfName⟩) start).endpoint.uploader.requested = [0] ∧
      (stateAfter (run ⟨selfName⟩) start).endpoint.downloader.received = [0, 0] := by
    decide +kernel
  obtain ⟨task?, ready, reached, listed⟩ := of_endsIn readied
  obtain ⟨task, rfl⟩ := Option.isSome_iff_exists.mp listed
  have replaces := (run_replaces_replied StagedConnection.logbook { server := true }
    ({} : StrictSandbox) 0 repliesTwice { tree := Tree.empty.set [] (.directory ⟨0o755, 0⟩) }
    ⟨selfName⟩ fresh).1 task ready reached
  obtain ⟨last, visited, uploader, downloader, _⟩ := replaces.leaves
  obtain ⟨replies, commits⟩ := replaces.commits last visited
  have requested : last.uploader.requested = [0] := by rw [← uploader]; exact ended.1
  have received : last.downloader.received = [0, 0] := by rw [← downloader]; exact ended.2
  refine ⟨fresh, task, ready, last, replies, reached, commits, ?_, requested, fun answered => ?_⟩
  · rw [← commits.received, received]
  · have twice := answered 0
    rw [requested, received] at twice
    exact absurd twice (by decide)

/-- A list of one file, of which a version of the same size and time is there, and a reply for it
that was not asked for. -/
def unaskedStart : Running FileRequester FileCollector StrictSandbox StagedConnection :=
  .start (.wholeFiles { server := true } {} 0)
    (.start [⟨0, listOfOne⟩, ⟨4, headBytes 0 0 0 0 ++ pieceBytes [120, 120, 120] ++ Wire.intBytes 0 ++
      Wire.intBytes Wire.doneIndex ++ Wire.intBytes Wire.doneIndex⟩] .half none)
    { tree := (Tree.empty.set [] (.directory ⟨0o755, 0⟩)).set [[97]] (.file ⟨0o644, 0⟩ [1, 2, 3]) }

/-- Such a run ends well with the file replaced that it found up to date. -/
theorem run_replaces_current :
    ∃ outcome final, run ⟨selfName⟩ unaskedStart = .ok outcome final ∧
      final.endpoint.uploader.requested = [] ∧ final.endpoint.uploader.upToDate = [0] ∧
      final.endpoint.downloader.received = [0] ∧
      unaskedStart.disk.tree.get? [[97]] = some (.file ⟨0o644, 0⟩ [1, 2, 3]) ∧
      ∃ mtime, final.disk.tree.get? [[97]] = some (.file ⟨0o644, mtime⟩ [120, 120, 120]) := by
  have ends : endsIn (run ⟨selfName⟩ unaskedStart) (fun outcome final =>
      decide (final.endpoint.uploader.requested = [] ∧ final.endpoint.uploader.upToDate = [0] ∧
        final.endpoint.downloader.received = [0] ∧
        final.disk.tree.get? [[97]] = some (.file ⟨0o644, 0⟩ [120, 120, 120]))) = true := by
    decide +kernel
  obtain ⟨outcome, final, ran, seen⟩ := of_endsIn ends
  obtain ⟨requested, upToDate, received, there⟩ := of_decide_eq_true seen
  exact ⟨outcome, final, ran, requested, upToDate, received, by decide +kernel, _, there⟩

end Running

end TreeSync

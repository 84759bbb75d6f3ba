import TreeSync.Proofs.Run.Atomicity
import TreeSync.Proofs.Run.Peer
import TreeSync.Proofs.Transfer.Alone

namespace TreeSync

/-! An exchange with an honest peer, and the uploader alone.

At every moment the uploader is in the state that it comes to alone in as many steps, and the
tree is the one it would have made alone with the files laid over it that have arrived. The
order of the steps only settles which moments an exchange passes through.
-/

open TreeSync.Action TreeSync.Speech FileCollector

/-- Whether none of the names that are still to be drawn for temporary files is that of an
entry. -/
def Disk.Spares (disk : Disk) (files : List ListEntry) : Prop :=
  ∀ {root parent : Location} {name : Name} {turn : Nat}, disk.draws ≤ turn →
    ∀ {entry : ListEntry}, entry ∈ files → entry.isRegular = true →
      entry.path.seatBeneath root = some (parent, name) →
        ∀ other ∈ files, other.path.placeBeneath root ≠
          some (Temporary.nameFor name (disk.entropy turn) :: parent)

theorem Disk.Spares.later {allowed : Tree → Change → Prop} {before after : Disk}
    {files : List ListEntry} (spares : before.Spares files)
    (evolves : Disk.Evolves allowed before after) : after.Spares files := by
  intro root parent name turn early
  rw [evolves.entropy]
  exact spares (Nat.le_trans evolves.draws early)

/-- In a list of plain names only the names themselves have to be spared. -/
theorem Disk.spares_of_names {disk : Disk} {files : List ListEntry}
    (plain : ∀ entry ∈ files, ∀ root,
      entry.path.placeBeneath root = some (entry.path.bytes :: root))
    (free : ∀ turn, ∀ entry ∈ files, ∀ other ∈ files,
      Temporary.nameFor entry.path.bytes (disk.entropy turn) ≠ other.path.bytes) :
    disk.Spares files := by
  intro root parent name turn _ entry listed _ seat other listed' same
  rw [Path.seatBeneath, plain entry listed root, Option.map_some, if_neg (by simp)] at seat
  cases seat
  rw [plain other listed' root] at same
  exact free turn entry listed other listed' (List.cons.inj (Option.some.inj same)).1.symm

namespace Exchange

variable {κ : Type} [Connection κ] {peer : Peer} {options : Options} {task : Task}
  {origin : Inflow κ} {solo bare : Uploading FileRequester BoundedSink}
  {first now after : WholeFiles κ} {replies : List Reply} {draft : Option Reply}

/-- What a step leaves alone that neither role takes; the conversation goes on in it. -/
structure Rests (before after : WholeFiles κ) : Prop where
  uploader : after.uploader = before.uploader
  cursor : after.cursor = before.cursor
  marks : after.newDirectories = before.newDirectories
  pending : after.pending = before.pending
  downloader : after.downloader = before.downloader
  disk : after.disk = before.disk
  converses : ∀ {origin : Inflow κ} {taken said : Bytes},
    origin.Converses taken said before.inflow → origin.Converses taken said after.inflow

abbrev Resting {ε α : Type} (step : EStateM ε (WholeFiles κ) α) (now here : WholeFiles κ) : Prop :=
  Meets step here (fun _ after => Rests now after) fun _ _ => True

theorem Resting.bind {ε α β : Type} {step : EStateM ε (WholeFiles κ) β}
    {rest : β → EStateM ε (WholeFiles κ) α} {here : WholeFiles κ} (first : Resting step now here)
    (next : ∀ value after, Rests now after → Resting (rest value) now after) :
    Resting (step >>= rest) now here :=
  Meets.bind first next

theorem wait_rests (now : WholeFiles κ) : Resting wait now now := by
  refine Meets.get (Meets.changeThen (Resting.bind ?_ fun signals woken rests => ?_))
  · refine Meets.explaining (Meets.within ?_)
    refine (Meets.ran _).mono (fun signals source polled => ?_) fun _ _ _ => trivial
    exact ⟨rfl, rfl, rfl, rfl, rfl, rfl, fun converses => converses.waited polled⟩
  refine Meets.get ?_
  split
  · exact Meets.throw trivial
  · refine Meets.changeThen (Meets.changeThen (Meets.pure ?_))
    exact { rests with converses := fun converses => (rests.converses converses).reported _ }

theorem contentWaits_rests (now : WholeFiles κ) : Resting contentWaits now now := by
  have same : Rests now now := ⟨rfl, rfl, rfl, rfl, rfl, rfl, id⟩
  refine Meets.get (Meets.cond (fun _ => ?_) fun _ => Meets.pure same)
  refine Resting.bind ?_ fun _ flushed rests => ?_
  · refine Meets.explaining (Meets.within ?_)
    refine (Meets.ran _).mono (fun _ inflow flushed => ?_) fun _ _ _ => trivial
    exact ⟨rfl, rfl, rfl, rfl, rfl, rfl, fun converses => converses.flushed flushed⟩
  · exact Meets.get (Meets.changeThen (Meets.pure { rests with }))

/-- Where files stand that the uploader alone knows nothing of: those received, each in its
place, and the one in progress. -/
def Laid (task : Task) (now : WholeFiles κ) (place : Location) : Prop :=
  (∃ index ∈ now.downloader.received, task.Places index place) ∨
    now.pending.map (·.temporary.file) = some place

/-- A conversation that got so far with the replies, as the outbound side of the connection
sees it. -/
def Told (peer : Peer) (options : Options) (origin : Inflow κ) (replies : List Reply)
    (draft : Option Reply) (inflow : Inflow κ) (source : κ) (said : Bytes) : Prop :=
  origin.Converses (peer.list ++ bytesOf replies draft) (bytes (greeting options) ++ said)
    { inflow with source }

theorem Told.adds (peer : Peer) (options : Options) (origin : Inflow κ) (replies : List Reply)
    (draft : Option Reply) (inflow : Inflow κ) :
    ByteSink.Adds (Told peer options origin replies draft inflow) fun _ _ => True := by
  intro before said more held
  refine (Meets.ran _).mono (fun _ _ done => ?_) fun _ _ _ => trivial
  unfold Told
  rw [← List.append_assoc]
  have earlier : origin.Converses (peer.list ++ bytesOf replies draft)
      (bytes (greeting options) ++ said) { inflow with source := before } := held
  exact earlier.wrote done

/-- What an exchange with an honest peer starts from, and the uploader that starts alone. -/
structure Staged (peer : Peer) (options : Options) (task : Task) (origin : Inflow κ)
    (solo : Uploading FileRequester BoundedSink) (first : WholeFiles κ) : Prop where
  offers : peer.Offers task.files
  honest : peer.Honest options task.files origin
  distinct : ∀ {index other : Nat} {place : Location}, task.Places index place →
    task.Places other place → index = other
  spares : first.disk.Spares task.files
  strength : task.checksum = options.checksum
  idle : first.pending = none
  fresh : first.downloader.received = []
  known : FileRequester.Said BoundedSink.Holds { options with server := true } task [] solo
  shadows : FileRequester.Shadows (fun _ => False) (Told peer options origin [] none first.inflow)
    first.lendUpload solo

/-- A moment of an exchange, and the uploader alone after as many steps of its own. -/
structure Unfolds (peer : Peer) (options : Options) (task : Task) (origin : Inflow κ)
    (solo : Uploading FileRequester BoundedSink) (first now : WholeFiles κ) (replies : List Reply)
    (draft : Option Reply) (bare : Uploading FileRequester BoundedSink) : Prop where
  ledger : Ledger task first now replies draft
  alone : ∃ steps, FileRequester.Alone task solo steps bare
  shadows : FileRequester.Shadows (Laid task now) (Told peer options origin replies draft now.inflow)
    now.lendUpload bare

namespace Unfolds

theorem start (staged : Staged peer options task origin solo first) :
    Unfolds peer options task origin solo first first [] none solo where
  ledger := .start staged.idle
  alone := ⟨0, .start⟩
  shadows := by
    have nothing : Laid task first = fun _ => False := by
      funext place
      simp [Laid, staged.fresh, staged.idle]
    exact nothing ▸ staged.shadows

theorem rested (unfolds : Unfolds peer options task origin solo first now replies draft bare)
    (attends : Attends task now after) (rests : Rests now after) :
    Unfolds peer options task origin solo first after replies draft bare where
  ledger := unfolds.ledger.attended attends
  alone := unfolds.alone
  shadows := by
    obtain ⟨uploader, cursor, marks, overlays, umask, said, told, holds⟩ := unfolds.shadows
    have laid : Laid task after = Laid task now := by
      unfold Laid
      rw [rests.pending, rests.downloader]
    refine ⟨rests.uploader.trans uploader, rests.cursor.trans cursor, rests.marks.trans marks,
      ?_, ?_, said, rests.converses told, holds⟩
    · rw [laid]
      change after.disk.tree.Overlays _ _
      rw [rests.disk]
      exact overlays
    · exact (congrArg Disk.umask rests.disk).trans umask

/-- What the uploader alone has said by then. -/
theorem said (staged : Staged peer options task origin solo first)
    (unfolds : Unfolds peer options task origin solo first now replies draft bare) :
    ∃ requests,
      FileRequester.Said BoundedSink.Holds { options with server := true } task requests bare := by
  obtain ⟨steps, alone⟩ := unfolds.alone
  exact alone.said staged.strength staged.known

section Answered

variable {requests : List Nat}

theorem bytes_greeting (options : Options) (requests : List Nat) (marks : Nat) :
    bytes (greeting options) ++ bytes (word { options with server := true } requests marks) =
      bytes (word options requests marks) := by
  simp [word, greeting, ← bytes_append]

/-- What was read by now is the front of what the peer sends for the requests made by now. -/
theorem front (staged : Staged peer options task origin solo first)
    (unfolds : Unfolds peer options task origin solo first now replies draft bare)
    (known : FileRequester.Said BoundedSink.Holds { options with server := true } task requests bare) :
    ∃ rest, bytesOf replies draft ++ rest = (peer.replies requests).flatMap Reply.bytes ++
      peer.closing (if bare.cursor.exhausted then 1 else 0) := by
  obtain ⟨said, told, holds⟩ := unfolds.shadows.said
  have whole : bytes (greeting options) ++ said =
      bytes (word options requests (if bare.cursor.exhausted then 1 else 0)) := by
    rw [← holds.written, known.sent.written, bytes_greeting]
  have few : (if bare.cursor.exhausted then 1 else 0) ≤ 3 := by
    split <;> omega
  obtain ⟨rest, front⟩ := staged.honest told known.requests few whole
  rw [Peer.stream, List.append_assoc] at front
  exact ⟨rest, List.append_cancel_left front⟩

theorem answered (staged : Staged peer options task origin solo first)
    (unfolds : Unfolds peer options task origin solo first now replies draft bare)
    (known : FileRequester.Said BoundedSink.Holds { options with server := true } task requests bare) :
    ∃ more, peer.replies requests = replies ++ more := by
  obtain ⟨rest, whole⟩ := unfolds.front staged known
  rw [bytesOf, List.append_assoc] at whole
  obtain ⟨more, same, -⟩ := Reply.leads_of_bytes unfolds.ledger.formed
    (staged.offers.replies_formed known.requests) (peer.closing_closes _) whole
  exact ⟨more, same⟩

/-- Only files that were asked for are received. -/
theorem received_requested (staged : Staged peer options task origin solo first)
    (unfolds : Unfolds peer options task origin solo first now replies draft bare)
    (known : FileRequester.Said BoundedSink.Holds { options with server := true } task requests bare)
    {index : Nat} (received : index ∈ now.downloader.received) : index ∈ requests := by
  obtain ⟨more, same⟩ := unfolds.answered staged known
  rw [unfolds.ledger.received, staged.fresh, List.nil_append] at received
  rw [← staged.offers.replies_index known.requests, same, List.map_append]
  exact List.mem_append_left _ received

end Answered

/-- Where a file is arriving, no entry is to go and the uploader alone finds nothing. -/
theorem temporary (staged : Staged peer options task origin solo first)
    (unfolds : Unfolds peer options task origin solo first now replies draft bare)
    (sound : Sound task now) {arriving : ArrivingFile} (held : now.pending = some arriving) :
    (∀ index, ¬ task.Places index arriving.temporary.file) ∧
      bare.host.disk.tree.sight arriving.temporary.file = none := by
  obtain ⟨root, entry, belongs⟩ := sound arriving held
  have drafts := unfolds.ledger.books.drafts
  rw [held] at drafts
  cases drafts with
  | begun _ _ _ unseen early _ named =>
      have apart (index : Nat) : ¬ task.Places index arriving.temporary.file := by
        intro places
        obtain ⟨root', other, opened, listed, placed⟩ := places
        rw [belongs.opened] at opened
        cases opened
        exact staged.spares early (List.mem_of_getElem? belongs.listed) belongs.kind
          belongs.seats.seatBeneath other (List.mem_of_getElem? listed) (named ▸ placed)
      obtain ⟨steps, alone⟩ := unfolds.alone
      refine ⟨apart, ?_⟩
      rw [alone.sight apart, ← staged.shadows.overlays.elsewhere _ id]
      exact Tree.sight_eq_none.mpr unseen

section Uploaded

theorem advanceUploader_lends (now : WholeFiles κ) :
    Meets (advanceUploader task) now
      (fun _ after => FileRequester.advance task now.lendUpload = .ok () after.lendUpload ∧
        after.inflow = { now.inflow with
          source := after.inflow.source
          journal := after.inflow.journal } ∧
        after.pending = now.pending ∧ after.downloader = now.downloader)
      (fun _ _ => True) := by
  refine advanceUploader_lent ((Meets.ran _).mono ?_ ?_) (fun _ _ => id) fun _ _ _ => id
  · exact fun _ _ ran => ⟨ran, rfl, rfl, rfl⟩
  · exact fun _ _ _ => trivial

/-- With nothing left to offer, a step of the uploader does nothing. -/
theorem advance_exhausted {lent : Uploading FileRequester κ} (ended : lent.cursor.exhausted = true) :
    FileRequester.advance task lent = .ok () { lent with secondary := none } := by
  have last : lent.cursor.position? = none := Cursor.position?_eq_none.mpr ended
  unfold FileRequester.advance
  refine (bind_ok rfl).trans ((bind_ok rfl).trans ?_)
  dsimp only
  rw [last]
  rfl

/-- No file stands in the place of the entry that comes next. -/
theorem next_clear (staged : Staged peer options task origin solo first)
    (unfolds : Unfolds peer options task origin solo first now replies draft bare)
    (sound : Sound task now) {index : Nat} {place : Location}
    (position : now.cursor.position? = some (.entry index)) (places : task.Places index place) :
    ¬ Laid task now place := by
  intro laid
  rcases laid with arrived | arriving
  · obtain ⟨other, received, there⟩ := arrived
    obtain ⟨requests, known⟩ := unfolds.said staged
    have passed := known.passed other (unfolds.received_requested staged known received)
    have next := (Cursor.next_entry position).1
    have same : now.cursor = bare.cursor := unfolds.shadows.cursor
    rw [staged.distinct there places, ← same, next] at passed
    exact Nat.lt_irrefl _ passed
  · obtain ⟨arriving, held, rfl⟩ := Option.map_eq_some_iff.mp arriving
    exact (unfolds.temporary staged sound held).1 index places

/-- A step of the uploader is a step of the uploader alone, or none. -/
theorem stepped (staged : Staged peer options task origin solo first)
    (unfolds : Unfolds peer options task origin solo first now replies draft bare)
    (sound : Sound task now) {lent : Uploading FileRequester κ}
    (ran : FileRequester.advance task now.lendUpload = .ok () lent) :
    ∃ bare, (∃ steps, FileRequester.Alone task solo steps bare) ∧
      FileRequester.Shadows (Laid task now) (Told peer options origin replies draft now.inflow)
        lent bare := by
  obtain ⟨steps, alone⟩ := unfolds.alone
  cases ended : now.lendUpload.cursor.exhausted with
  | true =>
      rw [advance_exhausted ended] at ran
      cases ran
      exact ⟨bare, ⟨steps, alone⟩, { unfolds.shadows with }⟩
  | false =>
      obtain ⟨bareAfter, bareRan, shadows⟩ := FileRequester.advance_shadows
        (Told.adds peer options origin replies draft now.inflow) unfolds.shadows
        (fun _ entry root _ position listed opened placed =>
          unfolds.next_clear staged sound position ⟨root, entry, opened, listed, placed⟩) _ _ ran
      rw [unfolds.shadows.cursor] at ended
      exact ⟨bareAfter, ⟨steps + 1, alone.step ended bareRan⟩, shadows⟩

theorem uploaded (staged : Staged peer options task origin solo first)
    (unfolds : Unfolds peer options task origin solo first now replies draft bare)
    (sound : Sound task now) (done : advanceUploader task now = .ok () after) :
    ∃ bare, Unfolds peer options task origin solo first after replies draft bare := by
  obtain ⟨ran, inflow, pending, downloader⟩ := (advanceUploader_lends now).of_ok done
  obtain ⟨bareAfter, alone, shadows⟩ := unfolds.stepped staged sound ran
  obtain ⟨said, told, holds⟩ := shadows.said
  have laid : Laid task after = Laid task now := by
    unfold Laid
    rw [pending, downloader]
  refine ⟨bareAfter, unfolds.ledger.attended (.uploaded done), alone, ?_⟩
  refine { shadows with overlays := laid ▸ shadows.overlays, said := ⟨said, ?_, holds⟩ }
  have reported : origin.Converses (peer.list ++ bytesOf replies draft)
      (bytes (greeting options) ++ said)
      { now.inflow with source := after.inflow.source, journal := after.inflow.journal } :=
    .reported told after.inflow.journal
  exact inflow ▸ reported

end Uploaded

section Downloaded

omit [Connection κ] in
theorem began_overlays {arriving : ArrivingFile} {draws : Nat} {permissions : UInt32} {bare : Tree}
    (overlays : now.disk.tree.Overlays (Laid task now) bare) (idle : now.pending = none)
    (pending : after.pending = some arriving) (downloader : after.downloader = now.downloader)
    (free : now.disk.tree.get? arriving.temporary.file = none)
    (disk : after.disk =
      (now.disk.drawnTo draws).perform (.madeFile arriving.temporary.file permissions)) :
    after.disk.tree.Overlays (Laid task after) bare := by
  have laid (place : Location) :
      Laid task after place ↔ Laid task now place ∨ arriving.temporary.file = place := by
    simp [Laid, downloader, pending, idle]
  have elsewhere (place : Location) (apart : place ≠ arriving.temporary.file) :
      after.disk.tree.sight place = now.disk.tree.sight place := by
    rw [disk]
    exact Change.sight_apply_of_not_altered (by simpa [Change.altered] using apart)
  refine overlays.relaid (fun place there => ?_) fun place outside => ?_
  · rcases (laid place).mp there with earlier | same
    · refine .inl ⟨earlier, elsewhere place fun same => ?_⟩
      exact overlays.not_laid_of_free (same ▸ free) earlier
    · subst same
      refine .inr ⟨?_, Tree.not_hasDirectory_of_free (overlays.guides.missing _ free)⟩
      rw [disk]
      exact ⟨_, [], Change.get?_madeFile _ _⟩
  · obtain ⟨outside, apart⟩ := not_or.mp (mt (laid place).mpr outside)
    exact .inl ⟨outside, elsewhere place (Ne.symm apart)⟩

omit [Connection κ] in
theorem grew_overlays {arriving : ArrivingFile} {content : Bytes} {written : Nat} {bare : Tree}
    (overlays : now.disk.tree.Overlays (Laid task now) bare) (held : now.pending = some arriving)
    (pending : after.pending = some { arriving with written })
    (downloader : after.downloader = now.downloader)
    (disk : after.disk = now.disk.perform (.wroteFile arriving.temporary.file content)) :
    after.disk.tree.Overlays (Laid task after) bare := by
  have laid : Laid task after = Laid task now := by
    unfold Laid
    rw [downloader, pending, held]
    rfl
  have works : (Change.wroteFile arriving.temporary.file content).WorksOn arriving.temporary.file :=
    .wrote content
  have here : Laid task now arriving.temporary.file := .inr (by rw [held]; rfl)
  have elsewhere (place : Location) (apart : place ≠ arriving.temporary.file) :
      after.disk.tree.sight place = now.disk.tree.sight place := by
    rw [disk]
    exact works.sight apart
  rw [laid]
  refine overlays.relaid (fun place there => ?_) fun place outside => ?_
  · by_cases same : place = arriving.temporary.file
    · refine .inr ⟨?_, overlays.under place there⟩
      rw [disk, same]
      exact works.hasFile (overlays.file _ here)
    · exact .inl ⟨there, elsewhere place same⟩
  · exact .inl ⟨outside, elsewhere place fun same => outside (same ▸ here)⟩

omit [Connection κ] in
theorem committed_overlays {arriving : ArrivingFile} {entry : ListEntry} {root : Location}
    {bare : Tree} (overlays : now.disk.tree.Overlays (Laid task now) bare)
    (belongs : arriving.Belongs task now.disk.tree root entry)
    (named : arriving.name.Plain) (held : now.pending = some arriving)
    (pending : after.pending = none)
    (downloader : after.downloader = now.downloader.withReceived arriving entry)
    (clear : ∀ index, ¬ task.Places index arriving.temporary.file)
    (bared : bare.sight arriving.temporary.file = none)
    (free : arriving.name :: arriving.temporary.directory = arriving.temporary.file ∨
      ¬ (now.disk.performAll (now.downloader.finishing entry task.umask
        arriving.temporary.file)).tree.HasDirectory (arriving.name :: arriving.temporary.directory))
    (disk : after.disk = (now.disk.performAll (now.downloader.finishing entry task.umask
      arriving.temporary.file)).perform
        (.renamed arriving.temporary.file (arriving.name :: arriving.temporary.directory))) :
    after.disk.tree.Overlays (Laid task after) bare := by
  generalize whither : arriving.name :: arriving.temporary.directory = target at free disk
  have placed : task.Places arriving.index target :=
    ⟨root, entry, belongs.opened, belongs.listed, whither ▸ belongs.seats.place named.notSelf⟩
  have apart : target ≠ arriving.temporary.file := fun same => clear _ (same ▸ placed)
  have laid (place : Location) : Laid task after place ↔
      (∃ index ∈ now.downloader.received, task.Places index place) ∨
        task.Places arriving.index place := by
    simp [Laid, downloader, pending, withReceived, or_and_right, exists_or]
  have only {place : Location} (there : task.Places arriving.index place) : place = target := by
    obtain ⟨root', entry', opened, listed, placed'⟩ := there
    rw [belongs.opened] at opened
    cases opened
    rw [belongs.listed] at listed
    cases listed
    rw [← whither]
    exact Option.some.inj (placed'.symm.trans (belongs.seats.place named.notSelf))
  obtain ⟨attributes, content, found⟩ := belongs.stands.file
  obtain ⟨mtime, -, seen⟩ :=
    Task.Books.sight_committed now.downloader entry task.umask target found
  rw [← disk] at seen
  have elsewhere (place : Location) (other : place ≠ target)
      (apart : place ≠ arriving.temporary.file) :
      after.disk.tree.sight place = now.disk.tree.sight place := by
    rw [seen, if_neg other, if_neg apart]
  have uncovered : ¬ bare.HasDirectory target := by
    by_cases there : Laid task now target
    · exact overlays.under target there
    · intro stands
      refine free.elim (fun same => apart same) fun free => free (stands.of_sight ?_)
      rw [Disk.sight_performAll (finishing_works _ _ _ _) apart, overlays.elsewhere target there]
  refine overlays.relaid (fun place there => ?_) fun place outside => ?_
  · by_cases same : place = target
    · subst same
      exact .inr ⟨⟨_, _, Tree.sight_eq_file.mp ((seen place).trans (if_pos rfl))⟩, uncovered⟩
    · rcases (laid place).mp there with arrived | last
      · refine .inl ⟨.inl arrived, elsewhere place same fun here => ?_⟩
        obtain ⟨index, -, places⟩ := arrived
        exact clear index (here ▸ places)
      · exact absurd (only last) same
  · obtain ⟨unarrived, other⟩ := not_or.mp (mt (laid place).mpr outside)
    have different : place ≠ target := fun same => other (same ▸ placed)
    by_cases here : place = arriving.temporary.file
    · refine .inr ?_
      rw [seen, if_neg different, if_pos here, here, bared]
    · refine .inl ⟨fun there => ?_, elsewhere place different here⟩
      rcases there with arrived | arriving
      · exact unarrived arrived
      · rw [held] at arriving
        exact here (Option.some.inj arriving).symm

/-- What the downloader takes up stands where the uploader alone has no directory. -/
theorem collected_overlays (staged : Staged peer options task origin solo first)
    (unfolds : Unfolds peer options task origin solo first now replies draft bare)
    (sound : Sound task now)
    (collects : Collects task now.lendDownload after.lendDownload .ongoing) :
    after.disk.tree.Overlays (Laid task after) bare.host.disk.tree := by
  have overlays : now.disk.tree.Overlays (Laid task now) bare.host.disk.tree :=
    unfolds.shadows.overlays
  cases collects with
  | began idle pending downloader _ _ _ _ fresh _ disk =>
      obtain ⟨_, _, _, free⟩ := fresh
      exact began_overlays overlays idle pending downloader free disk
  | grew held pending downloader disk =>
      exact grew_overlays overlays held pending downloader disk
  | committed held pending listed downloader _ plain free disk =>
      obtain ⟨root, entry, belongs⟩ := sound _ held
      obtain rfl := Option.some.inj (belongs.listed.symm.trans listed)
      obtain ⟨clear, bared⟩ := unfolds.temporary staged sound held
      exact committed_overlays overlays belongs plain held pending downloader clear bared free disk

theorem advanceDownloader_apart :
    Keeps (fun before after : WholeFiles κ => after.uploader = before.uploader ∧
      after.cursor = before.cursor ∧ after.newDirectories = before.newDirectories)
      (advanceDownloader task) := by
  intro before
  refine advanceDownloader_lent (Meets.intro ?_ ?_) (fun _ _ _ => id) fun _ _ _ => id
  · exact fun _ _ _ => ⟨⟨rfl, rfl, rfl⟩, trivial⟩
  · exact fun _ _ _ => ⟨rfl, rfl, rfl⟩

theorem downloaded (staged : Staged peer options task origin solo first)
    (unfolds : Unfolds peer options task origin solo first now replies draft bare)
    (evolves : Disk.Evolves task.Confines first.disk now.disk) (sound : Sound task now)
    (done : advanceDownloader task now = .ok .ongoing after) :
    ∃ replies draft, Unfolds peer options task origin solo first after replies draft bare := by
  obtain ⟨replies', draft', more, ledger, took, whole⟩ :=
    unfolds.ledger.downloaded evolves sound done
  have collects := (advanceDownloader_meets sound).of_ok done
  obtain ⟨⟨uploader, cursor, marks⟩, -⟩ := (advanceDownloader_apart now).of_ok done
  obtain ⟨uploader', cursor', marks', -, umask, said, told, holds⟩ := unfolds.shadows
  refine ⟨replies', draft', ledger, unfolds.alone, ?_⟩
  refine ⟨uploader.trans uploader', cursor.trans cursor', marks.trans marks',
    unfolds.collected_overlays staged sound collects, ?_, said, ?_, holds⟩
  · exact (evolves_of_collects sound collects).1.umask.trans umask
  · have earlier : origin.Converses (peer.list ++ bytesOf replies draft)
        (bytes (greeting options) ++ said) now.inflow := told
    have later := earlier.takes took
    rw [List.append_assoc, whole] at later
    exact later

end Downloaded

end Unfolds

/-- Every moment of the exchange is one of the uploader alone, with files laid over the tree. -/
theorem Advances.unfolds (staged : Staged peer options task origin solo first)
    (advanced : Advances task first now) :
    ∃ replies draft bare, Unfolds peer options task origin solo first now replies draft bare := by
  induction advanced with
  | start => exact ⟨[], none, solo, .start staged⟩
  | @attended now after earlier attends ih =>
      obtain ⟨replies, draft, bare, unfolds⟩ := ih
      cases attends with
      | waited done =>
          exact ⟨replies, draft, bare, unfolds.rested (.waited done) ((wait_rests now).of_ok done)⟩
      | flushed done =>
          exact ⟨replies, draft, bare,
            unfolds.rested (.flushed done) ((contentWaits_rests now).of_ok done)⟩
      | uploaded done =>
          obtain ⟨_, sound⟩ := earlier.visits.evolves staged.idle
          obtain ⟨bare, unfolds⟩ := unfolds.uploaded staged sound done
          exact ⟨replies, draft, bare, unfolds⟩
  | downloaded earlier done ih =>
      obtain ⟨replies, draft, bare, unfolds⟩ := ih
      obtain ⟨evolves, sound⟩ := earlier.visits.evolves staged.idle
      obtain ⟨replies, draft, unfolds⟩ := unfolds.downloaded staged evolves sound done
      exact ⟨replies, draft, bare, unfolds⟩

end Exchange

end TreeSync

import Mathlib.Data.List.Induction
import TreeSync.Proofs.Disk.Placing
import TreeSync.Proofs.Disk.Showing
import TreeSync.Proofs.Following
import TreeSync.Proofs.Message.Ahead
import TreeSync.Proofs.Transfer.Progress
import TreeSync.Proofs.Transfer.Replies

namespace TreeSync

/-! Receiving one file, whatever pieces it comes in.

Each step takes the head of a reply, one of its pieces or its end, and nothing of what comes
after. So how the content is cut tells in the number of steps only: the file that is put in its
place holds the content, and where the content is not whole nothing is put there.
-/

open TreeSync.Action

theorem Disk.reach_sound {disk : Disk} {root parent : Location} {path : Path} {name : Name}
    (passable : path.Passable) (placed : path.placeBeneath root = some (name :: parent))
    (leads : disk.tree.Leads root parent) :
    name.Sound ∧ reach root path disk = .ok (parent, name) disk := by
  obtain ⟨names, down, sound⟩ := passable
  have place := Option.some.inj ((Path.placeBeneath_of_descent root down).symm.trans placed)
  rcases names.eq_nil_or_concat with rfl | ⟨above, last, spelled⟩
  · -- the root itself is no entry of a directory beneath it
    have inside := leads.suffix.length_le
    have length := congrArg List.length place
    simp only [List.reverse_nil, List.nil_append, List.length_cons] at length
    omega
  · rw [List.concat_eq_append] at spelled
    subst spelled
    rw [List.reverse_append, List.reverse_singleton, List.singleton_append,
      List.cons_append] at place
    obtain ⟨rfl, rfl⟩ := List.cons.inj place
    have opened := parentBeneath_sound down
      (fun name listed => sound name (List.mem_append_left _ listed)) leads
    refine ⟨sound last (List.mem_append_right _ List.mem_cons_self), ?_⟩
    unfold reach explaining
    rw [opened]

/-- An entry whose file can be put in its place beneath the root. -/
structure Task.Admits (task : Task) (disk : Disk) (index : Nat) (entry : ListEntry)
    (root parent : Location) (name : Name) : Prop where
  opened : task.root = some root
  listed : task.files[index]? = some entry
  regular : entry.isRegular = true
  passable : entry.path.Passable
  placed : entry.path.placeBeneath root = some (name :: parent)
  leads : disk.tree.Leads root parent
  vacant : ¬ disk.tree.HasDirectory (name :: parent)
  available : Temporary.Available disk parent name Temporary.maxAttempts
  unhindered : disk.Unhindered

/-- What may be wrong with the int that comes after the pieces of a reply. -/
inductive Reply.Spoils (reply : Reply) (entry : ListEntry) : Int32 → Fault → Prop
  | size (other : reply.content.length ≠ entry.size.toNat) :
      Spoils reply entry 0 (.wrongSize entry.path reply.content.length entry.size.toNat)
  | reference {token : Int32} (negative : token.toInt < 0) :
      Spoils reply entry token (.blockReference token.toInt)
  | long {token : Int32} (long : FileCollector.maxPiece < token.toInt.toNat) :
      Spoils reply entry token (.literalTooLong token.toInt)

namespace FileCollector

open Framing

variable {σ α β : Type} [ByteSource σ] {tail bytes more : Bytes}
  {now : Downloading FileCollector ArrivingFile σ}
  {done : α → Downloading FileCollector ArrivingFile σ → Prop}
  {failed : Fault → Downloading FileCollector ArrivingFile σ → Prop}

/-- What is decoded is known, and so is what is to come then. -/
theorem receive_next {step : EStateM Fault (Inflow σ) β} {value : β} {rest : β → Step σ α}
    (decodes : Decodes (Inflow.Ahead tail) step value bytes)
    (ahead : now.inflow.Ahead tail (bytes ++ more))
    (next : ∀ inflow : Inflow σ, inflow.Ahead tail more →
      Meets (rest value) { now with inflow } done failed) :
    Meets (Downloading.receive step >>= rest) now done failed := by
  obtain ⟨inflow, ran, there⟩ := decodes now.inflow more ahead
  refine Meets.withinThen (Meets.ran step) (fun fault after failed => ?_) fun got after ran' => ?_
  · cases ran.symm.trans failed
  · cases ran.symm.trans ran'
    exact next _ there

theorem receiveInt_next {value : Int32} {rest : Int32 → Step σ α}
    (ahead : now.inflow.Ahead tail (Wire.intBytes value ++ more))
    (next : ∀ inflow : Inflow σ, inflow.Ahead tail more →
      Meets (rest value) { now with inflow } done failed) :
    Meets (Downloading.receive Wire.readInt >>= rest) now done failed :=
  receive_next (Decodes.readInt (Inflow.Ahead.supplies tail).feeds value) ahead next

omit [ByteSource σ] in
theorem onDisk_next {step : EStateM Fault Disk β} {value : β} {disk : Disk} {rest : β → Step σ α}
    (ran : step now.disk = .ok value disk)
    (next : Meets (rest value) { now with disk } done failed) :
    Meets (Downloading.onDisk step >>= rest) now done failed := by
  refine Downloading.onDisk_then (Meets.ran step) (fun fault after failed => ?_)
    fun got after ran' => ?_
  · cases ran.symm.trans failed
  · cases ran.symm.trans ran'
    exact next

theorem announced_listed {index : Nat} {files : List ListEntry} {entry : ListEntry}
    (small : index < 0x80000000) (listed : files[index]? = some entry)
    (regular : entry.isRegular = true) :
    announced (Int32.ofNat index).toInt files = .ok (index, entry) := by
  unfold announced
  rw [Wire.toInt_ofNat small, if_neg (by omega), Int.toNat_natCast, listed]
  dsimp only
  rw [if_pos regular]

/-- While a file comes in, what came so far stands in a temporary file, and nothing else has
changed. -/
structure Fetching (first : Downloading FileCollector ArrivingFile σ) (parent : Location)
    (name : Name) (draft : Reply) (arriving : ArrivingFile)
    (now : Downloading FileCollector ArrivingFile σ) : Prop where
  pending : now.pending = some arriving
  downloader : now.downloader = first.downloader
  index : arriving.index = draft.index
  called : arriving.name = name
  directory : arriving.temporary.directory = parent
  named : ∃ random, arriving.temporary.Named (Temporary.nameFor name random)
  missing : first.disk.tree.get? arriving.temporary.file = none
  written : arriving.written = draft.content.length
  stands : ∃ attributes,
    now.disk.tree.get? arriving.temporary.file = some (.file attributes draft.content)
  elsewhere : ∀ place, place ≠ arriving.temporary.file →
    now.disk.tree.sight place = first.disk.tree.sight place
  unhindered : now.disk.Unhindered

/-- What is left when a reply was taken to its end. -/
structure Fetched (task : Task) (entry : ListEntry) (place : Location) (reply : Reply)
    (first after : Downloading FileCollector ArrivingFile σ) : Prop where
  pending : after.pending = none
  downloader : after.downloader =
    { first.downloader with
      received := first.downloader.received ++ [reply.index]
      bytes := first.downloader.bytes + entry.size.toNat }
  replaced : ∃ mtime, (first.downloader.preserveTimes = true → mtime = entry.mtime) ∧
    ∀ other, after.disk.tree.sight other =
      if other = place then
        some (.file ⟨first.downloader.permissionsFor entry task.umask, mtime⟩ reply.content)
      else first.disk.tree.sight other

/-- What is left of a file that was given up. -/
structure Abandoned (first after : Downloading FileCollector ArrivingFile σ) : Prop where
  pending : after.pending = none
  downloader : after.downloader = first.downloader
  untouched : ∀ place, after.disk.tree.sight place = first.disk.tree.sight place

variable {first : Downloading FileCollector ArrivingFile σ} {task : Task} {entry : ListEntry}
  {root parent : Location} {name : Name} {reply draft : Reply} {arriving : ArrivingFile}

/-- The head of a reply opens a temporary file for a content of which nothing has come yet. -/
theorem begin_fetches {inflow : Inflow σ}
    (admits : task.Admits first.disk reply.index entry root parent name)
    (small : reply.index < 0x80000000) (blank : reply.pieces = [])
    (ahead : inflow.Ahead tail (Wire.intBytes 0 ++ (Wire.intBytes reply.blockLength ++
      (Wire.intBytes reply.checksumWidth ++ (Wire.intBytes reply.remainder ++ more))))) :
    Meets (begin (Int32.ofNat reply.index).toInt task) { first with inflow }
      (fun arriving after =>
        Fetching first parent name reply arriving { after with pending := some arriving } ∧
          after.inflow.Ahead tail more)
      (fun _ _ => False) := by
  obtain ⟨sound, reached⟩ := Disk.reach_sound admits.passable admits.placed admits.leads
  have destination : task.destination = .ok root := by
    unfold Task.destination
    rw [admits.opened]
  unfold begin
  rw [announced_listed small admits.listed admits.regular, destination]
  refine receiveInt_next ahead fun inflow ahead => ?_
  refine receiveInt_next ahead fun inflow ahead => ?_
  refine receiveInt_next ahead fun inflow ahead => ?_
  refine receiveInt_next ahead fun inflow ahead => Meets.cond (fun no => absurd rfl no) fun _ => ?_
  refine onDisk_next reached (Downloading.onDisk_then
    (Temporary.create_sound sound admits.unhindered admits.available) (fun _ _ no => no.elim) ?_)
  rintro temporary _ ⟨turn, fresh, rfl⟩
  refine Meets.changeThen (Meets.pure ⟨?_, ahead.recording _⟩)
  have nothing : reply.content = [] := by simp [Reply.content, blank]
  exact {
    pending := rfl
    downloader := rfl
    index := rfl
    called := rfl
    directory := fresh.directory
    named := ⟨_, fresh.named⟩
    missing := fresh.free
    written := by rw [nothing]; rfl
    stands := ⟨_, by rw [nothing]; exact Change.get?_madeFile _ _⟩
    elsewhere := fun place apart =>
      Change.sight_apply_of_not_altered (by simpa [Change.altered] using apart)
    unhindered := admits.unhindered }

/-- The first step takes the head of a reply. -/
theorem advance_begins (admits : task.Admits first.disk reply.index entry root parent name)
    (small : reply.index < 0x80000000) (blank : reply.pieces = []) (idle : first.pending = none)
    (ahead : first.inflow.Ahead tail (reply.opening ++ more)) :
    Meets (advance task) first
      (fun outcome after => outcome = .ongoing ∧
        ∃ arriving, Fetching first parent name reply arriving after ∧ after.inflow.Ahead tail more)
      (fun _ _ => False) := by
  rw [Reply.opening, blank, List.flatMap_nil, List.append_nil, headBytes] at ahead
  simp only [List.append_assoc] at ahead
  refine Meets.get ?_
  rw [idle]
  change Meets (startNext task) first _ _
  rw [startNext_eq]
  refine receiveInt_next ahead fun inflow ahead => ?_
  refine Meets.cond (fun last => absurd last (Wire.ofNat_ne_doneIndex small)) fun _ => ?_
  refine (begin_fetches admits small blank ahead).bind ?_
  rintro arriving after ⟨fetching, ahead⟩
  exact Meets.changeThen (Meets.pure ⟨rfl, arriving, fetching, ahead⟩)

/-- A step on a file in progress that fails gives the file up. -/
theorem advance_held
    {outcomes : DownloadOutcome → Downloading FileCollector ArrivingFile σ → Prop}
    (held : now.pending = some arriving)
    (goes : Meets (goOn arriving task) { now with pending := none }
      (fun pending after => outcomes .ongoing { after with pending })
      (fun fault after => failed fault { after with disk := abandon arriving after.disk })) :
    Meets (advance task) now outcomes failed := by
  refine Meets.get ?_
  rw [held]
  refine Meets.changeThen (Meets.bind (Meets.onFailure goes) ?_)
  exact fun pending after met => Meets.changeThen (Meets.pure met)

namespace Fetching

variable {token : Int32} {fault : Fault}

theorem addPiece {piece : Bytes} {inflow : Inflow σ}
    (fetching : Fetching first parent name draft arriving now)
    (ahead : inflow.Ahead tail (piece ++ more)) :
    Meets (addPiece arriving piece.length) { now with pending := none, inflow }
      (fun longer after =>
        Fetching first parent name (draft.longer piece) longer
            { after with pending := some longer } ∧
          after.inflow.Ahead tail more)
      (fun _ _ => False) := by
  refine receive_next ((Inflow.Ahead.supplies tail).readUpTo piece) ahead fun inflow ahead => ?_
  refine onDisk_next (Disk.appendFile_ok (fetching.unhindered _ _)) ?_
  refine Meets.cond (fun short => absurd rfl short) fun _ => ?_
  refine Meets.changeThen (Meets.pure ⟨?_, ahead.recording _⟩)
  obtain ⟨attributes, stands⟩ := fetching.stands
  have grown : (now.disk.perform (.wroteFile arriving.temporary.file piece)).tree.get?
      arriving.temporary.file =
        some (.file ⟨attributes.permissions, now.disk.clock⟩ (draft.longer piece).content) := by
    rw [Disk.perform, Change.apply, Tree.get?_update, if_pos rfl, stands, Reply.content_longer]
    rfl
  exact { fetching with
    pending := rfl
    written := by
      rw [Reply.content_longer, List.length_append]
      exact congrArg (· + piece.length) fetching.written
    stands := ⟨_, grown⟩
    elsewhere := fun place apart =>
      ((Change.WorksOn.wrote piece).sight apart).trans (fetching.elsewhere place apart)
    unhindered := fetching.unhindered }

/-- A piece of the content goes to the temporary file. -/
theorem grows {piece : Bytes} (fetching : Fetching first parent name draft arriving now)
    (nonempty : piece ≠ []) (fits : piece.length ≤ maxPiece)
    (ahead : now.inflow.Ahead tail (pieceBytes piece ++ more)) :
    Meets (advance task) now
      (fun outcome after => outcome = .ongoing ∧
        ∃ arriving, Fetching first parent name (draft.longer piece) arriving after ∧
          after.inflow.Ahead tail more)
      (fun _ _ => False) := by
  have small := Reply.small_of_fits fits
  have long : piece.length ≠ 0 := fun nothing => nonempty (List.eq_nil_of_length_eq_zero nothing)
  rw [pieceBytes, List.append_assoc] at ahead
  refine advance_held fetching.pending ?_
  rw [goOn_eq]
  refine receiveInt_next ahead fun inflow ahead => ?_
  unfold takeToken
  dsimp only
  rw [Wire.toInt_ofNat small, if_neg (by omega), if_neg (by omega), Int.toNat_natCast,
    if_neg (Nat.not_lt.mpr fits)]
  exact (fetching.addPiece ahead).bind fun longer after met => Meets.pure ⟨rfl, longer, met⟩

omit [ByteSource σ] in
/-- A file that came in whole can be finished and moved to its place. -/
theorem finishes (fetching : Fetching first parent name draft arriving now)
    (admits : task.Admits first.disk draft.index entry root parent name) :
    Meets (do
        let file := arriving.temporary.file
        Disk.setPermissions file (now.downloader.permissionsFor entry task.umask)
        if now.downloader.preserveTimes then Disk.setTime file entry.mtime
        arriving.temporary.persist ⟨arriving.name⟩) now.disk
      (fun _ after => after = (now.disk.performAll (now.downloader.finishing entry task.umask
        arriving.temporary.file)).perform (.renamed arriving.temporary.file (name :: parent)))
      (fun _ _ => False) := by
  obtain ⟨sound, -⟩ := Disk.reach_sound admits.passable admits.placed admits.leads
  obtain ⟨random, named⟩ := fetching.named
  obtain ⟨attributes, stands⟩ := fetching.stands
  obtain ⟨mtime, ready, -⟩ :=
    Task.Books.get?_finishing now.downloader entry task.umask stands
  have works := finishing_works now.downloader entry task.umask arriving.temporary.file
  have vacant : ¬ (now.disk.performAll (now.downloader.finishing entry task.umask
      arriving.temporary.file)).tree.HasDirectory (name :: parent) := by
    intro directory
    by_cases here : name :: parent = arriving.temporary.file
    · rw [here] at directory
      exact Tree.HasFile.not_hasDirectory ⟨_, _, ready⟩ directory
    · refine admits.vacant (directory.of_sight ?_)
      rw [Disk.sight_performAll works here, fetching.elsewhere _ here]
  have moved := Temporary.persist_sound (Temporary.sound_nameFor sound random) named sound
    ready (fetching.directory ▸ vacant)
  rw [fetching.directory] at moved
  have persisted : Meets (arriving.temporary.persist ⟨name⟩) (now.disk.performAll
      (now.downloader.finishing entry task.umask arriving.temporary.file))
      (fun _ after => after = (now.disk.performAll (now.downloader.finishing entry task.umask
        arriving.temporary.file)).perform (.renamed arriving.temporary.file (name :: parent)))
      (fun _ _ => False) := by
    unfold Meets
    rw [moved]
  rw [fetching.called]
  refine Meets.congr (bind_ok (Disk.setPermissions_ok (fetching.unhindered _ _))) ?_
  unfold finishing at persisted ⊢
  split
  · next times =>
    rw [if_pos times] at persisted
    exact Meets.congr (bind_ok (Disk.setTime_ok (fetching.unhindered _ _))) persisted
  · next times =>
    rw [if_neg times] at persisted
    exact persisted

omit [ByteSource σ] in
/-- Then its place shows the content, and every other place what it showed at first. -/
theorem replaces (fetching : Fetching first parent name draft arriving now) (entry : ListEntry)
    (umask : UInt32) :
    ∃ mtime, (first.downloader.preserveTimes = true → mtime = entry.mtime) ∧ ∀ other,
      ((now.disk.performAll (now.downloader.finishing entry umask
        arriving.temporary.file)).perform
          (.renamed arriving.temporary.file (name :: parent))).tree.sight other =
        if other = name :: parent then
          some (.file ⟨first.downloader.permissionsFor entry umask, mtime⟩ draft.content)
        else first.disk.tree.sight other := by
  obtain ⟨attributes, stands⟩ := fetching.stands
  obtain ⟨mtime, time, seen⟩ :=
    Task.Books.sight_committed now.downloader entry umask (name :: parent) stands
  rw [fetching.downloader] at time seen ⊢
  refine ⟨mtime, time, fun other => (seen other).trans ?_⟩
  by_cases there : other = name :: parent
  · rw [if_pos there, if_pos there]
  rw [if_neg there, if_neg there]
  split
  · next here => rw [here, Tree.sight_eq_none.mpr fetching.missing]
  · next apart => exact fetching.elsewhere other apart

theorem commits {inflow : Inflow σ} (fetching : Fetching first parent name draft arriving now)
    (admits : task.Admits first.disk draft.index entry root parent name)
    (whole : draft.content.length = entry.size.toNat) (ahead : inflow.Ahead tail more) :
    Meets (commit arriving entry task.umask) { now with pending := none, inflow }
      (fun _ after =>
        Fetched task entry (name :: parent) draft first { after with pending := none } ∧
          after.inflow.Ahead tail more)
      (fun _ _ => False) := by
  have size : arriving.written = entry.size.toNat := fetching.written.trans whole
  refine Meets.cond (fun short => absurd size short) fun _ => Meets.get ?_
  refine Downloading.onDisk_then (fetching.finishes admits) (fun _ _ no => no.elim) ?_
  rintro _ _ rfl
  refine Meets.changeThen (Meets.change ⟨?_, ahead.recording _⟩)
  exact {
    pending := rfl
    downloader := by simp only [fetching.index, fetching.downloader]
    replaced := fetching.replaces entry task.umask }

/-- A temporary file that holds all the content is moved to its place. -/
theorem ends (fetching : Fetching first parent name draft arriving now)
    (admits : task.Admits first.disk draft.index entry root parent name)
    (whole : draft.content.length = entry.size.toNat)
    (ahead : now.inflow.Ahead tail (Wire.intBytes 0 ++ more)) :
    Meets (advance task) now
      (fun outcome after => outcome = .ongoing ∧
        Fetched task entry (name :: parent) draft first after ∧ after.inflow.Ahead tail more)
      (fun _ _ => False) := by
  refine advance_held fetching.pending ?_
  rw [goOn_eq]
  refine receiveInt_next ahead fun inflow ahead => ?_
  unfold takeToken
  refine Meets.cond (fun _ => ?_) fun other => absurd rfl other
  rw [fetching.index, admits.listed]
  exact (fetching.commits admits whole ahead).bind fun _ after met => Meets.pure ⟨rfl, met⟩

omit [ByteSource σ] in
/-- The temporary place is as it was once the file is given up. -/
theorem abandon (fetching : Fetching first parent name draft arriving now) (inflow : Inflow σ) :
    Abandoned first
      { now with pending := none, inflow, disk := FileCollector.abandon arriving now.disk } := by
  obtain ⟨random, named⟩ := fetching.named
  obtain ⟨attributes, stands⟩ := fetching.stands
  refine ⟨rfl, fetching.downloader, fun place => ?_⟩
  have removed : FileCollector.abandon arriving now.disk = _ :=
    Temporary.discard_standing named stands
  have seen : (now.disk.perform (.removedFile arriving.temporary.file)).tree.sight place = _ :=
    Change.sight_removedFile
  dsimp only
  rw [removed, seen]
  split
  · next here => rw [here, Tree.sight_eq_none.mpr fetching.missing]
  · next apart => exact fetching.elsewhere place apart

/-- What is wrong with the end of a reply fails the step that takes it. -/
theorem spoils (fetching : Fetching first parent name draft arriving now)
    (listed : task.files[draft.index]? = some entry) (spoils : draft.Spoils entry token fault)
    (ahead : now.inflow.Ahead tail (Wire.intBytes token ++ more)) :
    Meets (advance task) now (fun _ _ => False)
      (fun cause after => cause = fault ∧ Abandoned first after) := by
  refine advance_held fetching.pending ?_
  rw [goOn_eq]
  refine receiveInt_next ahead fun inflow ahead => ?_
  unfold takeToken
  cases spoils with
  | size other =>
      have short : arriving.written ≠ entry.size.toNat := fetching.written ▸ other
      have refused : Meets (commit arriving entry task.umask)
          { now with pending := none, inflow } (fun _ _ => False)
          (fun cause after =>
            cause = .wrongSize entry.path draft.content.length entry.size.toNat ∧
              Abandoned first { after with disk := FileCollector.abandon arriving after.disk }) := by
        rw [← fetching.written]
        refine Meets.cond (fun _ => Meets.throw ?_) fun whole => absurd short whole
        exact ⟨rfl, fetching.abandon inflow⟩
      refine Meets.cond (fun _ => ?_) fun other => absurd rfl other
      rw [fetching.index, listed]
      exact refused.bind fun _ _ no => no.elim
  | reference negative =>
      dsimp only
      rw [if_neg (by omega), if_pos negative]
      exact Meets.throw ⟨rfl, fetching.abandon inflow⟩
  | long long =>
      dsimp only
      rw [if_neg (by omega), if_neg (by omega), if_pos long]
      exact Meets.throw ⟨rfl, fetching.abandon inflow⟩

end Fetching

/-- So many steps of the downloader, and what each of them says. -/
def proceed (task : Task) : Nat → Step σ (List DownloadOutcome)
  | 0 => pure []
  | steps + 1 => do
      let earlier ← proceed task steps
      return earlier ++ [← advance task]

theorem proceed_next {steps : Nat} {middle : Downloading FileCollector ArrivingFile σ → Prop}
    {last : Downloading FileCollector ArrivingFile σ → Prop}
    (earlier : Meets (proceed task steps) first
      (fun outcomes between => outcomes = List.replicate steps .ongoing ∧ middle between)
      (fun _ _ => False))
    (next : ∀ between, middle between → Meets (advance task) between
      (fun outcome after => outcome = .ongoing ∧ last after) (fun _ _ => False)) :
    Meets (proceed task (steps + 1)) first
      (fun outcomes after => outcomes = List.replicate (steps + 1) .ongoing ∧ last after)
      (fun _ _ => False) := by
  refine earlier.bind ?_
  rintro _ between ⟨rfl, met⟩
  refine (next between met).bind ?_
  rintro _ after ⟨rfl, met⟩
  exact Meets.pure ⟨List.replicate_succ'.symm, met⟩

/-- After the head and all pieces of a reply its content stands in the temporary file. -/
theorem proceed_fetches (admits : task.Admits first.disk reply.index entry root parent name)
    (formed : reply.WellFormed) (idle : first.pending = none)
    (ahead : first.inflow.Ahead tail (reply.opening ++ more)) :
    Meets (proceed task (1 + reply.pieces.length)) first
      (fun outcomes now => outcomes = List.replicate (1 + reply.pieces.length) .ongoing ∧
        ∃ arriving, Fetching first parent name reply arriving now ∧ now.inflow.Ahead tail more)
      (fun _ _ => False) := by
  obtain ⟨index, blockLength, checksumWidth, remainder, pieces⟩ := reply
  induction pieces using List.reverseRecOn generalizing more with
  | nil =>
      have nothing : Meets (proceed task 0) first
          (fun outcomes between => outcomes = List.replicate 0 .ongoing ∧ between = first)
          (fun _ _ => False) := Meets.pure ⟨rfl, rfl⟩
      refine proceed_next nothing ?_
      rintro _ rfl
      exact advance_begins admits formed.small rfl idle ahead
  | append_singleton pieces piece ih =>
      let draft : Reply := ⟨index, blockLength, checksumWidth, remainder, pieces⟩
      obtain ⟨present, fits⟩ := formed.pieces piece (by simp)
      have formed' : draft.WellFormed :=
        ⟨formed.small, fun other listed => formed.pieces other (List.mem_append_left _ listed)⟩
      have opening : (draft.longer piece).opening = draft.opening ++ pieceBytes piece :=
        draft.opening_longer piece
      change first.inflow.Ahead tail ((draft.longer piece).opening ++ more) at ahead
      rw [opening, List.append_assoc] at ahead
      rw [List.length_append]
      refine proceed_next (ih admits formed' ahead) ?_
      rintro between ⟨arriving, fetching, ahead⟩
      exact fetching.grows present fits ahead

/-- A reply is taken step by step, in one step more than it has pieces before its last int, and
nothing that follows it is touched. If that int ends a content of the right size, then the entry's
file is replaced by one that holds it. Otherwise that last step fails, and every place shows what
it showed at first. -/
theorem fetch_exact (admits : task.Admits first.disk reply.index entry root parent name)
    (formed : reply.WellFormed) (idle : first.pending = none) {token : Int32}
    (ahead : first.inflow.Ahead tail (reply.opening ++ (Wire.intBytes token ++ more))) :
    (∀ count ≤ reply.pieces.length, Meets (proceed task (1 + count)) first
      (fun outcomes now => outcomes = List.replicate (1 + count) .ongoing ∧
        now.pending ≠ none ∧ now.downloader = first.downloader)
      (fun _ _ => False)) ∧
    (token = 0 → reply.content.length = entry.size.toNat →
      Meets (proceed task (2 + reply.pieces.length)) first
        (fun outcomes after => outcomes = List.replicate (2 + reply.pieces.length) .ongoing ∧
          Fetched task entry (name :: parent) reply first after ∧ after.inflow.Ahead tail more)
        (fun _ _ => False)) ∧
    (∀ fault, reply.Spoils entry token fault →
      Meets (proceed task (2 + reply.pieces.length)) first (fun _ _ => False)
        (fun cause after => cause = fault ∧ Abandoned first after)) := by
  have steps : 2 + reply.pieces.length = 1 + reply.pieces.length + 1 := by omega
  refine ⟨fun count few => ?_, fun last whole => ?_, fun fault spoils => ?_⟩
  · let draft : Reply := { reply with pieces := reply.pieces.take count }
    have formed' : draft.WellFormed :=
      ⟨formed.small, fun piece listed => formed.pieces piece (List.mem_of_mem_take listed)⟩
    have admits' : task.Admits first.disk draft.index entry root parent name := admits
    have size : draft.pieces.length = count := List.length_take_of_le few
    have opening : reply.opening =
        draft.opening ++ (reply.pieces.drop count).flatMap pieceBytes := by
      rw [Reply.opening, Reply.opening, List.append_assoc, ← List.flatMap_append,
        List.take_append_drop]
    rw [opening, List.append_assoc] at ahead
    rw [← size]
    refine (proceed_fetches admits' formed' idle ahead).mono ?_ fun _ _ no => no
    rintro outcomes now ⟨said, arriving, fetching, -⟩
    exact ⟨said, by simp [fetching.pending], fetching.downloader⟩
  · subst last
    rw [steps]
    refine proceed_next (proceed_fetches admits formed idle ahead) ?_
    rintro between ⟨arriving, fetching, ahead⟩
    exact fetching.ends admits whole ahead
  · rw [steps]
    refine (proceed_fetches admits formed idle ahead).followedBy (fun _ _ no => no.elim) ?_
    rintro _ between ⟨-, arriving, fetching, ahead⟩
    exact (fetching.spoils admits.listed spoils ahead).bind fun _ _ no => no.elim

/-- A directory to receive into, with an older file in it. -/
def olderTree : Tree :=
  ((Tree.empty.set [] (.directory ⟨0o755, 0⟩)).set [[100]] (.directory ⟨0o755, 0⟩)).set
    [[97, 98], [100]] (.file ⟨0o600, 1⟩ [7, 7])

def fetchTask (entry : ListEntry) : Task where
  root := some [[100]]
  files := [entry]
  umask := 0o022

/-- A downloader that has done nothing yet, before `inflow`. -/
def fetchStart (inflow : Inflow ScriptedSource) (tree : Tree) :
    Downloading FileCollector ArrivingFile ScriptedSource where
  downloader := { preserveTimes := true, preservePermissions := false }
  inflow
  disk := { tree }

/-- Three bytes in two pieces. -/
def cutReply : Reply :=
  ⟨0, 700, 2, 3, [[1], [2, 3]]⟩

/-- The reply and one byte more, cut within an int and with a notice in between. -/
def fetchMessages : List SentMessage :=
  [(.data, cutReply.bytes.take 6), (.info, [104, 105]), (.data, cutReply.bytes.drop 6 ++ [9])]

/-- What follows the messages is no header. -/
def fetchInflow : Inflow ScriptedSource where
  source := ⟨wire fetchMessages ++ [255, 255], [.atMost 1, .fails (.bare .interrupted), .atMost 3]⟩
  multiplexed := true

theorem fetch_exact_cut :
    ((fetchTask (.file ⟨[97, 98]⟩ 0o664 5 3)).Admits (fetchStart fetchInflow olderTree).disk
        cutReply.index (.file ⟨[97, 98]⟩ 0o664 5 3) [[100]] [[100]] [97, 98] ∧
      cutReply.WellFormed ∧ (fetchStart fetchInflow olderTree).pending = none ∧
      fetchInflow.Ahead [255, 255] (cutReply.opening ++ (Wire.intBytes 0 ++ [9]))) ∧
    ∃ after, proceed (fetchTask (.file ⟨[97, 98]⟩ 0o664 5 3)) 4 (fetchStart fetchInflow olderTree) =
        .ok [.ongoing, .ongoing, .ongoing, .ongoing] after ∧
      after.disk.tree.get? [[97, 98], [100]] = some (.file ⟨0o644, 5⟩ [1, 2, 3]) ∧
      after.downloader.received = [0] ∧ after.downloader.bytes = 3 ∧
      after.inflow.Ahead [255, 255] [9] := by
  have admits : (fetchTask (.file ⟨[97, 98]⟩ 0o664 5 3)).Admits
      (fetchStart fetchInflow olderTree).disk cutReply.index (.file ⟨[97, 98]⟩ 0o664 5 3)
      [[100]] [[100]] [97, 98] := {
    opened := rfl
    listed := rfl
    regular := by decide
    passable := ⟨[[97, 98]], rfl, by decide⟩
    placed := rfl
    leads := .here
    vacant := by
      rintro ⟨attributes, found⟩
      have file : olderTree.get? [[97, 98], [100]] = some (.file ⟨0o600, 1⟩ [7, 7]) := by
        decide +kernel
      cases file.symm.trans found
    available := ⟨0, Nat.le_refl _, by decide, by decide +kernel⟩
    unhindered := fun _ _ => rfl }
  have formed : cutReply.WellFormed := ⟨by decide, by decide⟩
  have steady : fetchInflow.source.Steady := by
    intro planned listed
    have one : planned = .atMost 1 ∨ planned = .fails (.bare .interrupted) ∨
        planned = .atMost 3 := by
      simpa [fetchInflow] using listed
    obtain rfl | rfl | rfl := one <;> decide
  have heads : Inflow.Heads [255, 255] [] fetchMessages fetchInflow := {
    multiplexed := rfl
    remaining := rfl
    source := ScriptedSource.carries steady
    sendable := by
      unfold Sendable
      decide
    lets := nofun }
  have ahead : fetchInflow.Ahead [255, 255] (cutReply.opening ++ (Wire.intBytes 0 ++ [9])) :=
    .framed heads
  obtain ⟨-, whole, -⟩ := fetch_exact admits formed rfl ahead
  obtain ⟨_, after, ran, rfl, fetched, left⟩ := (whole rfl (by decide)).succeeds
  obtain ⟨mtime, time, seen⟩ := fetched.replaced
  refine ⟨⟨admits, formed, rfl, ahead⟩, after, ran, ?_, ?_, ?_, left⟩
  · rw [← Tree.sight_eq_file, seen, if_pos rfl, time rfl]
    rfl
  · rw [fetched.downloader]
    rfl
  · rw [fetched.downloader]
    rfl

/-- One byte in one piece. -/
def oneByteReply : Reply :=
  ⟨0, 0, 0, 0, [[120]]⟩

/-- An entry with a NUL byte in its name. -/
def nulEntry : ListEntry :=
  .file ⟨[97, 0, 98]⟩ 0o644 5 1

/-- An entry all of whose temporary names are one that is taken. -/
def plainEntry : ListEntry :=
  .file ⟨[97]⟩ 0o644 5 1

def takenTree : Tree :=
  olderTree.set [Temporary.nameFor [97] (.replicate 6 0), [100]] (.file ⟨0o600, 1⟩ [])

def refusesWriting (_ : List Change) : HandleCall → Option Refusal
  | .write _ _ => some { errno := .noSpace }
  | _ => none

/-- It takes a name without NUL bytes, a temporary name that is left and a system that lets files be
written: where the first or the second is missing the first step fails, and where the third is, the
step that takes the piece. -/
theorem fetch_needs_names :
    (oneByteReply.WellFormed ∧ oneByteReply.content.length = nulEntry.size.toNat ∧
      oneByteReply.content.length = plainEntry.size.toNat) ∧
    (nulEntry.isRegular = true ∧ nulEntry.path.placeBeneath [[100]] = some [[97, 0, 98], [100]] ∧
      olderTree.get? [[97, 0, 98], [100]] = none ∧
      failsIn
        (advance (fetchTask nulEntry) (fetchStart { source := ⟨oneByteReply.bytes, []⟩ } olderTree))
        (fun fault _ => fault = .system .invalid) = true) ∧
    (plainEntry.isRegular = true ∧ plainEntry.path.placeBeneath [[100]] = some [[97], [100]] ∧
      takenTree.get? [[97], [100]] = none ∧
      failsIn
        (advance (fetchTask plainEntry) (fetchStart { source := ⟨oneByteReply.bytes, []⟩ } takenTree))
        (fun fault _ => fault = .namesExhausted 100 (Temporary.template ⟨[97]⟩)) = true) ∧
    failsIn (proceed (fetchTask plainEntry) 2 { fetchStart { source := ⟨oneByteReply.bytes, []⟩ }
        olderTree with disk := { tree := olderTree, refusals := refusesWriting } })
      (fun fault _ => fault = .system .noSpace) = true := by
  refine ⟨⟨⟨by decide, by decide⟩, rfl, rfl⟩, ⟨by decide, rfl, ?_, ?_⟩, ⟨by decide, rfl, ?_, ?_⟩, ?_⟩
  · decide +kernel
  · decide +kernel
  · decide +kernel
  · decide +kernel
  · decide +kernel

end FileCollector

end TreeSync

import TreeSync.Proofs.Transfer.Collecting

namespace TreeSync

/-! What the places of a tree hold, and which reply each of them owes it to.

A place holds what it held from the start, a file that one reply brought in full, a
directory that was made for an entry, or the temporary file of the file in progress.
-/

/-- The content of one file as the peer sends it. -/
structure Reply where
  index : Nat
  blockLength : Int32
  checksumWidth : Int32
  remainder : Int32
  pieces : List Bytes := []

namespace Reply

variable (reply : Reply)

def content : Bytes :=
  reply.pieces.flatten

/-- A reply as far as its last piece. -/
def opening : Bytes :=
  FileCollector.headBytes reply.index reply.blockLength reply.checksumWidth reply.remainder ++
    reply.pieces.flatMap FileCollector.pieceBytes

def bytes : Bytes :=
  reply.opening ++ Wire.intBytes 0

def longer (piece : Bytes) : Reply :=
  { reply with pieces := reply.pieces ++ [piece] }

@[simp] theorem content_longer (piece : Bytes) :
    (reply.longer piece).content = reply.content ++ piece := by
  simp [content, longer]

@[simp] theorem opening_longer (piece : Bytes) :
    (reply.longer piece).opening = reply.opening ++ FileCollector.pieceBytes piece := by
  simp [opening, longer]

/-- The complete file that a reply makes of the entry it is for. -/
inductive Becomes (reply : Reply) (task : Task) (collector : FileCollector) :
    Location → Node → Prop
  | file {root place : Location} {entry : ListEntry} {mtime : Int64}
      (opened : task.root = some root) (listed : task.files[reply.index]? = some entry)
      (kind : entry.isRegular = true) (placed : entry.path.placeBeneath root = some place)
      (size : reply.content.length = entry.size.toNat)
      (time : collector.preserveTimes = true → mtime = entry.mtime) :
      Becomes reply task collector place
        (.file ⟨collector.permissionsFor entry task.umask, mtime⟩ reply.content)

end Reply

/-- Whether a place holds a complete file that one of the replies brought. -/
def Task.Delivered (task : Task) (collector : FileCollector) (replies : List Reply) (tree : Tree)
    (place : Location) : Prop :=
  ∃ reply ∈ replies, ∃ node, reply.Becomes task collector place node ∧ tree.get? place = some node

/-- How a place came by what it holds. -/
inductive Task.Holding (task : Task) (collector : FileCollector) (replies : List Reply)
    (temporary : Option Location) (first now : Tree) (place : Location) : Prop
  | kept (same : now.sight place = first.sight place)
  | delivered (complete : task.Delivered collector replies now place)
  | prepared {root : Location} {entry : ListEntry} (opened : task.root = some root)
      (listed : entry ∈ task.files) (kind : entry.isDirectory = true)
      (placed : entry.path.placeBeneath root = some place) (unseen : first.get? place = none)
      (stands : now.HasDirectory place)
  | arriving (here : temporary = some place)

/-- Whether a reply was received in full and its place still holds a complete file. -/
def Task.Keeps (task : Task) (collector : FileCollector) (replies : List Reply)
    (temporary : Option Location) (tree : Tree) (reply : Reply) : Prop :=
  ∃ place node, reply.Becomes task collector place node ∧
    task.Delivered collector replies tree place ∧ temporary ≠ some place

variable {task : Task} {collector : FileCollector} {replies later : List Reply} {reply : Reply}
  {temporary other : Option Location} {first before after : Tree} {place changed : Location}

theorem Reply.Becomes.isFile {node : Node} (becomes : reply.Becomes task collector place node) :
    ∃ attributes content, node = .file attributes content := by
  cases becomes
  exact ⟨_, _, rfl⟩

theorem Task.Delivered.hasFile (delivered : task.Delivered collector replies before place) :
    before.HasFile place := by
  obtain ⟨reply, _, node, becomes, found⟩ := delivered
  obtain ⟨attributes, content, rfl⟩ := becomes.isFile
  exact ⟨attributes, content, found⟩

theorem Task.Delivered.of_sight (delivered : task.Delivered collector replies before place)
    (more : replies ⊆ later) (same : after.sight place = before.sight place) :
    task.Delivered collector later after place := by
  obtain ⟨reply, listed, node, becomes, found⟩ := delivered
  obtain ⟨attributes, content, rfl⟩ := becomes.isFile
  rw [← Tree.sight_eq_file, ← same, Tree.sight_eq_file] at found
  exact ⟨reply, more listed, _, becomes, found⟩

theorem Task.Holding.of_sight
    (holding : task.Holding collector replies temporary first before place)
    (more : replies ⊆ later) (same : after.sight place = before.sight place)
    (moved : temporary = some place → other = some place) :
    task.Holding collector later other first after place := by
  cases holding with
  | kept kept => exact .kept (same.trans kept)
  | delivered complete => exact .delivered (complete.of_sight more same)
  | prepared opened listed kind placed unseen stands =>
      exact .prepared opened listed kind placed unseen (stands.of_sight same)
  | arriving here => exact .arriving (moved here)

/-- A place that is free, and not the temporary file, was free from the start. -/
theorem Task.Holding.unseen (holding : task.Holding collector replies temporary first before place)
    (apart : temporary ≠ some place) (free : before.get? place = none) :
    first.get? place = none := by
  cases holding with
  | kept same => rw [← Tree.sight_eq_none, ← same, Tree.sight_eq_none, free]
  | delivered complete =>
      obtain ⟨attributes, content, found⟩ := complete.hasFile
      rw [free] at found
      cases found
  | prepared _ _ _ _ unseen _ => exact unseen
  | arriving here => exact absurd here apart

theorem Task.Keeps.of_sight (keeps : task.Keeps collector replies temporary before reply)
    (unowed : temporary = some changed ∨ before.get? changed = none)
    (elsewhere : ∀ place, place ≠ changed → after.sight place = before.sight place)
    (moved : ∀ place, other = some place → temporary = some place ∨ place = changed) :
    task.Keeps collector replies other after reply := by
  obtain ⟨place, node, becomes, delivered, apart⟩ := keeps
  have different : place ≠ changed := by
    intro same
    subst same
    rcases unowed with here | free
    · exact apart here
    · obtain ⟨attributes, content, found⟩ := delivered.hasFile
      rw [free] at found
      cases found
  have kept := delivered.of_sight (List.Subset.refl _) (elsewhere place different)
  refine ⟨place, node, becomes, kept, fun here => ?_⟩
  rcases moved place here with before | same
  · exact apart before
  · exact different same

/-- The reply that the file in progress has come from so far. -/
inductive Drafts (first now : Disk) : Option ArrivingFile → Option Reply → Prop
  | idle : Drafts first now none none
  | begun {arriving : ArrivingFile} {draft : Reply} {turn : Nat}
      (index : draft.index = arriving.index) (written : arriving.written = draft.content.length)
      (stands : ∃ attributes,
        now.tree.get? arriving.temporary.file = some (.file attributes draft.content))
      (unseen : first.tree.get? arriving.temporary.file = none)
      (early : first.draws ≤ turn) (late : turn < now.draws)
      (named : arriving.temporary.file =
        Temporary.nameFor arriving.name (first.entropy turn) :: arriving.temporary.directory) :
      Drafts first now (some arriving) (some draft)

theorem Drafts.of_idle {first now : Disk} {draft : Option Reply}
    (drafts : Drafts first now none draft) : draft = none := by
  cases drafts
  rfl

theorem Drafts.of_held {first now : Disk} {arriving : ArrivingFile} {draft : Option Reply}
    (drafts : Drafts first now (some arriving) draft) :
    ∃ reply, draft = some reply ∧ reply.index = arriving.index := by
  cases drafts with
  | begun index => exact ⟨_, rfl, index⟩

/-- What all places hold, and that no complete file is lost. -/
structure Task.Books (task : Task) (collector : FileCollector) (first now : Disk)
    (pending : Option ArrivingFile) (replies : List Reply) (draft : Option Reply) : Prop where
  drafts : Drafts first now pending draft
  holding : ∀ place, task.Holding collector replies (pending.map (·.temporary.file)) first.tree
    now.tree place
  keeps : ∀ reply ∈ replies,
    task.Keeps collector replies (pending.map (·.temporary.file)) now.tree reply

theorem Change.WorksOn.sight {change : Change} {file : Location} {time : Int64}
    (works : change.WorksOn file) (apart : place ≠ file) :
    (change.apply time before).sight place = before.sight place := by
  refine sight_apply_of_not_altered fun altered => apart ?_
  cases works <;> exact List.mem_singleton.mp altered

theorem Disk.sight_performAll {changes : List Change} {disk : Disk} {file : Location}
    (works : ∀ change ∈ changes, change.WorksOn file) (apart : place ≠ file) :
    (disk.performAll changes).tree.sight place = disk.tree.sight place := by
  induction changes generalizing disk with
  | nil => rfl
  | cons change rest ih =>
      have later : ((disk.perform change).performAll rest).tree.sight place =
          (disk.perform change).tree.sight place :=
        ih fun other listed => works other (List.mem_cons_of_mem _ listed)
      exact later.trans ((works change List.mem_cons_self).sight apart)

namespace Task.Books

variable {first now after : Disk} {pending : Option ArrivingFile} {draft : Option Reply}
  {arriving : ArrivingFile}

theorem start : task.Books collector first first none [] none where
  drafts := .idle
  holding _ := .kept rfl
  keeps _ listed := absurd listed List.not_mem_nil

theorem of_same (books : task.Books collector first now pending replies draft)
    (tree : after.tree = now.tree) (draws : now.draws ≤ after.draws) :
    task.Books collector first after pending replies draft where
  drafts := by
    cases books.drafts with
    | idle => exact .idle
    | begun index written stands unseen early late named =>
        exact .begun index written (tree ▸ stands) unseen early (Nat.lt_of_lt_of_le late draws) named
  holding := tree ▸ books.holding
  keeps := tree ▸ books.keeps

theorem unseen {place : Location} (books : task.Books collector first now pending replies draft)
    (free : now.tree.get? place = none) : first.tree.get? place = none := by
  refine (books.holding place).unseen ?_ free
  cases books.drafts with
  | idle => nofun
  | begun _ _ stands =>
      rintro ⟨rfl⟩
      obtain ⟨attributes, found⟩ := stands
      rw [free] at found
      cases found

theorem prepares (books : task.Books collector first now pending replies draft)
    (prepares : task.Prepares now after) :
    task.Books collector first after pending replies draft := by
  cases prepares with
  | nothing => exact books
  | @directory root parent name entry permissions opened listed kind leads plain placed free =>
      have seen (place : Location) :
          (now.perform (.madeDirectory (name :: parent) permissions)).tree.sight place =
            if place = name :: parent then some (.directory ⟨permissions, 0⟩)
            else now.tree.sight place :=
        Change.sight_madeDirectory permissions
      have elsewhere (place : Location) (apart : place ≠ name :: parent) :
          (now.perform (.madeDirectory (name :: parent) permissions)).tree.sight place =
            now.tree.sight place := by
        rw [seen, if_neg apart]
      refine ⟨?_, fun place => ?_, fun reply received => ?_⟩
      · cases books.drafts with
        | idle => exact .idle
        | begun index written stands unseen early late named =>
            obtain ⟨attributes, found⟩ := stands
            refine .begun index written ⟨attributes, ?_⟩ unseen early late named
            rw [← Tree.sight_eq_file, elsewhere _ (fun same => ?_), Tree.sight_eq_file]
            · exact found
            · rw [same, free] at found
              cases found
      · by_cases here : place = name :: parent
        · subst here
          refine .prepared opened listed kind placed (books.unseen free)
            (Tree.hasDirectory_iff_sight.mpr ?_)
          exact ⟨_, by rw [seen, if_pos rfl]⟩
        · exact (books.holding place).of_sight (List.Subset.refl _) (elsewhere place here) id
      · exact (books.keeps reply received).of_sight (.inr free) elsewhere fun _ here => .inl here

theorem begins {opening : Reply} {permissions : UInt32} {turn : Nat}
    (books : task.Books collector first now none replies none)
    (index : opening.index = arriving.index) (empty : arriving.written = 0)
    (blank : opening.pieces = [])
    (free : now.tree.get? arriving.temporary.file = none) (early : first.draws ≤ turn)
    (named : arriving.temporary.file =
      Temporary.nameFor arriving.name (first.entropy turn) :: arriving.temporary.directory) :
    task.Books collector first
      ((now.drawnTo (turn + 1)).perform (.madeFile arriving.temporary.file permissions))
      (some arriving) replies (some opening) := by
  have elsewhere (place : Location) (apart : place ≠ arriving.temporary.file) :
      ((now.drawnTo (turn + 1)).perform
        (.madeFile arriving.temporary.file permissions)).tree.sight place = now.tree.sight place :=
    Change.sight_apply_of_not_altered (by simpa [Change.altered] using apart)
  have nothing : opening.content = [] := by simp [Reply.content, blank]
  refine ⟨?_, fun place => ?_, fun reply received => ?_⟩
  · have stands : ((now.drawnTo (turn + 1)).perform
        (.madeFile arriving.temporary.file permissions)).tree.get? arriving.temporary.file =
          some (.file ⟨permissions, now.clock⟩ opening.content) := by
      rw [nothing]
      exact Change.get?_madeFile _ _
    exact .begun index (by simp [nothing, empty]) ⟨_, stands⟩ (books.unseen free) early
      (Nat.lt_succ_self turn) named
  · by_cases here : place = arriving.temporary.file
    · exact .arriving (by rw [here]; rfl)
    · have idle (held : (none : Option Location) = some place) :
          some arriving.temporary.file = some place := by
        cases held
      exact (books.holding place).of_sight (List.Subset.refl _) (elsewhere place here) idle
  · refine (books.keeps reply received).of_sight (.inr free) elsewhere fun place here => .inr ?_
    exact (Option.some.inj here).symm

theorem grows {draft : Reply} {content : Bytes}
    (books : task.Books collector first now (some arriving) replies (some draft)) :
    task.Books collector first (now.perform (.wroteFile arriving.temporary.file content))
      (some { arriving with written := arriving.written + content.length }) replies
      (some (draft.longer content)) := by
  have elsewhere (place : Location) (apart : place ≠ arriving.temporary.file) :
      (now.perform (.wroteFile arriving.temporary.file content)).tree.sight place =
        now.tree.sight place :=
    (Change.WorksOn.wrote content).sight apart
  refine ⟨?_, fun place => ?_, fun reply received => ?_⟩
  · cases books.drafts with
    | begun index written stands unseen early late named =>
        obtain ⟨attributes, found⟩ := stands
        have stands : (now.perform (.wroteFile arriving.temporary.file content)).tree.get?
            arriving.temporary.file =
              some (.file ⟨attributes.permissions, now.clock⟩ (draft.longer content).content) := by
          rw [Disk.perform, Change.apply, Tree.get?_update, if_pos rfl, found,
            Reply.content_longer]
          rfl
        exact .begun index (by simp [written]) ⟨_, stands⟩ unseen early late named
  · by_cases here : place = arriving.temporary.file
    · exact .arriving (by rw [here]; rfl)
    · exact (books.holding place).of_sight (List.Subset.refl _) (elsewhere place here) id
  · exact (books.keeps reply received).of_sight (.inl rfl) elsewhere fun _ here => .inl here

/-- Giving up a file leaves its temporary place as it was in the beginning. -/
theorem gives_up {changes : List Change}
    (books : task.Books collector first now (some arriving) replies draft)
    (works : ∀ change ∈ changes, change.WorksOn arriving.temporary.file) :
    task.Books collector first
      ((now.performAll changes).perform (.removedFile arriving.temporary.file)) none replies none := by
  have seen (place : Location) :
      ((now.performAll changes).perform (.removedFile arriving.temporary.file)).tree.sight place =
        if place = arriving.temporary.file then none
        else (now.performAll changes).tree.sight place :=
    Change.sight_removedFile
  have elsewhere (place : Location) (apart : place ≠ arriving.temporary.file) :
      ((now.performAll changes).perform (.removedFile arriving.temporary.file)).tree.sight place =
        now.tree.sight place := by
    rw [seen, if_neg apart, Disk.sight_performAll works apart]
  refine ⟨.idle, fun place => ?_, fun reply received => ?_⟩
  · by_cases here : place = arriving.temporary.file
    · cases books.drafts with
      | begun _ _ _ unseen =>
          refine .kept ?_
          rw [seen, if_pos here, here, Tree.sight_eq_none.mpr unseen]
    · refine (books.holding place).of_sight (List.Subset.refl _) (elsewhere place here) fun held => ?_
      exact absurd (Option.some.inj held).symm here
  · exact (books.keeps reply received).of_sight (.inl rfl) elsewhere nofun

theorem permissionsFor_masked (entry : ListEntry) (umask : UInt32) :
    collector.permissionsFor entry umask &&& 0o7777 = collector.permissionsFor entry umask := by
  have mask : (0o7777 : UInt32) = Mode.permissionMask := rfl
  unfold FileCollector.permissionsFor ListEntry.permissions
  rw [mask]
  split
  · rw [UInt32.and_assoc, UInt32.and_self]
  · rw [UInt32.and_assoc, UInt32.and_comm (~~~umask), ← UInt32.and_assoc, UInt32.and_assoc entry.mode,
      UInt32.and_self]

theorem get?_finishing (collector : FileCollector) (entry : ListEntry) (umask : UInt32)
    {file : Location} {attributes : Attributes} {content : Bytes}
    (stands : now.tree.get? file = some (.file attributes content)) :
    ∃ mtime, (now.performAll (collector.finishing entry umask file)).tree.get? file =
        some (.file ⟨collector.permissionsFor entry umask, mtime⟩ content) ∧
      (collector.preserveTimes = true → mtime = entry.mtime) := by
  have permitted : (now.perform (.setPermissions file
      (collector.permissionsFor entry umask &&& 0o7777))).tree.get? file =
        some (.file ⟨collector.permissionsFor entry umask, attributes.mtime⟩ content) := by
    rw [Disk.perform, Change.apply, Tree.get?_update, if_pos rfl, stands, permissionsFor_masked]
    rfl
  unfold FileCollector.finishing
  split
  · refine ⟨entry.mtime, ?_, fun _ => rfl⟩
    rw [Disk.performAll, List.foldl_cons, List.foldl_cons, List.foldl_nil, Disk.perform,
      Change.apply, Tree.get?_update, if_pos rfl, permitted]
    rfl
  · next times => exact ⟨attributes.mtime, permitted, fun preserves => absurd preserves times⟩

/-- A commit shows the file with its attributes at the target, and nothing else changes. -/
theorem sight_committed (collector : FileCollector) (entry : ListEntry) (umask : UInt32)
    {file : Location} (target : Location) {attributes : Attributes} {content : Bytes}
    (stands : now.tree.get? file = some (.file attributes content)) :
    ∃ mtime, (collector.preserveTimes = true → mtime = entry.mtime) ∧ ∀ place,
      ((now.performAll (collector.finishing entry umask file)).perform
        (.renamed file target)).tree.sight place =
          if place = target then
            some (.file ⟨collector.permissionsFor entry umask, mtime⟩ content)
          else if place = file then none else now.tree.sight place := by
  obtain ⟨mtime, ready, time⟩ := get?_finishing collector entry umask stands
  refine ⟨mtime, time, fun place => ?_⟩
  have seen : ((now.performAll (collector.finishing entry umask file)).perform
      (.renamed file target)).tree.sight place = _ :=
    Change.sight_renamed (Tree.sight_eq_file.mpr ready)
  rw [seen]
  by_cases here : place = file
  · rw [if_pos here, if_pos here]
  · rw [if_neg here, if_neg here,
      Disk.sight_performAll (FileCollector.finishing_works collector entry umask file) here]

/-- A file that is committed appears in its place with all its content. -/
theorem commits {draft : Reply} {entry : ListEntry} {root : Location} {finisher : FileCollector}
    (books : task.Books collector first now (some arriving) replies (some draft))
    (times : finisher.preserveTimes = collector.preserveTimes)
    (permissions : finisher.preservePermissions = collector.preservePermissions)
    (opened : task.root = some root) (listed : task.files[arriving.index]? = some entry)
    (kind : entry.isRegular = true)
    (placed : entry.path.placeBeneath root = some (arriving.name :: arriving.temporary.directory))
    (size : arriving.written = entry.size.toNat) :
    task.Books collector first
      ((now.performAll (finisher.finishing entry task.umask arriving.temporary.file)).perform
        (.renamed arriving.temporary.file (arriving.name :: arriving.temporary.directory)))
      none (replies ++ [draft]) none := by
  obtain ⟨index, written, ⟨attributes, found⟩, unseen⟩ : draft.index = arriving.index ∧
      arriving.written = draft.content.length ∧
      (∃ attributes, now.tree.get? arriving.temporary.file =
        some (.file attributes draft.content)) ∧
      first.tree.get? arriving.temporary.file = none := by
    cases books.drafts with
    | begun index written stands unseen => exact ⟨index, written, stands, unseen⟩
  -- the target shows the draft, and the temporary place is again as it was in the beginning
  let target := arriving.name :: arriving.temporary.directory
  obtain ⟨mtime, time, seen⟩ := sight_committed finisher entry task.umask target found
  have mode : finisher.permissionsFor entry task.umask = collector.permissionsFor entry task.umask := by
    unfold FileCollector.permissionsFor
    rw [permissions]
  rw [mode] at seen
  rw [times] at time
  have becomes : draft.Becomes task collector target _ :=
    .file opened (index ▸ listed) kind placed (written ▸ size) time
  have arrived := (seen target).trans (if_pos rfl)
  have delivered : task.Delivered collector (replies ++ [draft]) _ target :=
    ⟨draft, by simp, _, becomes, Tree.sight_eq_file.mp arrived⟩
  have elsewhere (place : Location) (different : place ≠ target)
      (apart : place ≠ arriving.temporary.file) :=
    (seen place).trans ((if_neg different).trans (if_neg apart))
  have more : replies ⊆ replies ++ [draft] := List.subset_append_left replies [draft]
  refine ⟨.idle, fun place => ?_, fun reply received => ?_⟩
  · by_cases there : place = target
    · exact .delivered (there ▸ delivered)
    by_cases here : place = arriving.temporary.file
    · refine .kept ?_
      rw [seen, if_neg there, if_pos here, here, Tree.sight_eq_none.mpr unseen]
    · refine (books.holding place).of_sight more (elsewhere place there here) fun held => ?_
      exact absurd (Option.some.inj held).symm here
  · rcases List.mem_append.mp received with earlier | now
    · obtain ⟨place, node, becomes', kept, apart⟩ := books.keeps reply earlier
      by_cases there : place = target
      · exact ⟨place, node, becomes', there ▸ delivered, nofun⟩
      · have here : place ≠ arriving.temporary.file := fun same => apart (by rw [same]; rfl)
        exact ⟨place, node, becomes', kept.of_sight more (elsewhere place there here), nofun⟩
    · rw [List.mem_singleton.mp now]
      exact ⟨target, _, becomes, delivered, nofun⟩

end Task.Books

end TreeSync

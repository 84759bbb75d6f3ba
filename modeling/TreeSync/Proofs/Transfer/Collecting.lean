import TreeSync.Proofs.Disk.Temporaries
import TreeSync.Proofs.Message.Taking
import TreeSync.Proofs.Transfer.Requesting
import TreeSync.Transfer.FileCollector

namespace TreeSync

/-! What the downloader does in one step.

`Collects` lists the ways a step succeeds and `Loses` the ways it fails: which bytes it
took, which changes it made and what it holds afterwards.
-/

open TreeSync.Action

def Tree.HasFile (tree : Tree) (place : Location) : Prop :=
  ∃ attributes content, tree.get? place = some (.file attributes content)

theorem Tree.HasFile.not_hasDirectory {tree : Tree} {place : Location} (stands : tree.HasFile place) :
    ¬ tree.HasDirectory place := by
  obtain ⟨attributes, content, found⟩ := stands
  intro directory
  obtain ⟨other, found'⟩ := directory
  rw [found] at found'
  cases found'

theorem Tree.HasFile.of_sight {before after : Tree} {place : Location}
    (same : after.sight place = before.sight place) (stands : before.HasFile place) :
    after.HasFile place := by
  obtain ⟨attributes, content, found⟩ := stands
  rw [← Tree.sight_eq_file, ← same, Tree.sight_eq_file] at found
  exact ⟨attributes, content, found⟩

theorem Tree.HasFile.ne_of_free {tree : Tree} {place other : Location} (stands : tree.HasFile place)
    (free : tree.get? other = none) : place ≠ other := by
  intro same
  obtain ⟨attributes, content, found⟩ := stands
  rw [same, free] at found
  cases found

namespace Temporary.Fresh

variable {disk : Disk} {directory place : Location} {name : Name} {turn : Nat}
  {temporary : Temporary}

/-- A new temporary file takes the place of no directory. -/
theorem keepsDirectories (fresh : Fresh disk directory name turn temporary)
    (stands : disk.tree.HasDirectory place) :
    (temporary.made turn disk).tree.HasDirectory place := by
  refine Change.keepsDirectories (fun altered listed => ?_) stands
  rw [List.mem_singleton.mp listed]
  exact Tree.not_hasDirectory_of_free fresh.free

theorem keepsFiles (fresh : Fresh disk directory name turn temporary)
    (stands : disk.tree.HasFile place) :
    (temporary.made turn disk).tree.sight place = disk.tree.sight place := by
  refine Change.sight_apply_of_not_altered fun altered => ?_
  exact stands.ne_of_free fresh.free (List.mem_singleton.mp altered)

end Temporary.Fresh

/-- A change to the file at `place` that leaves a file there. -/
inductive Change.WorksOn (place : Location) : Change → Prop
  | wrote (bytes : Bytes) : WorksOn place (.wroteFile place bytes)
  | gavePermissions (permissions : UInt32) : WorksOn place (.setPermissions place permissions)
  | gaveTime (mtime : Int64) : WorksOn place (.setTime place mtime)

theorem Change.WorksOn.hasFile {place : Location} {change : Change} {time : Int64} {tree : Tree}
    (works : change.WorksOn place) (stands : tree.HasFile place) :
    (change.apply time tree).HasFile place := by
  obtain ⟨attributes, content, found⟩ := stands
  cases works with
  | wrote bytes =>
      refine ⟨⟨attributes.permissions, time⟩, content ++ bytes, ?_⟩
      rw [apply, Tree.get?_update, if_pos rfl, found]
      rfl
  | gavePermissions permissions =>
      refine ⟨⟨permissions, attributes.mtime⟩, content, ?_⟩
      rw [apply, Tree.get?_update, if_pos rfl, found]
      rfl
  | gaveTime mtime =>
      refine ⟨⟨attributes.permissions, mtime⟩, content, ?_⟩
      rw [apply, Tree.get?_update, if_pos rfl, found]
      rfl

def Disk.performAll (changes : List Change) (disk : Disk) : Disk :=
  changes.foldl (fun disk change => disk.perform change) disk

theorem Disk.performAll_hasFile {place : Location} {changes : List Change} {disk : Disk}
    (works : ∀ change ∈ changes, change.WorksOn place) (stands : disk.tree.HasFile place) :
    (disk.performAll changes).tree.HasFile place := by
  induction changes generalizing disk with
  | nil => exact stands
  | cons change rest ih =>
      have first : (disk.perform change).tree.HasFile place :=
        (works change List.mem_cons_self).hasFile stands
      exact ih (fun other later => works other (List.mem_cons_of_mem _ later)) first

/-- A file in progress whose temporary file is in its place. -/
structure ArrivingFile.Stands (arriving : ArrivingFile) (tree : Tree) : Prop where
  named : ∃ name, arriving.temporary.Named name
  file : tree.HasFile arriving.temporary.file
  target : arriving.name = selfName ∨ arriving.name.Plain

/-- Whether giving the file up removes it from a disk on which it was only worked on. -/
def ArrivingFile.Discards (arriving : ArrivingFile) (disk after : Disk) : Prop :=
  ∃ changes, (∀ change ∈ changes, change.WorksOn arriving.temporary.file) ∧
    arriving.temporary.discard after =
      (disk.performAll changes).perform (.removedFile arriving.temporary.file)

theorem ArrivingFile.Stands.discards {arriving : ArrivingFile} {disk : Disk}
    (stands : arriving.Stands disk.tree) {changes : List Change}
    (works : ∀ change ∈ changes, change.WorksOn arriving.temporary.file) :
    arriving.Discards disk (disk.performAll changes) := by
  obtain ⟨name, named⟩ := stands.named
  obtain ⟨attributes, content, left⟩ := Disk.performAll_hasFile works stands.file
  exact ⟨changes, works, Temporary.discard_standing named left⟩

/-- Whether a temporary file for an entry of the list was made and left to itself. -/
inductive Task.Strands (task : Task) (before after : Disk) : Prop
  | made {entry : ListEntry} {root parent : Location} {name : Name} {turn : Nat}
      {temporary : Temporary} (opened : task.root = some root) (listed : entry ∈ task.files)
      (kind : entry.isRegular = true) (seats : before.tree.Seats root entry.path parent name)
      (stranded : Temporary.Stranded before parent name turn temporary after)

theorem Downloading.onDisk_then {δ γ σ α β : Type} {before : Downloading δ γ σ}
    {done : α → Downloading δ γ σ → Prop} {failed : Fault → Downloading δ γ σ → Prop}
    {step : EStateM Fault Disk β} {rest : β → EStateM Fault (Downloading δ γ σ) α}
    {middle : β → Disk → Prop} {missed : Fault → Disk → Prop}
    (first : Meets step before.disk middle missed)
    (lost : ∀ cause disk, missed cause disk → failed cause { before with disk })
    (next : ∀ value disk, middle value disk →
      Meets (rest value) { before with disk } done failed) :
    Meets (Downloading.onDisk step >>= rest) before done failed :=
  Meets.withinThen first lost next

namespace FileCollector

variable {σ : Type} [ByteSource σ]

def finishing (downloader : FileCollector) (entry : ListEntry) (umask : UInt32)
    (file : Location) : List Change :=
  .setPermissions file (downloader.permissionsFor entry umask &&& 0o7777) ::
    if downloader.preserveTimes then [.setTime file entry.mtime] else []

theorem finishing_works (downloader : FileCollector) (entry : ListEntry) (umask : UInt32)
    (file : Location) :
    ∀ change ∈ downloader.finishing entry umask file, change.WorksOn file := by
  intro change listed
  rcases List.mem_cons.mp listed with rfl | later
  · exact .gavePermissions _
  · split at later
    · rw [List.mem_singleton] at later
      subst later
      exact .gaveTime _
    · cases later

def withReceived (downloader : FileCollector) (arriving : ArrivingFile) (entry : ListEntry) :
    FileCollector :=
  { downloader with
    received := downloader.received ++ [arriving.index]
    bytes := downloader.bytes + entry.size.toNat }

def headBytes (index : Nat) (blockLength checksumWidth remainder : Int32) : Bytes :=
  Wire.intBytes (Int32.ofNat index) ++ Wire.intBytes 0 ++ Wire.intBytes blockLength ++
    Wire.intBytes checksumWidth ++ Wire.intBytes remainder

def pieceBytes (content : Bytes) : Bytes :=
  Wire.intBytes (Int32.ofNat content.length) ++ content

/-- How a step of the downloader succeeds. -/
inductive Collects (task : Task) (before after : Downloading FileCollector ArrivingFile σ) :
    DownloadOutcome → Prop
  | ended (idle : before.pending = none) (pending : after.pending = none)
      (downloader : after.downloader = before.downloader) (disk : after.disk = before.disk)
      (taken : before.inflow.Takes (Wire.intBytes Wire.doneIndex) after.inflow) :
      Collects task before after .complete
  | began {arriving : ArrivingFile} {entry : ListEntry} {root parent : Location} {turn : Nat}
      {blockLength checksumWidth remainder : Int32} (idle : before.pending = none)
      (pending : after.pending = some arriving)
      (downloader : after.downloader = before.downloader)
      (opened : task.root = some root) (listed : task.files[arriving.index]? = some entry)
      (kind : entry.isRegular = true)
      (seats : before.disk.tree.Seats root entry.path parent arriving.name)
      (fresh : Temporary.Fresh before.disk parent arriving.name turn arriving.temporary)
      (empty : arriving.written = 0)
      (disk : after.disk = arriving.temporary.made turn before.disk)
      (taken : before.inflow.Takes
        (headBytes arriving.index blockLength checksumWidth remainder) after.inflow)
      (small : arriving.index < 0x80000000) : Collects task before after .ongoing
  | grew {arriving : ArrivingFile} {content : Bytes} (held : before.pending = some arriving)
      (pending : after.pending = some { arriving with written := arriving.written + content.length })
      (downloader : after.downloader = before.downloader)
      (disk : after.disk = before.disk.perform (.wroteFile arriving.temporary.file content))
      (taken : before.inflow.Takes (pieceBytes content) after.inflow)
      (more : content ≠ []) (fits : content.length ≤ maxPiece) :
      Collects task before after .ongoing
  | committed {arriving : ArrivingFile} {entry : ListEntry}
      (held : before.pending = some arriving) (pending : after.pending = none)
      (listed : task.files[arriving.index]? = some entry)
      (downloader : after.downloader = before.downloader.withReceived arriving entry)
      (size : arriving.written = entry.size.toNat) (plain : arriving.name.Plain)
      (free : arriving.name :: arriving.temporary.directory = arriving.temporary.file ∨
        ¬ (before.disk.performAll (before.downloader.finishing entry task.umask
          arriving.temporary.file)).tree.HasDirectory (arriving.name :: arriving.temporary.directory))
      (disk : after.disk = (before.disk.performAll (before.downloader.finishing entry task.umask
        arriving.temporary.file)).perform
          (.renamed arriving.temporary.file (arriving.name :: arriving.temporary.directory)))
      (taken : before.inflow.Takes (Wire.intBytes 0) after.inflow) :
      Collects task before after .ongoing

/-- How a step of the downloader fails. -/
inductive Loses (task : Task) (before after : Downloading FileCollector ArrivingFile σ) : Prop
  | idle {draws : Nat} (idle : before.pending = none) (pending : after.pending = none)
      (downloader : after.downloader = before.downloader) (later : before.disk.draws ≤ draws)
      (disk : after.disk = before.disk.drawnTo draws)
  | stranded (idle : before.pending = none) (pending : after.pending = none)
      (downloader : after.downloader = before.downloader)
      (strands : task.Strands before.disk after.disk)
  | gaveUp {arriving : ArrivingFile} {changes : List Change}
      (held : before.pending = some arriving) (pending : after.pending = none)
      (downloader : after.downloader = before.downloader)
      (works : ∀ change ∈ changes, change.WorksOn arriving.temporary.file)
      (disk : after.disk =
        (before.disk.performAll changes).perform (.removedFile arriving.temporary.file))

variable {before : Downloading FileCollector ArrivingFile σ}

section Lent

variable {α β : Type} {done : α → Downloading FileCollector ArrivingFile σ → Prop}
  {failed : Fault → Downloading FileCollector ArrivingFile σ → Prop}

theorem receive_then (before : Downloading FileCollector ArrivingFile σ)
    {read : EStateM Fault (Inflow σ) β} {rest : β → Step σ α} {bytes : β → Bytes} {taken : Bytes} {inflow : Inflow σ}
    (takes : ∀ value later, read inflow = .ok value later → inflow.Takes (bytes value) later)
    (earlier : before.inflow.Takes taken inflow)
    (lost : ∀ cause inflow, failed cause { before with inflow })
    (next : ∀ value later, before.inflow.Takes (taken ++ bytes value) later →
      Meets (rest value) { before with inflow := later } done failed) :
    Meets (Downloading.receive read >>= rest) { before with inflow } done failed := by
  have reads : Meets read inflow (fun value later => inflow.Takes (bytes value) later)
      (fun _ _ => True) := Meets.intro takes fun _ _ _ => trivial
  refine Meets.withinThen reads (fun cause later _ => lost cause later) ?_
  intro value later read
  exact next value later (earlier.trans read)

theorem receiveInt_then (before : Downloading FileCollector ArrivingFile σ)
    {rest : Int32 → Step σ α} {taken : Bytes} {inflow : Inflow σ}
    (earlier : before.inflow.Takes taken inflow)
    (lost : ∀ cause inflow, failed cause { before with inflow })
    (next : ∀ value later, before.inflow.Takes (taken ++ Wire.intBytes value) later →
      Meets (rest value) { before with inflow := later } done failed) :
    Meets (Downloading.receive Wire.readInt >>= rest) { before with inflow } done failed :=
  receive_then before (fun _ _ => Inflow.readInt_takes) earlier lost next

end Lent

theorem announced_ok {index : Int32} {files : List ListEntry} {position : Nat} {entry : ListEntry}
    (fine : announced index.toInt files = .ok (position, entry)) :
    files[position]? = some entry ∧ entry.isRegular = true ∧ Int32.ofNat position = index ∧
      position < 0x80000000 := by
  unfold announced at fine
  split at fine
  · cases fine
  · next positive =>
    split at fine
    · cases fine
    · next found =>
      split at fine
      · next regular =>
        cases fine
        have small := index.toInt_lt
        refine ⟨found, regular, ?_, by omega⟩
        rw [← Int32.ofInt_eq_ofNat, Int.toNat_of_nonneg (Int.not_lt.mp positive),
          Int32.ofInt_toInt]
      · cases fine

theorem begin_meets {task : Task} {index : Int32} {inflow : Inflow σ}
    (idle : before.pending = none) (taken : before.inflow.Takes (Wire.intBytes index) inflow) :
    Meets (begin index.toInt task) { before with inflow }
      (fun arriving after => Collects task before { after with pending := some arriving } .ongoing)
      (fun _ after => Loses task before after) := by
  have lost (inflow : Inflow σ) : Loses task before { before with inflow } :=
    .idle idle idle rfl (Nat.le_refl _) rfl
  refine Meets.ofExcept.followedBy (fun _ _ same => same ▸ lost inflow) ?_
  intro found _ met
  obtain ⟨position, entry⟩ := found
  obtain ⟨rfl, fine⟩ := met
  obtain ⟨listed, kind, rfl, small⟩ := announced_ok fine
  refine receiveInt_then before taken (fun _ => lost) fun blocks _ taken => ?_
  refine receiveInt_then before taken (fun _ => lost) fun blockLength _ taken => ?_
  refine receiveInt_then before taken (fun _ => lost) fun checksumWidth _ taken => ?_
  refine receiveInt_then before taken (fun _ => lost) fun remainder inflow taken => ?_
  split
  · exact Meets.throw (lost inflow)
  · next noBlocks =>
    have zero : blocks = 0 := Decidable.byContradiction noBlocks
    subst zero
    refine task.destination_meets.followedBy (fun _ _ same => same ▸ lost inflow) ?_
    intro root _ met
    obtain ⟨rfl, opened⟩ := met
    refine Downloading.onDisk_then (Disk.reach_meets entry.path) (fun _ _ same => same ▸ lost inflow) ?_
    intro seat _ met
    obtain ⟨parent, name⟩ := seat
    obtain ⟨rfl, seats⟩ := met
    refine Downloading.onDisk_then (Temporary.create_meets seats.noSlash) ?_ ?_
    · intro _ _ missed
      cases missed with
      | nothing later drawn => exact .idle idle idle rfl later drawn
      | stranded stranded =>
          have strands : task.Strands before.disk _ :=
            .made opened (List.mem_of_getElem? listed) kind seats stranded
          exact .stranded idle idle rfl strands
    · intro temporary _ met
      obtain ⟨turn, fresh, rfl⟩ := met
      refine Meets.changeThen (Meets.pure ?_)
      exact .began idle rfl rfl opened listed kind seats fresh rfl rfl (.reported taken _) small

theorem startNext_meets {task : Task} (idle : before.pending = none) :
    Meets (startNext task) before (fun outcome after => Collects task before after outcome)
      (fun _ after => Loses task before after) := by
  have lost (inflow : Inflow σ) : Loses task before { before with inflow } :=
    .idle idle idle rfl (Nat.le_refl _) rfl
  have start : before.inflow.Takes [] before.inflow := .nothing
  refine receiveInt_then before start (fun _ => lost) fun index inflow taken => ?_
  split
  · next last =>
    subst last
    refine Meets.get (Meets.changeThen (Meets.pure ?_))
    exact .ended idle idle rfl rfl (.reported taken _)
  · refine (begin_meets idle taken).followedBy (fun _ _ lost => lost) ?_
    intro arriving after begun
    exact Meets.changeThen (Meets.pure begun)

variable {arriving : ArrivingFile}

omit [ByteSource σ] in
theorem loses_of_discards {task : Task} {disk : Disk} {inflow : Inflow σ}
    (held : before.pending = some arriving) (discards : arriving.Discards before.disk disk) :
    Loses task before { before with pending := none, inflow, disk := abandon arriving disk } := by
  obtain ⟨changes, works, discarded⟩ := discards
  exact .gaveUp held rfl rfl works discarded

/-- A file that cannot be finished is left with some of the work done, or was removed. -/
theorem finish_meets {entry : ListEntry} {umask : UInt32} {disk : Disk}
    {downloader : FileCollector} (stands : arriving.Stands disk.tree) :
    Meets (do
        let file := arriving.temporary.file
        Disk.setPermissions file (downloader.permissionsFor entry umask)
        if downloader.preserveTimes then Disk.setTime file entry.mtime
        arriving.temporary.persist ⟨arriving.name⟩) disk
      (fun _ after =>
        let ready := disk.performAll (downloader.finishing entry umask arriving.temporary.file)
        let target := arriving.name :: arriving.temporary.directory
        arriving.name.Plain ∧
          (target = arriving.temporary.file ∨ ¬ ready.tree.HasDirectory target) ∧
          after = ready.perform (.renamed arriving.temporary.file target))
      (fun _ after => arriving.Discards disk after) := by
  obtain ⟨name, named⟩ := stands.named
  have works := finishing_works downloader entry umask arriving.temporary.file
  obtain ⟨attributes, content, left⟩ := Disk.performAll_hasFile works stands.file
  have removed : Meets (arriving.temporary.persist ⟨arriving.name⟩) (disk.performAll _) _
      (fun _ after => arriving.Discards disk after) :=
    (Temporary.persist_meets named left stands.target).mono (fun _ _ done => done) fun _ _ same =>
      ⟨_, works, by rw [same]; exact Temporary.discard_missing named (Change.get?_removedFile _)⟩
  refine (Disk.setPermissions_meets _).followedBy (fun _ _ same => ?_) ?_
  · exact same ▸ stands.discards (List.forall_mem_nil _)
  rintro _ _ rfl
  unfold finishing at removed ⊢
  split
  · next times =>
    rw [if_pos times] at removed
    refine (Disk.setTime_meets _ _).followedBy (fun _ _ same => ?_) ?_
    · exact same ▸ stands.discards (List.forall_mem_singleton.mpr (.gavePermissions _))
    · rintro _ _ rfl
      exact removed
  · next times =>
    rw [if_neg times] at removed
    exact removed

theorem commit_meets {task : Task} {entry : ListEntry} {inflow : Inflow σ}
    (held : before.pending = some arriving) (stands : arriving.Stands before.disk.tree)
    (listed : task.files[arriving.index]? = some entry)
    (taken : before.inflow.Takes (Wire.intBytes 0) inflow) :
    Meets (commit arriving entry task.umask) { before with pending := none, inflow }
      (fun _ after => Collects task before { after with pending := none } .ongoing)
      (fun _ after => Loses task before { after with disk := abandon arriving after.disk }) := by
  unfold commit
  split
  · exact Meets.throw (loses_of_discards held (stands.discards (List.forall_mem_nil _)))
  · next size =>
    refine Meets.get (Downloading.onDisk_then (finish_meets stands) ?_ ?_)
    · exact fun _ _ discards => loses_of_discards held discards
    · intro _ _ met
      obtain ⟨plain, free, rfl⟩ := met
      refine Meets.changeThen (Meets.change ?_)
      have whole : arriving.written = entry.size.toNat := Decidable.byContradiction size
      exact .committed held rfl listed rfl whole plain free rfl (.reported taken _)

theorem addPiece_meets {task : Task} {token : Int32} {inflow : Inflow σ}
    (held : before.pending = some arriving) (stands : arriving.Stands before.disk.tree)
    (positive : 0 < token.toInt) (fits : token.toInt.toNat ≤ maxPiece)
    (taken : before.inflow.Takes (Wire.intBytes token) inflow) :
    Meets (addPiece arriving token.toInt.toNat) { before with pending := none, inflow }
      (fun longer after => Collects task before { after with pending := some longer } .ongoing)
      (fun _ after => Loses task before { after with disk := abandon arriving after.disk }) := by
  have lost (inflow : Inflow σ) :
      Loses task before
        { before with pending := none, inflow, disk := abandon arriving before.disk } :=
    loses_of_discards held (stands.discards (List.forall_mem_nil _))
  refine receive_then { before with pending := none }
    (fun _ _ => Inflow.readUpTo_takes) taken (fun _ => lost) fun content inflow taken => ?_
  have discards (front : Bytes) : arriving.Discards before.disk
      (before.disk.perform (.wroteFile arriving.temporary.file front)) :=
    stands.discards (List.forall_mem_singleton.mpr (.wrote front))
  refine Downloading.onDisk_then (Disk.appendFile_meets _ _) ?_ ?_
  · rintro _ _ ⟨front, rfl⟩
    exact loses_of_discards held (discards front)
  rintro _ _ rfl
  split
  · exact Meets.throw (loses_of_discards held (discards content))
  · next long =>
    have whole : content.length = token.toInt.toNat := Decidable.byContradiction long
    have head : Int32.ofNat content.length = token := by
      rw [whole, ← Int32.ofInt_eq_ofNat, Int.toNat_of_nonneg (Int.le_of_lt positive),
        Int32.ofInt_toInt]
    have more : content ≠ [] := by
      intro empty
      rw [empty, List.length_nil] at whole
      omega
    rw [← head] at taken
    rw [← whole] at fits ⊢
    exact Meets.changeThen (Meets.pure (.grew held rfl rfl rfl (.reported taken _) more fits))

theorem goOn_meets {task : Task} (held : before.pending = some arriving)
    (stands : arriving.Stands before.disk.tree) :
    Meets (goOn arriving task) { before with pending := none }
      (fun pending after => Collects task before { after with pending } .ongoing)
      (fun _ after => Loses task before { after with disk := abandon arriving after.disk }) := by
  have lost (inflow : Inflow σ) :
      Loses task before
        { before with pending := none, inflow, disk := abandon arriving before.disk } :=
    loses_of_discards held (stands.discards (List.forall_mem_nil _))
  have start : before.inflow.Takes [] before.inflow := .nothing
  refine receiveInt_then { before with pending := none } start (fun _ => lost) ?_
  intro token inflow taken
  rw [List.nil_append] at taken
  dsimp only
  split
  · next zero =>
    have last : token = 0 := Int32.toInt_inj.mp zero
    subst last
    split
    · next entry listed =>
      refine (commit_meets held stands listed taken).bind fun _ after committed => ?_
      exact Meets.pure committed
    · exact Meets.throw (lost inflow)
  · next other =>
    split
    · exact Meets.throw (lost inflow)
    · next positive =>
      split
      · exact Meets.throw (lost inflow)
      · next fits =>
        refine (addPiece_meets held stands (by omega) (Nat.le_of_not_lt fits) taken).bind ?_
        intro longer after grown
        exact Meets.pure grown

/-- One step of the downloader, whatever it holds. -/
theorem advance_meets (task : Task)
    (stands : ∀ arriving, before.pending = some arriving → arriving.Stands before.disk.tree) :
    Meets (advance task) before (fun outcome after => Collects task before after outcome)
      (fun _ after => Loses task before after) := by
  refine Meets.get ?_
  cases held : before.pending with
  | none => exact startNext_meets held
  | some arriving =>
      refine Meets.changeThen (Meets.bind (Meets.onFailure (goOn_meets held (stands _ held))) ?_)
      intro pending after collected
      exact Meets.changeThen (Meets.pure collected)

end FileCollector

end TreeSync

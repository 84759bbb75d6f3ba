import TreeSync.Proofs.Transfer.Checking
import TreeSync.Proofs.Transfer.Overlay

namespace TreeSync

/-! What the uploader finds on its way through the list.

A survey goes through the entries in order. Each is found current, asked for, made or passed
over, as the tree stands when its turn comes; only a directory that is made changes the tree
that the next entry is looked up in. What keeps an entry from all of these is an obstacle.
-/

open TreeSync.Action

/-- Why a path beneath the root cannot be looked up. -/
inductive Disk.Unreachable (root : Location) (path : Path) (disk : Disk) : Fault → Prop
  | parent {fault : Fault} (stops : reach root path disk = .error fault disk) :
      Unreachable root path disk fault
  | name {parent : Location} {name : Name} {errno : Errno}
      (reached : reach root path disk = .ok (parent, name) disk)
      (refused : refusal? name = some errno) : Unreachable root path disk (.system errno)

/-- A path shows one node only. -/
theorem Tree.Shows.unique {tree : Tree} {root : Location} {path : Path} {node other : Node}
    (shows : tree.Shows root path node) (shows' : tree.Shows root path other) : node = other := by
  obtain ⟨_, _, place, placed, found⟩ := shows
  exact Option.some.inj (found.symm.trans (shows'.at placed))

theorem Disk.reach_error {root : Location} {path : Path} {disk after : Disk} {fault : Fault}
    (stops : reach root path disk = .error fault after) : after = disk :=
  ((reach_meets path).of_error stops).symm

theorem Disk.reach_ok {root parent : Location} {path : Path} {name : Name} {disk after : Disk}
    (reached : reach root path disk = .ok (parent, name) after) :
    after = disk ∧ disk.tree.Seats root path parent name := by
  obtain ⟨rfl, seats⟩ := (reach_meets path).of_ok reached
  exact ⟨rfl, seats⟩

theorem Disk.refusal?_kind {name : Name} {errno : Errno} (refused : refusal? name = some errno) :
    (Fault.system errno).kind ≠ .notFound := by
  unfold refusal? at refused
  split at refused
  · cases refused
  · split at refused
    · cases refused
      decide
    · split at refused
      · cases refused
        decide
      · cases refused

namespace Standing

variable {root : Location} {path : Path} {disk : Disk}

/-- What a lookup finds is what the path shows, and it only gives up where the path cannot
be followed for another reason than that something is missing. -/
theorem find_ends (root : Location) (path : Path) (disk : Disk) :
    Meets (find root path) disk
      (fun standing after => disk = after ∧
        (standing = .missing ∧ (∀ node, ¬ disk.tree.Shows root path node) ∨
          ∃ node, standing = .ofNode node ∧ disk.tree.Shows root path node) ∧
        ∀ fault, Disk.Unreachable root path disk fault → fault.kind = .notFound)
      (fun fault after => disk = after ∧ Disk.Unreachable root path disk fault ∧
        fault.kind ≠ .notFound) := by
  refine Meets.intro (fun standing after ran => ?_) fun fault after ran => ?_
  · obtain ⟨rfl, found⟩ := find_shows.of_ok ran
    refine ⟨rfl, ?_, fun fault unreachable => ?_⟩
    · refine found.imp (fun missing => ⟨missing, fun node shows => ?_⟩) id
      rw [find_of_shows shows, missing] at ran
      cases node <;> cases ran
    · cases unreachable with
      | parent stops =>
          refine Decidable.byContradiction fun other => ?_
          rw [find_stopped stops other] at ran
          cases ran
      | name reached refused =>
          rw [find_reached reached, refused] at ran
          cases ran
  · cases reached : Disk.reach root path disk with
    | error cause middle =>
        obtain rfl := Disk.reach_error reached
        by_cases missing : cause.kind = .notFound
        · rw [find_missing reached missing] at ran
          cases ran
        · rw [find_stopped reached missing] at ran
          cases ran
          exact ⟨rfl, .parent reached, missing⟩
    | ok seat middle =>
        obtain ⟨parent, name⟩ := seat
        obtain ⟨rfl, -⟩ := Disk.reach_ok reached
        rw [find_reached reached] at ran
        cases refused : Disk.refusal? name with
        | none =>
            rw [refused] at ran
            cases ran
        | some errno =>
            rw [refused] at ran
            cases ran
            exact ⟨rfl, .name reached refused, Disk.refusal?_kind refused⟩

end Standing

/-- Where a path shows nothing, its directory is made, unless the path cannot be followed. -/
theorem Disk.makeMissing_meets {root : Location} {path : Path} {disk : Disk}
    (permissions : UInt32) (cleared : disk.umask = 0) (stands : disk.tree.HasDirectory root)
    (missing : ∀ node, ¬ disk.tree.Shows root path node) :
    Meets (do
        let (parent, name) ← reach root path
        makeDirectory parent name permissions) disk
      (fun _ after => ∃ parent name, path.placeBeneath root = some (name :: parent) ∧
        disk.tree.HasDirectory parent ∧ disk.tree.get? (name :: parent) = none ∧
        after = disk.perform (.madeDirectory (name :: parent)
          (permissions ||| disk.inheritedMark parent)))
      (fun fault after => disk = after ∧ Unreachable root path disk fault) := by
  have reaches : Meets (reach root path) disk
      (fun seat after => reach root path disk = .ok seat disk ∧ disk = after ∧
        path.PassableTo seat.2 ∧ disk.tree.Seats root path seat.1 seat.2)
      (fun fault after => disk = after ∧ Unreachable root path disk fault) := by
    refine Meets.intro (fun seat after ran => ?_) fun fault after ran => ?_
    · obtain ⟨rfl, passes, seats⟩ := parentBeneath_finds.of_ok (of_explaining_ok ran)
      exact ⟨ran, rfl, passes, seats⟩
    · obtain rfl := reach_error ran
      exact ⟨rfl, .parent ran⟩
  refine reaches.bind ?_
  rintro ⟨parent, name⟩ _ ⟨reached, rfl, passes, seats⟩
  dsimp only at passes seats ⊢
  have looked := nodeAt_eq parent name disk
  have vacant (accepted : refusal? name = none) : disk.tree.get? (seatOf parent name) = none := by
    cases found : disk.tree.get? (seatOf parent name) with
    | none => rfl
    | some node =>
        rw [accepted, found] at looked
        exact absurd ((nodeAt_shows passes seats).of_ok looked).2 (missing node)
  by_cases itself : name = selfName
  · have here : seatOf parent name = root := by
      cases seats with
      | itself => exact if_pos rfl
      | entry _ plain _ => exact absurd itself plain.notSelf
    obtain ⟨attributes, found⟩ := stands
    have absent := vacant (if_pos itself)
    rw [here, found] at absent
    cases absent
  · have makes := makeDirectory_eq parent permissions disk itself
    have seat : seatOf parent name = name :: parent := if_neg itself
    cases refused : refusal? name with
    | some errno =>
        rw [refused] at makes
        exact Meets.congr makes ⟨rfl, .name reached refused⟩
    | none =>
        have free := vacant refused
        rw [seat] at free
        rw [refused, free, cleared] at makes
        refine Meets.congr makes ⟨parent, name, seats.place itself, ?_, free, by simp⟩
        by_cases top : parent = root
        · exact top ▸ stands
        · exact seats.leads.hasDirectory top

namespace FileRequester

/-- What an entry is found to be when its turn comes. -/
inductive Finding where
  /-- Nothing is to be done about it. -/
  | passed
  /-- A file with its size and time is there. -/
  | current
  /-- Its content is asked for. -/
  | asked
  /-- Its directory was missing and is made. -/
  | made
deriving DecidableEq

variable {task : Task} {root : Location} {recursive : Bool} {entry : ListEntry}

/-- Whether the directory of an entry is to be there. -/
def Wanted (recursive : Bool) (entry : ListEntry) : Prop :=
  entry.isDirectory = true ∧ recursive = true ∧ entry.isRoot = false

/-- What directories are made with in a directory: the mask is heeded, and the mark of the
directory above is handed on. -/
def granted (task : Task) (disk : Disk) (directory : Location) : UInt32 :=
  directoryPermissions &&& ~~~task.umask ||| disk.inheritedMark directory

/-- How the uploader finds an entry on a disk, and what it makes of the disk. -/
inductive Finds (task : Task) (root : Location) (recursive : Bool) (entry : ListEntry)
    (disk : Disk) : Finding → Disk → Prop
  | passed (irregular : entry.isRegular = false)
      (there : Wanted recursive entry →
        ∃ attributes, disk.tree.Shows root entry.path (.directory attributes)) :
      Finds task root recursive entry disk .passed disk
  | current (regular : entry.isRegular = true) (inPlace : entry.InPlace root disk.tree) :
      Finds task root recursive entry disk .current disk
  | asked (regular : entry.isRegular = true) (stale : ¬ entry.InPlace root disk.tree)
      (noDirectory : ∀ attributes, ¬ disk.tree.Shows root entry.path (.directory attributes))
      (open_ : ∀ fault, Disk.Unreachable root entry.path disk fault → fault.kind = .notFound) :
      Finds task root recursive entry disk .asked disk
  | made {parent : Location} {name : Name} (wanted : Wanted recursive entry)
      (missing : ∀ node, ¬ disk.tree.Shows root entry.path node)
      (place : entry.path.placeBeneath root = some (name :: parent))
      (stands : disk.tree.HasDirectory parent)
      (free : disk.tree.get? (name :: parent) = none) :
      Finds task root recursive entry disk .made
        (disk.perform (.madeDirectory (name :: parent) (granted task disk parent)))

/-- What the uploader cannot get past, and the fault it ends with. -/
inductive Obstacle (root : Location) (recursive : Bool) (index : Nat) (entry : ListEntry)
    (disk : Disk) : Fault → Prop
  | unreachable {fault : Fault}
      (needed : entry.isRegular = true ∧ fault.kind ≠ .notFound ∨ Wanted recursive entry)
      (unreachable : Disk.Unreachable root entry.path disk fault) :
      Obstacle root recursive index entry disk fault
  | directoryThere {attributes : Attributes} (regular : entry.isRegular = true)
      (shows : disk.tree.Shows root entry.path (.directory attributes)) :
      Obstacle root recursive index entry disk (.destinationIsDirectory entry.path)
  | notDirectory {node : Node} (wanted : Wanted recursive entry)
      (shows : disk.tree.Shows root entry.path node) (other : node.isDirectory = false) :
      Obstacle root recursive index entry disk (.destinationNotDirectory entry.path)
  | overflow (regular : entry.isRegular = true) (stale : ¬ entry.InPlace root disk.tree)
      (large : 0x80000000 ≤ index) : Obstacle root recursive index entry disk .indexOverflow

namespace Finding

variable {κ : Type}

/-- What the uploader notes of an entry. -/
def note (finding : Finding) (index : Nat) (uploader : FileRequester) : FileRequester :=
  match finding with
  | .asked => { uploader with requested := uploader.requested ++ [index] }
  | .current => { uploader with upToDate := uploader.upToDate ++ [index] }
  | .passed | .made => uploader

def mark (finding : Finding) (index : Nat) (marks : NewDirectories) : NewDirectories :=
  if finding = .made then marks.mark index else marks

/-- What the uploader says about an entry. -/
def words (finding : Finding) (checksum : ChecksumStrength) (index : Nat) : List Int32 :=
  if finding = .asked then Speech.ask checksum index else []

end Finding

variable {κ : Type} {before middle after : Uploading FileRequester κ}

/-- What stays where a step only reports: all but the journal. -/
structure Unmoved (before after : Uploading FileRequester κ) : Prop where
  uploader : after.uploader = before.uploader
  cursor : after.cursor = before.cursor
  newDirectories : after.newDirectories = before.newDirectories
  connection : after.connection = before.connection
  disk : after.host.disk = before.host.disk
  secondary : after.secondary = before.secondary

theorem Unmoved.refl (before : Uploading FileRequester κ) : Unmoved before before :=
  ⟨rfl, rfl, rfl, rfl, rfl, rfl⟩

/-- What dealing with an entry comes to, once it was found to be something. -/
structure Handles (sent : κ → Bytes → Prop) (task : Task) (root : Location) (index : Nat)
    (entry : ListEntry) (said : Bytes) (finding : Finding)
    (before after : Uploading FileRequester κ) : Prop where
  finds : Finds task root before.uploader.recursive entry before.host.disk finding after.host.disk
  cursor : after.cursor = before.cursor
  secondary : after.secondary = before.secondary
  uploader : after.uploader = finding.note index before.uploader
  newDirectories : after.newDirectories = finding.mark index before.newDirectories
  sent : sent after.connection (said ++ Speech.bytes (finding.words task.checksum index))

variable {sent : κ → Bytes → Prop} {said : Bytes} {index : Nat}

/-- An entry about which nothing is noted and nothing said. -/
theorem Handles.passed (unmoved : Unmoved before after) (held : sent before.connection said)
    (irregular : entry.isRegular = false)
    (there : Wanted before.uploader.recursive entry →
      ∃ attributes, before.host.disk.tree.Shows root entry.path (.directory attributes)) :
    Handles sent task root index entry said .passed before after where
  finds := by
    rw [unmoved.disk]
    exact .passed irregular there
  cursor := unmoved.cursor
  secondary := unmoved.secondary
  uploader := unmoved.uploader
  newDirectories := unmoved.newDirectories
  sent := by
    rw [unmoved.connection]
    simpa [Finding.words, Speech.bytes] using held

theorem lookup_ends (root : Location) (path : Path) (before : Uploading FileRequester κ) :
    Meets (Uploading.onHost (Host.onDisk (Standing.find root path))) before
      (fun standing after => before = after ∧
        (standing = .missing ∧ (∀ node, ¬ before.host.disk.tree.Shows root path node) ∨
          ∃ node, standing = .ofNode node ∧ before.host.disk.tree.Shows root path node) ∧
        ∀ fault, Disk.Unreachable root path before.host.disk fault → fault.kind = .notFound)
      (fun fault after => before = after ∧ Disk.Unreachable root path before.host.disk fault ∧
        fault.kind ≠ .notFound) := by
  refine Meets.within (Meets.within ((Standing.find_ends root path before.host.disk).mono ?_ ?_))
  · rintro standing _ ⟨rfl, found, open_⟩
    exact ⟨rfl, found, open_⟩
  · rintro fault _ ⟨rfl, unreachable, other⟩
    exact ⟨rfl, unreachable, other⟩

section

variable (opened : task.root = some root) (cleared : before.host.disk.umask = 0)
  (stands : before.host.disk.tree.HasDirectory root) (held : sent before.connection said)

include cleared stands held

theorem prepareDirectory_surveys (wanted : Wanted before.uploader.recursive entry)
    (irregular : entry.isRegular = false) :
    Meets (prepareDirectory index entry.path task root) before
      (fun _ after => ∃ finding, Handles sent task root index entry said finding before after)
      (fun fault after =>
        Obstacle root before.uploader.recursive index entry before.host.disk fault ∧
          Unmoved before after) := by
  refine (lookup_ends root entry.path before).followedBy ?_ ?_
  · rintro fault _ ⟨rfl, unreachable, -⟩
    exact ⟨.unreachable (.inr wanted) unreachable, .refl before⟩
  rintro standing _ ⟨rfl, found, -⟩
  rcases found with ⟨rfl, missing⟩ | ⟨node, rfl, shows⟩
  · have makes : Meets (Uploading.onHost <| Host.onDisk do
          let (parent, name) ← Disk.reach root entry.path
          Disk.makeDirectory parent name (directoryPermissions &&& ~~~task.umask)) before
        (fun _ after => ∃ disk, after = { before with host := { before.host with disk } } ∧
          Finds task root before.uploader.recursive entry before.host.disk .made disk)
        (fun fault after => before = after ∧
          Disk.Unreachable root entry.path before.host.disk fault) := by
      have whole := Disk.makeMissing_meets (directoryPermissions &&& ~~~task.umask) cleared stands
        missing
      refine Meets.within (Meets.within (whole.mono ?_ ?_))
      · rintro _ _ ⟨parent, name, place, above, free, rfl⟩
        exact ⟨_, rfl, .made wanted missing place above free⟩
      · rintro fault _ ⟨rfl, unreachable⟩
        exact ⟨rfl, unreachable⟩
    refine makes.followedBy ?_ ?_
    · rintro fault _ ⟨rfl, unreachable⟩
      exact ⟨.unreachable (.inr wanted) unreachable, .refl before⟩
    · rintro _ _ ⟨disk, rfl, finds⟩
      refine Meets.changeThen ⟨.made, finds, rfl, rfl, rfl, rfl, ?_⟩
      simpa [Finding.words, Speech.bytes] using held
  · cases node with
    | directory attributes =>
        exact Meets.pure ⟨.passed, .passed (.refl before) held irregular fun _ => ⟨attributes, shows⟩⟩
    | file | link | fifo => exact Meets.throw ⟨.notDirectory wanted shows rfl, .refl before⟩

include opened

theorem examineDirectory_surveys (acts : before.uploader.dryRun = false)
    (directory : entry.isDirectory = true) (irregular : entry.isRegular = false) :
    Meets (examineDirectory index entry task) before
      (fun _ after => ∃ finding, Handles sent task root index entry said finding before after)
      (fun fault after =>
        Obstacle root before.uploader.recursive index entry before.host.disk fault ∧
          Unmoved before after) := by
  refine Meets.get (Meets.cond (fun flat => ?_) fun deep => Meets.cond (fun skips => ?_) fun _ => ?_)
  · refine ⟨.passed, .passed ⟨rfl, rfl, rfl, rfl, rfl, rfl⟩ held irregular fun wanted => ?_⟩
    cases flat.symm.trans wanted.2.1
  · refine Meets.pure ⟨.passed, .passed (.refl before) held irregular fun wanted => ?_⟩
    rw [wanted.2.2, acts] at skips
    cases skips
  · have wanted : Wanted before.uploader.recursive entry := by
      refine ⟨directory, by simpa using deep, ?_⟩
      simp_all
    have ready : (ofExcept task.destination : EStateM Fault (Uploading FileRequester κ) Location)
        before = .ok root before := by
      rw [Task.destination, opened]
      rfl
    exact Meets.congr (bind_ok ready)
      (prepareDirectory_surveys cleared stands held wanted irregular)

end

section

variable [ByteSink κ]

theorem requestFile_surveys (accepts : ByteSink.Accepts sent) (held : sent before.connection said)
    (small : index < 0x80000000) :
    Meets (requestFile index entry task) before
      (fun _ after => ∃ connection journal, after = { before with
          connection, uploader := Finding.asked.note index before.uploader
          host := { before.host with journal } } ∧
        sent connection (said ++ Speech.bytes (Speech.ask task.checksum index)))
      (fun _ _ => False) := by
  have whole : (request index task.checksum).refusal = none := rfl
  refine Meets.cond (fun large => absurd small (Nat.not_lt.mpr large)) fun _ => ?_
  refine (send_meets accepts whole held).bind ?_
  rintro _ _ ⟨connection, said, rfl⟩
  rw [request_bytes] at said
  exact Meets.changeThen ⟨connection, _, rfl, said⟩

theorem examineFile_surveys (accepts : ByteSink.Accepts sent) (opened : task.root = some root)
    (acts : before.uploader.dryRun = false) (held : sent before.connection said)
    (regular : entry.isRegular = true) :
    Meets (examineFile index entry task) before
      (fun _ after => ∃ finding, Handles sent task root index entry said finding before after)
      (fun fault after =>
        Obstacle root before.uploader.recursive index entry before.host.disk fault ∧
          Unmoved before after) := by
  have ready : (ofExcept task.destination : EStateM Fault (Uploading FileRequester κ) Location)
      before = .ok root before := by
    rw [Task.destination, opened]
    rfl
  refine Meets.get (Meets.cond (fun dry => ?_) fun _ => Meets.congr (bind_ok ready) ?_)
  · cases acts.symm.trans dry
  refine (lookup_ends root entry.path before).followedBy ?_ ?_
  · rintro fault _ ⟨rfl, unreachable, other⟩
    exact ⟨.unreachable (.inl ⟨regular, other⟩) unreachable, .refl before⟩
  rintro standing _ ⟨rfl, found, open_⟩
  refine Meets.cond (fun fits => ?_) fun stale => Meets.cond (fun directory => ?_) fun other => ?_
  · rcases found with ⟨rfl, -⟩ | ⟨node, rfl, shows⟩
    · cases of_decide_eq_true fits
    · refine Meets.changeThen ⟨.current, ?_, rfl, rfl, rfl, rfl, ?_⟩
      · exact .current regular (inPlace_of_upToDate shows fits)
      · simpa [Finding.words, Speech.bytes] using held
  · rcases found with ⟨rfl, -⟩ | ⟨node, rfl, shows⟩
    · cases directory
    · cases node with
      | directory attributes => exact Meets.throw ⟨.directoryThere regular shows, .refl before⟩
      | file | link | fifo => cases directory
  · have aged : ¬ entry.InPlace root before.host.disk.tree := by
      rintro ⟨attributes, content, shows, size, time⟩
      rcases found with ⟨-, missing⟩ | ⟨node, rfl, shows'⟩
      · exact missing _ shows
      · cases shows.unique shows'
        exact stale (by simp [Standing.upToDate, Standing.ofNode, size, time])
    have noDirectory (attributes : Attributes) :
        ¬ before.host.disk.tree.Shows root entry.path (.directory attributes) := by
      intro shows
      rcases found with ⟨-, missing⟩ | ⟨node, rfl, shows'⟩
      · exact missing _ shows
      · cases shows.unique shows'
        exact other rfl
    by_cases large : 0x80000000 ≤ index
    · have refused : requestFile index entry task before = .error .indexOverflow before := by
        rw [requestFile, if_pos large]
        rfl
      exact Meets.congr refused ⟨.overflow regular aged large, .refl before⟩
    · refine (requestFile_surveys accepts held (Nat.lt_of_not_le large)).mono ?_
        fun _ _ => False.elim
      rintro _ _ ⟨connection, journal, rfl, sent⟩
      exact ⟨.asked, .asked regular aged noDirectory open_, rfl, rfl, rfl, rfl, sent⟩

/-- What becomes of one entry. -/
theorem examine_surveys (accepts : ByteSink.Accepts sent) (opened : task.root = some root)
    (acts : before.uploader.dryRun = false) (cleared : before.host.disk.umask = 0)
    (stands : before.host.disk.tree.HasDirectory root) (held : sent before.connection said) :
    Meets (examine index entry task) before
      (fun _ after => ∃ finding, Handles sent task root index entry said finding before after)
      (fun fault after =>
        Obstacle root before.uploader.recursive index entry before.host.disk fault ∧
          Unmoved before after) := by
  refine Meets.cond (fun directory => ?_) fun other =>
    Meets.cond (examineFile_surveys accepts opened acts held) fun irregular => ?_
  · refine examineDirectory_surveys opened cleared stands held acts directory ?_
    simp only [ListEntry.isDirectory, decide_eq_true_eq] at directory
    simp [ListEntry.isRegular, directory, Mode.directory, Mode.regular]
  · refine ⟨.passed, .passed ⟨rfl, rfl, rfl, rfl, rfl, rfl⟩ held (by simpa using irregular) ?_⟩
    exact fun wanted => absurd wanted.1 other

end

end FileRequester

end TreeSync

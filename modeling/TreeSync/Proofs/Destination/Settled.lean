import TreeSync.Proofs.Destination.Reach
import TreeSync.Proofs.Disk.Showing

namespace TreeSync

/-! Directories that have the times and permissions of the list.

Fixing up gives a directory what the list says and touches nothing else, so a directory that
was fixed up keeps what it got. Fixing it up again changes nothing.
-/

open TreeSync.Action

section Shown

variable {tree before after : Tree} {root place : Location} {path : Path}

/-- What leads to an entry leads to the directory that it stands in. -/
theorem Tree.Leads.up {name : Name} {parent : Location} (leads : tree.Leads root (name :: parent))
    (inner : name :: parent ≠ root) : tree.Leads root parent := by
  generalize reached : name :: parent = place at leads
  cases leads with
  | here => exact absurd reached inner
  | down leads _ =>
      cases reached
      exact leads

theorem Path.Passable.seats (passable : path.Passable)
    (placed : path.placeBeneath root = some place) (leads : tree.Leads root place) :
    ∃ parent name, tree.Seats root path parent name := by
  obtain ⟨names, down, sound⟩ := passable
  cases (Path.placeBeneath_of_descent root down).symm.trans placed
  rcases names.eq_nil_or_concat with rfl | ⟨above, last, spelled⟩
  · exact ⟨_, _, .itself placed⟩
  · rw [List.concat_eq_append] at spelled
    subst spelled
    have spelled : (above ++ [last]).reverse ++ root = last :: (above.reverse ++ root) := by simp
    rw [spelled] at leads placed
    have plain := (sound last (List.mem_append_right _ List.mem_cons_self)).toPlain
    have inner : last :: (above.reverse ++ root) ≠ root := fun same => by
      have longer := congrArg List.length same
      simp only [List.length_cons, List.length_append] at longer
      omega
    exact ⟨_, _, .entry (leads.up inner) plain placed⟩

theorem Tree.Leads.stands (leads : tree.Leads root place) (stands : tree.HasDirectory root) :
    tree.HasDirectory place := by
  cases leads with
  | here => exact stands
  | down _ stands => exact stands

/-- What a change to the attributes of the directory at a path does to a tree. -/
structure Tree.Refits (root : Location) (path : Path) (before after : Tree) : Prop where
  elsewhere : ∀ place, path.placeBeneath root ≠ some place → after.get? place = before.get? place
  directories : ∀ place, before.HasDirectory place → after.HasDirectory place
  files : ∀ place attributes content, before.get? place = some (.file attributes content) →
    after.get? place = some (.file attributes content)

theorem Tree.Refits.accumulates (root : Location) (path : Path) :
    Accumulates (Tree.Refits root path) where
  refl _ := ⟨fun _ _ => rfl, fun _ => id, fun _ _ _ => id⟩
  trans earlier later :=
    { elsewhere := fun place apart =>
        (later.elsewhere place apart).trans (earlier.elsewhere place apart)
      directories := fun place stands => later.directories place (earlier.directories place stands)
      files := fun place attributes content found =>
        later.files place attributes content (earlier.files place attributes content found) }

theorem Tree.refits_update {attributes : Attributes} (alter : Attributes → Attributes)
    (placed : path.placeBeneath root = some place)
    (found : tree.get? place = some (.directory attributes)) :
    Tree.Refits root path tree (tree.update place (Node.mapAttributes alter)) where
  elsewhere other apart := by
    rw [Tree.get?_update, if_neg fun same : other = place => apart (same ▸ placed)]
  directories other stands := by
    unfold HasDirectory
    rw [Tree.get?_update]
    split
    · next same =>
      rw [same, found]
      exact ⟨_, rfl⟩
    · exact stands
  files other attributes content there := by
    rw [Tree.get?_update, if_neg]
    · exact there
    · rintro rfl
      rw [found] at there
      cases there

/-- A path that shows another node than the one that was refitted still shows it. -/
theorem Tree.Refits.shows {other : Path} {node : Node} (refits : Tree.Refits root path before after)
    (apart : ∀ place, path.placeBeneath root = some place → other.placeBeneath root ≠ some place)
    (shows : before.Shows root other node) : after.Shows root other node :=
  shows.mono refits.directories fun place placed found => by
    rw [refits.elsewhere place fun same => apart place same placed]
    exact found

end Shown

/-- A call on an open directory that alters its attributes, unless the system refuses it. -/
structure Disk.Alters (apply : Location → EStateM Fault Disk Unit)
    (alter : Attributes → Attributes) : Prop where
  alters : ∀ place disk, Meets (apply place) disk
    (fun _ after => after.tree = disk.tree.update place (Node.mapAttributes alter))
    (fun _ _ => True)
  granted : ∀ place disk, disk.Adornable → ∃ after, apply place disk = .ok () after ∧
    after.refusals = disk.refusals

theorem Disk.setTime_alters (mtime : Int64) :
    Disk.Alters (Disk.setTime · mtime) fun attributes => { attributes with mtime } where
  alters place _ := (setTime_meets place mtime).mono (fun _ _ same => by rw [same]; rfl)
    fun _ _ _ => trivial
  granted _ _ grants := ⟨_, setTime_ok (grants.times _ _ _), rfl⟩

theorem Disk.setPermissions_alters (permissions : UInt32) :
    Disk.Alters (Disk.setPermissions · permissions)
      fun attributes => { attributes with permissions := permissions &&& 0o7777 } where
  alters place _ := (setPermissions_meets place).mono (fun _ _ same => by rw [same]; rfl)
    fun _ _ _ => trivial
  granted _ _ grants := ⟨_, setPermissions_ok (grants.permissions _ _ _), rfl⟩

/-- A tree that looks as another does everywhere. -/
def Tree.Same (before after : Tree) : Prop :=
  ∀ place, after.get? place = before.get? place

theorem Tree.Same.accumulates : Accumulates Tree.Same :=
  ⟨fun _ _ => rfl, fun earlier later place => (later place).trans (earlier place)⟩

theorem Tree.Same.shows {before after : Tree} {root : Location} {path : Path} {node : Node}
    (same : before.Same after) (shows : before.Shows root path node) :
    after.Shows root path node :=
  shows.mono (fun place stands => by unfold HasDirectory; rw [same place]; exact stands)
    fun place _ found => (same place).trans found

namespace RootedDisk

variable {path : Path} {apply : Location → EStateM Fault Disk Unit}
  {alter : Attributes → Attributes} {rooted : RootedDisk}

/-- A directory that was opened and changed is shown with its new attributes. -/
theorem change_refits (alters : Disk.Alters apply alter)
    (stands : rooted.disk.tree.HasDirectory rooted.root) :
    Meets (change path apply) rooted
      (fun _ after => after.root = rooted.root ∧
        Tree.Refits rooted.root path rooted.disk.tree after.disk.tree ∧
        ∃ attributes, rooted.disk.tree.Shows rooted.root path (.directory attributes) ∧
          after.disk.tree.Shows rooted.root path (.directory (alter attributes)))
      (fun _ _ => True) := by
  unfold change
  change Meets (within RootedDisk.disk _ _) rooted _ _
  have opens : Meets (Disk.openBeneath rooted.root path) rooted.disk
      (fun place disk => rooted.disk = disk ∧ path.Passable ∧
        path.placeBeneath rooted.root = some place ∧ disk.tree.Leads rooted.root place)
      (fun _ _ => True) :=
    Meets.intro (fun place disk ran => by
      obtain ⟨same, placed, leads⟩ := (Disk.openBeneath_meets path).of_ok ran
      exact ⟨same, (Disk.openBeneath_passes.of_ok ran).2, placed, same ▸ leads⟩) fun _ _ _ => trivial
  refine Meets.within (opens.followedBy (fun _ _ _ => trivial) ?_)
  rintro place _ ⟨rfl, passable, placed, leads⟩
  refine (alters.alters place rooted.disk).mono (fun _ after changed => ?_) fun _ _ _ => trivial
  obtain ⟨attributes, found⟩ := leads.stands stands
  have shows : rooted.disk.tree.Shows rooted.root path (.directory attributes) :=
    ⟨passable, passable.seats placed leads, place, placed, found⟩
  have refits := Tree.refits_update alter placed found
  refine ⟨rfl, changed ▸ refits, attributes, shows, ?_⟩
  rw [show ({ rooted with disk := after } : RootedDisk).disk.tree = _ from changed]
  refine shows.mono refits.directories fun other there _ => ?_
  cases placed.symm.trans there
  rw [Tree.get?_update, if_pos rfl, found]
  rfl

/-- What a step leaves alone that finds nothing to fix. -/
structure Stays (before after : RootedDisk) : Prop where
  root : after.root = before.root
  same : before.disk.tree.Same after.disk.tree
  refusals : after.disk.refusals = before.disk.refusals

theorem Stays.accumulates : Accumulates Stays where
  refl _ := ⟨rfl, fun _ => rfl, rfl⟩
  trans earlier later :=
    ⟨later.root.trans earlier.root, Tree.Same.accumulates.trans earlier.same later.same,
      later.refusals.trans earlier.refusals⟩

/-- A directory that has these attributes already stays as it is. -/
theorem change_rests (alters : Disk.Alters apply alter) {attributes : Attributes}
    (grants : rooted.disk.Adornable)
    (shows : rooted.disk.tree.Shows rooted.root path (.directory attributes))
    (same : alter attributes = attributes) :
    ∃ after, change path apply rooted = .ok () after ∧ Stays rooted after := by
  obtain ⟨place, opened, placed, found⟩ := Disk.openBeneath_shows shows
  obtain ⟨after, ran, refusals⟩ := alters.granted place rooted.disk grants
  have changed := (alters.alters place rooted.disk).of_ok ran
  have whole : (Disk.openBeneath rooted.root path >>= apply) rooted.disk = .ok () after :=
    (bind_ok opened).trans ran
  refine ⟨{ rooted with disk := after }, ?_, rfl, fun other => ?_, refusals⟩
  · unfold change
    change within RootedDisk.disk (fun disk rooted => { rooted with disk })
      (Disk.openBeneath rooted.root path >>= apply) rooted = _
    unfold within
    rw [whole]
  · rw [show ({ rooted with disk := after } : RootedDisk).disk.tree = _ from changed,
      Tree.get?_update]
    split
    · next here =>
      rw [here, found, Option.map_some, Node.mapAttributes, same]
    · rfl

end RootedDisk

namespace Destination

variable {options : FixupOptions} {root : Location} {files : List ListEntry} {entry : ListEntry}
  {marks : NewDirectories} {now : Fixing RootedDisk}

/-- Whether the directory that is shown where the entry is to go needs no more fixing. -/
def Settled (options : FixupOptions) (root : Location) (tree : Tree) (entry : ListEntry) : Prop :=
  ∃ attributes, tree.Shows root entry.path (.directory attributes) ∧
    (options.preserveTimes = true → attributes.mtime = entry.mtime) ∧
    (options.preservePermissions = true → attributes.permissions = entry.permissions &&& 0o7777)

theorem Settled.of_same {before after : Tree} (settled : Settled options root before entry)
    (same : before.Same after) : Settled options root after entry := by
  obtain ⟨attributes, shows, rest⟩ := settled
  exact ⟨attributes, same.shows shows, rest⟩

theorem fixOne_meets {step report : String} {path : Path} {call : EStateM Fault RootedDisk Unit}
    {done : RootedDisk → Prop} {lost : Prop}
    (calls : Meets call now.keeper (fun _ after => done after) (fun _ _ => lost)) :
    Meets (fixOne step path call report) now (fun _ after => done after.keeper)
      (fun _ _ => lost) := by
  have explained : Meets (explaining (Failure.filesystem step path)
      (within Fixing.keeper (fun keeper fixing => { fixing with keeper }) call)) now
      (fun _ after => done after.keeper) (fun _ _ => lost) :=
    Meets.explaining (Meets.within calls)
  exact explained.bind fun _ _ held => Meets.change held

/-- Fixing up a directory settles it and leaves all the others as they were. -/
theorem fixEntry_settles (times : options.preserveTimes = true) (done : Fixups) (index : Nat)
    (stands : now.keeper.disk.tree.HasDirectory now.keeper.root)
    (kind : entry.isDirectory = true) :
    Meets (fixEntry options marks done (entry, index)) now
      (fun _ after => after.keeper.root = now.keeper.root ∧
        Tree.Refits now.keeper.root entry.path now.keeper.disk.tree after.keeper.disk.tree ∧
        Settled options now.keeper.root after.keeper.disk.tree entry)
      (fun _ _ => True) := by
  have trans := Tree.Refits.accumulates now.keeper.root entry.path
  have dates : Meets (fixTime options entry done) now
      (fun _ after => after.keeper.root = now.keeper.root ∧
        Tree.Refits now.keeper.root entry.path now.keeper.disk.tree after.keeper.disk.tree ∧
        ∃ attributes, after.keeper.disk.tree.Shows now.keeper.root entry.path
          (.directory attributes) ∧ attributes.mtime = entry.mtime)
      (fun _ _ => True) := by
    refine Meets.cond (fun _ => ?_) fun untimed => absurd times untimed
    refine (fixOne_meets (RootedDisk.change_refits (Disk.setTime_alters entry.mtime) stands)).bind
      fun _ after met => Meets.pure ?_
    obtain ⟨same, refits, attributes, -, shows⟩ := met
    exact ⟨same, refits, _, shows, rfl⟩
  refine Meets.cond (fun _ => dates.bind fun _ dated met => ?_) fun other => absurd kind other
  obtain ⟨same, refits, attributes, shows, time⟩ := met
  refine Meets.cond (fun _ => ?_) fun unfixed => Meets.pure ⟨same, refits, attributes, shows,
    fun _ => time, fun preserved => ?_⟩
  · have still : dated.keeper.disk.tree.HasDirectory dated.keeper.root :=
      same.symm ▸ refits.directories _ stands
    refine (fixOne_meets (RootedDisk.change_refits
      (Disk.setPermissions_alters entry.permissions) still)).bind fun _ after met => Meets.pure ?_
    obtain ⟨same', refits', attributes', shows', again⟩ := met
    rw [same] at refits' shows' again
    obtain ⟨place, placed, found⟩ := shows.found
    cases found.symm.trans (shows'.at placed)
    exact ⟨same'.trans same, trans.trans refits refits', _, again, fun _ => time, fun _ => rfl⟩
  · simp [preserved] at unfixed

/-- What fixing up some entries has come to. -/
structure FixedUp (options : FixupOptions) (root : Location) (before : Tree)
    (fixed : List ListEntry) (now : Fixing RootedDisk) : Prop where
  rooted : now.keeper.root = root
  stands : now.keeper.disk.tree.HasDirectory root
  directories : ∀ place, before.HasDirectory place → now.keeper.disk.tree.HasDirectory place
  files : ∀ place attributes content, before.get? place = some (.file attributes content) →
    now.keeper.disk.tree.get? place = some (.file attributes content)
  settled : ∀ entry ∈ fixed, entry.isDirectory = true →
    Settled options root now.keeper.disk.tree entry

/-- Entries that are to go to different places. -/
def Apart (root : Location) (first second : ListEntry) : Prop :=
  ∀ place, first.path.placeBeneath root = some place → second.path.placeBeneath root ≠ some place

theorem FixedUp.extends {before : Tree} {fixed : List ListEntry}
    (times : options.preserveTimes = true) (done : Fixups) (index : Nat)
    (fixes : FixedUp options root before fixed now)
    (apart : ∀ other ∈ fixed, Apart root entry other) :
    Meets (fixEntry options marks done (entry, index)) now
      (fun _ after => FixedUp options root before (fixed ++ [entry]) after) (fun _ _ => True) := by
  obtain ⟨rfl, stands, directories, files, settled⟩ := fixes
  by_cases kind : entry.isDirectory = true
  · refine (fixEntry_settles times done index stands kind).mono ?_ fun _ _ _ => trivial
    rintro _ after ⟨same, refits, settles⟩
    refine ⟨same, refits.directories _ stands, fun place there => ?_, ?_, ?_⟩
    · exact refits.directories place (directories place there)
    · exact fun place attributes content found =>
        refits.files place attributes content (files place attributes content found)
    · intro other listed other'
      rcases List.mem_append.mp listed with earlier | latest
      · obtain ⟨attributes, shows, rest⟩ := settled other earlier other'
        exact ⟨attributes, refits.shows (apart other earlier) shows, rest⟩
      · exact List.mem_singleton.mp latest ▸ settles
  · refine Meets.cond (fun directory => absurd directory kind) fun _ => Meets.pure
      ⟨rfl, stands, directories, files, fun other listed other' => ?_⟩
    rcases List.mem_append.mp listed with earlier | latest
    · exact settled other earlier other'
    · exact absurd (List.mem_singleton.mp latest ▸ other') kind

theorem fixEntries_settle {before : Tree} {fixed : List ListEntry} {items : List (ListEntry × Nat)}
    (times : options.preserveTimes = true) (done : Fixups)
    (fixes : FixedUp options root before fixed now)
    (apart : ∀ other ∈ fixed, ∀ item ∈ items, Apart root item.1 other)
    (distinct : items.Pairwise fun first second => Apart root second.1 first.1) :
    Meets (items.foldlM (fixEntry options marks) done) now
      (fun _ after => FixedUp options root before (fixed ++ items.map Prod.fst) after)
      (fun _ _ => True) := by
  induction items generalizing fixed done now with
  | nil =>
      rw [List.map_nil, List.append_nil]
      exact Meets.pure fixes
  | cons item rest ih =>
      obtain ⟨entry, index⟩ := item
      obtain ⟨first, later⟩ := List.pairwise_cons.mp distinct
      rw [List.foldlM_cons, List.map_cons, List.append_cons]
      refine (fixes.extends times done index fun other listed =>
        apart other listed _ List.mem_cons_self).bind fun done' after fixes' => ?_
      refine ih done' fixes' (fun other listed item member => ?_) later
      rcases List.mem_append.mp listed with earlier | latest
      · exact apart other earlier item (List.mem_cons_of_mem _ member)
      · rw [List.mem_singleton.mp latest]
        exact first item member

/-- Fixing up the directories of a list settles them all. -/
theorem fixUp_settles (recursive : options.recursive = true) (times : options.preserveTimes = true)
    (stands : now.keeper.disk.tree.HasDirectory now.keeper.root)
    (distinct : files.Pairwise fun first second => Apart now.keeper.root second first) :
    Meets (fixUp options files marks) now
      (fun _ after => FixedUp options now.keeper.root now.keeper.disk.tree files after)
      (fun _ _ => True) := by
  unfold fixUp
  rw [if_pos recursive]
  have start : FixedUp options now.keeper.root now.keeper.disk.tree [] now :=
    ⟨rfl, stands, fun _ => id, fun _ _ _ => id, nofun⟩
  have spread : files.zipIdx.Pairwise fun first second => Apart now.keeper.root second.1 first.1 := by
    refine (List.pairwise_map (R := fun first second => Apart now.keeper.root second first)
      (f := Prod.fst)).mp ?_
    rw [List.zipIdx_map_fst]
    exact distinct
  have whole : Meets (files.zipIdx.foldlM (fixEntry options marks) {}) now _ _ :=
    fixEntries_settle times {} start nofun spread
  rwa [List.nil_append, List.zipIdx_map_fst] at whole

/-- What is settled is fixed up without a change. -/
theorem fixEntry_rests (done : Fixups) (index : Nat) (old : marks.isNew index = false)
    (grants : now.keeper.disk.Adornable)
    (settled : entry.isDirectory = true →
      Settled options now.keeper.root now.keeper.disk.tree entry) :
    Meets (fixEntry options marks done (entry, index)) now
      (fun _ after => now.keeper.Stays after.keeper) (fun _ _ => False) := by
  have trans := RootedDisk.Stays.accumulates
  refine Meets.cond (fun kind => ?_) fun _ => Meets.pure (trans.refl _)
  obtain ⟨attributes, shows, time, permissions⟩ := settled kind
  have one {now : Fixing RootedDisk} {apply : Location → EStateM Fault Disk Unit}
      {alter : Attributes → Attributes} {step report : String} (alters : Disk.Alters apply alter)
      (grants : now.keeper.disk.Adornable)
      (shows : now.keeper.disk.tree.Shows now.keeper.root entry.path (.directory attributes))
      (same : alter attributes = attributes) :
      Meets (fixOne step entry.path (RootedDisk.change entry.path apply) report) now
        (fun _ after => now.keeper.Stays after.keeper) (fun _ _ => False) := by
    obtain ⟨after, ran, stays⟩ := RootedDisk.change_rests alters grants shows same
    have calls : Meets (RootedDisk.change entry.path apply) now.keeper
        (fun _ after => now.keeper.Stays after) (fun _ _ => False) := by
      rw [Meets, ran]
      exact stays
    exact fixOne_meets calls
  have dates : Meets (fixTime options entry done) now
      (fun _ after => now.keeper.Stays after.keeper) (fun _ _ => False) := by
    refine Meets.cond (fun times => ?_) fun _ => Meets.pure (trans.refl _)
    have same : ({ attributes with mtime := entry.mtime } : Attributes) = attributes := by
      rw [← time times]
    exact (one (Disk.setTime_alters entry.mtime) grants shows same).bind
      fun _ _ held => Meets.pure held
  refine dates.bind fun _ dated stays => ?_
  refine Meets.cond (fun fixes => ?_) fun _ => Meets.pure stays
  rw [old, Bool.false_or] at fixes
  have same : ({ attributes with permissions := entry.permissions &&& 0o7777 } : Attributes) =
      attributes := by
    rw [← permissions fixes]
  have still : dated.keeper.disk.tree.Shows dated.keeper.root entry.path (.directory attributes) :=
    stays.root.symm ▸ stays.same.shows shows
  exact (one (Disk.setPermissions_alters entry.permissions) (grants.of_refusals stays.refusals) still same).bind
    fun _ after held => Meets.pure (trans.trans stays held)

/-- Fixing up what is settled changes nothing. -/
theorem fixUp_rests (old : ∀ index, marks.isNew index = false)
    (grants : now.keeper.disk.Adornable)
    (settled : options.recursive = true → ∀ entry ∈ files, entry.isDirectory = true →
      Settled options now.keeper.root now.keeper.disk.tree entry) :
    Meets (fixUp options files marks) now
      (fun _ after => now.keeper.Stays after.keeper) (fun _ _ => False) := by
  have trans := RootedDisk.Stays.accumulates
  refine Meets.cond (fun recursive => ?_) fun _ => Meets.pure (trans.refl _)
  have each {items : List (ListEntry × Nat)} {done : Fixups} {here : Fixing RootedDisk}
      (listed : ∀ item ∈ items, item.1 ∈ files) (stays : now.keeper.Stays here.keeper) :
      Meets (items.foldlM (fixEntry options marks) done) here
        (fun _ after => now.keeper.Stays after.keeper) (fun _ _ => False) := by
    induction items generalizing done here with
    | nil => exact Meets.pure stays
    | cons item rest ih =>
        obtain ⟨entry, index⟩ := item
        rw [List.foldlM_cons]
        refine (fixEntry_rests done index (old index) (grants.of_refusals stays.refusals) fun kind => ?_).bind
          fun done after met => ?_
        · rw [stays.root]
          exact (settled recursive entry (listed _ List.mem_cons_self) kind).of_same stays.same
        · exact ih (fun other member => listed other (List.mem_cons_of_mem _ member))
            (trans.trans stays met)
  refine each (fun item member => ?_) (trans.refl _)
  have fronts := List.mem_map_of_mem (f := Prod.fst) member
  rwa [List.zipIdx_map_fst] at fronts

end Destination

end TreeSync

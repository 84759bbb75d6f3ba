import TreeSync.Proofs.Destination.Pruned

namespace TreeSync

/-! Making, opening and clearing the root.

On a disk where every node stands in a directory, the path of the root may be made
and opened. What is found there is cleared, but a link at the end of the path is not
followed for that: the root behind it looks empty, and nothing is removed.
-/

open TreeSync.Action

/-- Whether every node stands in a directory. -/
def Tree.Closed (tree : Tree) : Prop :=
  ∀ name directory node, tree.get? (name :: directory) = some node → tree.HasDirectory directory

/-- A disk as the system keeps it. -/
structure Disk.Sound (disk : Disk) : Prop where
  proper : disk.tree.Proper
  closed : disk.tree.Closed
  home : disk.tree.HasDirectory disk.workingDirectory

def Disk.StaysSound (before after : Disk) : Prop :=
  before.Sound → after.Sound

theorem Disk.StaysSound.accumulates : Accumulates Disk.StaysSound :=
  ⟨fun _ => id, fun earlier later => later ∘ earlier⟩

theorem Disk.Sound.of_same {before after : Disk} (sound : before.Sound)
    (tree : after.tree = before.tree) (home : after.workingDirectory = before.workingDirectory) :
    after.Sound where
  proper := tree ▸ sound.proper
  closed := tree ▸ sound.closed
  home := tree ▸ home ▸ sound.home

section Closed

variable {tree : Tree} {root start place directory : Location} {name : Name} {steps : List Name}

theorem Tree.closed_of_entries
    (closed : ∀ entry ∈ tree.entries,
      entry.1 = [] ∨ (tree.get? entry.1.tail).any Node.isDirectory = true) : tree.Closed := by
  intro name directory node found
  rcases closed _ (mem_entries_of_get? found) with top | stands
  · cases top
  · obtain ⟨above, there, kind⟩ := (Option.any_eq_true _ _).mp stands
    exact (isDirectory_iff there).mp kind

namespace Tree.Closed

variable (closed : tree.Closed)

include closed

theorem above (stands : tree.HasDirectory place) (above : directory <:+ place) :
    tree.HasDirectory directory := by
  induction place with
  | nil =>
      rw [List.suffix_nil] at above
      exact above ▸ stands
  | cons name rest ih =>
      rcases List.suffix_cons_iff.mp above with rfl | further
      · exact stands
      · obtain ⟨attributes, found⟩ := stands
        exact ih (closed _ _ _ found) further

theorem leads (stands : tree.HasDirectory place) (beneath : root <:+ place) :
    tree.Leads root place := by
  induction place with
  | nil =>
      rw [List.suffix_nil] at beneath
      exact beneath ▸ .here
  | cons name rest ih =>
      rcases List.suffix_cons_iff.mp beneath with rfl | further
      · exact .here
      · exact .down (ih (closed.above stands (List.suffix_cons _ _)) further) stands

theorem holds (beneath : root <:+ place) (inner : place ≠ root) {node : Node}
    (found : tree.get? place = some node) : tree.Holds root place := by
  cases place with
  | nil => exact absurd (List.suffix_nil.mp beneath).symm inner
  | cons name rest =>
      rcases List.suffix_cons_iff.mp beneath with rfl | further
      · exact absurd rfl inner
      · exact ⟨name, rest, rfl, closed.leads (closed _ _ _ found) further⟩

/-- Steps from a directory that lead anywhere lead to a directory. -/
theorem walk (top : tree.HasDirectory []) {follow : Location → List Name → Except Errno Location}
    (follows : ∀ other rest, tree.HasDirectory other → follow other rest = .ok place →
      tree.HasDirectory place)
    (stands : tree.HasDirectory start) (reached : tree.walk follow start steps = .ok place) :
    tree.HasDirectory place := by
  induction steps generalizing start with
  | nil =>
      cases reached
      exact stands
  | cons name rest ih =>
      rw [Tree.walk] at reached
      split at reached
      · exact ih stands reached
      split at reached
      · exact ih (closed.above stands (List.tail_suffix _)) reached
      split at reached
      · cases reached
      · cases reached
      · next looked => exact ih ⟨_, (childAt_ok looked).2.symm⟩ reached
      · next target looked =>
        refine follows _ _ ?_ reached
        unfold Path.origin
        split
        · exact top
        · exact stands
      · cases reached

theorem enter (stands : tree.HasDirectory start) {links : Nat}
    (reached : tree.enter links start steps = .ok place) : tree.HasDirectory place := by
  have top := closed.above stands List.nil_suffix
  induction links generalizing start steps with
  | zero =>
      refine closed.walk top (fun _ _ _ lost => ?_) stands reached
      cases lost
  | succ links ih => exact closed.walk top (fun _ _ stands => ih stands) stands reached

end Tree.Closed

theorem mem_of_mem_segmentsOf {bytes : Bytes} {segment : Name} {byte : UInt8}
    (listed : segment ∈ segmentsOf bytes) (inside : byte ∈ segment) : byte ∈ bytes := by
  induction bytes generalizing segment with
  | nil =>
      rw [segmentsOf, List.mem_singleton] at listed
      exact listed ▸ inside
  | cons first rest ih =>
      rw [segmentsOf] at listed
      split at listed
      · rcases List.mem_cons.mp listed with rfl | later
        · cases inside
        · exact List.mem_cons_of_mem _ (ih later inside)
      · cases segments : segmentsOf rest with
        | nil => exact absurd segments (Path.segmentsOf_ne_nil rest)
        | cons segment more =>
            rw [segments] at listed ih
            rcases List.mem_cons.mp listed with rfl | later
            · rcases List.mem_cons.mp inside with rfl | tail
              · exact List.mem_cons_self
              · exact List.mem_cons_of_mem _ (ih List.mem_cons_self tail)
            · exact List.mem_cons_of_mem _ (ih (List.mem_cons_of_mem _ later) inside)

/-- A path that may be made ends in a name that a directory can hold, in a directory. -/
theorem Disk.Sound.resolve {disk : Disk} {path : Path} (sound : disk.Sound)
    (resolved : disk.tree.resolve disk.workingDirectory path = .ok (.entry directory name))
    (short : name.length ≤ Name.maxLength) :
    name.Sound ∧ disk.tree.HasDirectory directory := by
  have checked := Tree.check_of_resolve resolved
  have clean : 0 ∉ path.bytes := by
    intro nul
    simp [Path.check, nul] at checked
  simp only [Tree.resolve, checked, bind, Except.bind] at resolved
  obtain ⟨above, spelled, notSelf, notParent, reached⟩ := Tree.targetOf_entry resolved
  have step : name ∈ path.steps := spelled ▸ List.mem_append_right _ (List.mem_singleton_self name)
  obtain ⟨segment, nonempty⟩ := List.mem_filter.mp step
  have origin : disk.tree.HasDirectory (path.origin disk.workingDirectory) := by
    unfold Path.origin
    split
    · exact sound.closed.above sound.home List.nil_suffix
    · exact sound.home
  exact ⟨⟨⟨of_decide_eq_true nonempty, noSlash_of_mem_segmentsOf segment, notSelf, notParent⟩, short,
    fun nul => clean (mem_of_mem_segmentsOf segment nul)⟩, sound.closed.enter origin reached⟩

theorem Disk.Sound.madeDirectory {disk : Disk} {permissions : UInt32} (sound : disk.Sound)
    (fine : name.Sound) (stands : disk.tree.HasDirectory directory)
    (free : disk.tree.get? (name :: directory) = none) :
    (disk.perform (.madeDirectory (name :: directory) permissions)).Sound := by
  let made : Change := .madeDirectory (name :: directory) permissions
  have kept {other : Location} (stands : disk.tree.HasDirectory other) :
      (disk.perform made).tree.HasDirectory other := by
    refine Change.keepsDirectories (fun altered listed => ?_) stands
    rw [List.mem_singleton.mp listed]
    exact Tree.not_hasDirectory_of_free free
  have old {place : Location} {node : Node} (other : place ≠ name :: directory)
      (found : (disk.perform made).tree.get? place = some node) :
      ∃ node, disk.tree.get? place = some node := by
    have same : (disk.perform made).tree.sight place = disk.tree.sight place :=
      Change.sight_apply_of_not_altered (by simpa [made, Change.altered] using other)
    cases there : disk.tree.get? place with
    | some node => exact ⟨node, rfl⟩
    | none =>
        rw [← Tree.sight_eq_none, ← same, Tree.sight_eq_none, found] at there
        cases there
  refine ⟨fun place node found => ?_, fun last above node found => ?_, kept sound.home⟩
  · by_cases here : place = name :: directory
    · obtain ⟨attributes, there⟩ := stands
      subst here
      exact List.forall_mem_cons.mpr ⟨fine, sound.proper _ _ there⟩
    · obtain ⟨node, there⟩ := old here found
      exact sound.proper _ _ there
  · by_cases here : last :: above = name :: directory
    · cases here
      exact kept stands
    · obtain ⟨node, there⟩ := old here found
      exact kept (sound.closed _ _ _ there)

end Closed

namespace Destination

variable {path : Path} {root place : Location} {listed : List ListEntry} {found : List FoundEntry}
  {removals : Removals} {before : Disk} {after later : Tree} {host : Host}

theorem makeOne_staysSound (path : Path) : Keeps Disk.StaysSound (makeOne path) := by
  intro disk
  refine Meets.cond (fun _ => Meets.throw id) fun _ => Meets.get ?_
  refine (Disk.look_meets _).followedBy (fun _ _ same => same ▸ id) fun target _ met => ?_
  obtain ⟨rfl, resolved⟩ := met
  refine (Disk.makeAt_meets target).mono ?_ fun _ _ same => same ▸ id
  rintro _ _ ⟨parent, name, rfl, short, free, rfl⟩
  refine ⟨fun sound => ?_, trivial⟩
  obtain ⟨fine, stands⟩ := sound.resolve resolved short
  exact sound.madeDirectory fine stands free

theorem makePath_staysSound (path : Path) : Keeps Disk.StaysSound (makePath path) :=
  makePath_keeps Disk.StaysSound.accumulates makeOne_staysSound path

/-- How the tree beneath an open root is left, as seen from the moment when it was opened by
its path. -/
structure Clears (path : Path) (listed : List ListEntry) (root : Location) (before : Disk)
    (removals : Removals) (after : Tree) : Prop where
  /-- There is nothing but what the list names. -/
  listed : ¬ before.tree.EndsInLink before.workingDirectory path →
    ∀ place, root <:+ place → place ≠ root → after.get? place ≠ none →
      ∃ entry ∈ listed, entry.path.normalized = (root.pathTo place).normalized
  /-- Behind a link nothing was removed. -/
  lapses : before.tree.EndsInLink before.workingDirectory path →
    removals = {} ∧ ∀ place, before.tree.get? place ≠ none → after.get? place ≠ none

/-- A place that the list names has a path that it lists, up to the spelling. -/
theorem Names.normalized (named : Names listed root place) :
    ∃ entry ∈ listed, entry.path.normalized = (root.pathTo place).normalized := by
  obtain ⟨entry, member, placed⟩ := named
  refine ⟨entry, member, ?_⟩
  cases down : entry.path.descent with
  | error fault => simp [Path.placeBeneath, down] at placed
  | ok names =>
      cases (Path.placeBeneath_of_descent root down).symm.trans placed
      rw [Location.pathTo_append]
      refine Path.normalized_eq_of_placeBeneath placed (Path.placeBeneath_ofNames ?_)
      exact fun name inside => Path.plain_of_mem_descent down inside

/-- What only brings entries that the list names leaves the root as cleared as it was. -/
theorem Clears.onward (clears : Clears path listed root before removals after)
    (stays : ∀ place, after.get? place ≠ none → later.get? place ≠ none)
    (comes : ∀ place, later.get? place ≠ none →
      after.get? place ≠ none ∨ Names listed root place) :
    Clears path listed root before removals later where
  listed real place beneath inner there := by
    rcases comes place there with earlier | named
    · exact clears.listed real place beneath inner earlier
    · exact named.normalized
  lapses linked := by
    obtain ⟨nothing, kept⟩ := clears.lapses linked
    exact ⟨nothing, fun place there => stays place (kept place there)⟩

/-- What is found at an open root: everything beneath it, but nothing behind a link. -/
def Finds (path : Path) (root : Location) (disk : Disk) (found : List FoundEntry) : Prop :=
  ¬ disk.tree.EndsInLink disk.workingDirectory path ∧
      found = (disk.tree.beneath root).map (shown root) ∨
    disk.tree.EndsInLink disk.workingDirectory path ∧ found = []

theorem contents_finds
    (opens : host.disk.tree.resolveDirectory host.disk.workingDirectory path = .ok root) :
    Meets (contents path) host
      (fun found after => after.disk = host.disk ∧ Finds path root host.disk found)
      (fun _ _ => True) := by
  rcases Tree.directoryAt?_of_resolveDirectory opens with ⟨looked, real⟩ | ⟨looked, linked⟩
  · refine (contents_shows looked).mono ?_ fun _ _ _ => trivial
    rintro _ after ⟨rfl, same⟩
    exact ⟨same, .inl ⟨real, rfl⟩⟩
  · rw [Meets, contents, bind_ok (findRoot_ok looked)]
    exact ⟨rfl, .inr ⟨linked, rfl⟩⟩

/-- Whether some entries are gone that the list does not name, and nothing else looks any
different. -/
def Weeds (listed : List ListEntry) (root : Location) (before after : Tree) : Prop :=
  ∃ gone, before.Without gone after ∧ ∀ place, gone place → ¬ Names listed root place

theorem Weeds.refl (listed : List ListEntry) (root : Location) (tree : Tree) :
    Weeds listed root tree tree :=
  ⟨fun _ => False, .here tree fun _ => id, fun _ => False.elim⟩

/-- What pruning does with what was found: the strays go, unless the path ends in a link. -/
theorem pruneAll_leaves (listed : List ListEntry) (sound : before.Sound)
    (same : host.disk = before)
    (finds : Finds path root before found) :
    Meets (pruneAll root found listed) host
      (fun removals after =>
        ¬ before.tree.EndsInLink before.workingDirectory path ∧
            before.tree.Without (Stray before.tree root listed) after.disk.tree ∨
          before.tree.EndsInLink before.workingDirectory path ∧ removals = {} ∧
            after.disk.tree = before.tree)
      (fun _ _ => True) := by
  rcases finds with ⟨real, rfl⟩ | ⟨linked, rfl⟩
  · have inward := inward_beneath before.tree root
    refine (pruneAll_course listed sound.proper inward (congrArg Disk.tree same)).mono ?_
      fun _ _ _ => trivial
    exact fun removals after course => .inl ⟨real, course.without_strays inward⟩
  · have nothing : extraneous [] listed = [] := rfl
    rw [pruneAll, nothing, List.foldlM_nil, pure_bind]
    exact Meets.changeThen (Meets.pure (.inr ⟨linked, rfl, congrArg Disk.tree same⟩))

/-- Pruning what was found clears the root, unless its path ends in a link. -/
theorem pruneAll_clears (listed : List ListEntry) (sound : before.Sound)
    (same : host.disk = before)
    (finds : Finds path root before found) :
    Meets (pruneAll root found listed) host
      (fun removals after => Clears path listed root before removals after.disk.tree)
      (fun _ _ => True) := by
  refine (pruneAll_leaves listed sound same finds).mono ?_ fun _ _ _ => trivial
  rintro removals after (⟨real, without⟩ | ⟨linked, nothing, kept⟩)
  · refine ⟨fun _ place beneath inner there => ?_, fun linked => absurd linked real⟩
    -- what is still there was there before, where it was no stray
    have stands := Option.ne_none_iff_exists'.mp there
    have stays := without.stays stands
    obtain ⟨node, stood⟩ := (without.there_iff stays).mp stands
    have holds := sound.closed.holds beneath inner stood
    have named : Names listed root place :=
      not_not.mp fun unnamed => stays ⟨⟨holds, node, stood⟩, unnamed⟩
    exact named.normalized
  · exact ⟨fun real => absurd linked real, fun _ => ⟨nothing, fun _ there => kept ▸ there⟩⟩

theorem pruneAll_weeds (listed : List ListEntry) (sound : before.Sound)
    (same : host.disk = before)
    (finds : Finds path root before found) :
    Meets (pruneAll root found listed) host
      (fun _ after => Weeds listed root before.tree after.disk.tree) (fun _ _ => True) := by
  refine (pruneAll_leaves listed sound same finds).mono ?_ fun _ _ _ => trivial
  rintro removals after (⟨-, without⟩ | ⟨-, -, kept⟩)
  · exact ⟨_, without, fun place stray => stray.2⟩
  · rw [kept]
    exact .refl listed root before.tree

end Destination

end TreeSync

import TreeSync.Path

namespace TreeSync

/-! Trees of directories, files, links and pipes.

A tree is a finite map from locations to nodes. `get?_set` and `get?_erase` say
what the two updates do to it; the order of the entries carries no meaning.
-/

/-- The names that lead to a node from the top, the last one first: the directory a
node stands in is the tail of its location, and whatever is beneath a directory has
the directory's location as a suffix. -/
abbrev Location := List Name

structure Attributes where
  permissions : UInt32
  mtime : Int64
deriving DecidableEq, Inhabited

inductive Node where
  | directory (attributes : Attributes)
  | file (attributes : Attributes) (content : Bytes)
  | link (target : Path)
  | fifo (attributes : Attributes)
deriving DecidableEq

namespace Node

def isDirectory : Node → Bool
  | .directory _ => true
  | _ => false

def mapAttributes (change : Attributes → Attributes) : Node → Node
  | .directory attributes => .directory (change attributes)
  | .file attributes content => .file (change attributes) content
  | .link target => .link target
  | .fifo attributes => .fifo (change attributes)

def setPermissions (permissions : UInt32) : Node → Node :=
  mapAttributes fun attributes => { attributes with permissions }

def setTime (mtime : Int64) : Node → Node :=
  mapAttributes fun attributes => { attributes with mtime }

/-- Gives a directory the time of a change to its entries; nothing else has any. -/
def touch (time : Int64) : Node → Node
  | .directory attributes => .directory { attributes with mtime := time }
  | other => other

def append (bytes : Bytes) : Node → Node
  | .file attributes content => .file attributes (content ++ bytes)
  | other => other

@[simp] theorem isDirectory_mapAttributes (change : Attributes → Attributes) (node : Node) :
    (node.mapAttributes change).isDirectory = node.isDirectory := by
  cases node <;> rfl

end Node

structure Tree where
  entries : List (Location × Node)
  nodup_locations : (entries.map Prod.fst).Nodup

namespace Tree

def empty : Tree := ⟨[], List.Pairwise.nil⟩

instance : Inhabited Tree := ⟨empty⟩

def get? (tree : Tree) (location : Location) : Option Node :=
  (tree.entries.find? (·.1 = location)).map Prod.snd

/-- Removes what is at `location`, and nothing beneath it. -/
def erase (tree : Tree) (location : Location) : Tree where
  entries := tree.entries.filter (·.1 ≠ location)
  nodup_locations := (List.filter_sublist.map Prod.fst).nodup tree.nodup_locations

def set (tree : Tree) (location : Location) (node : Node) : Tree where
  entries := (location, node) :: (tree.erase location).entries
  nodup_locations := by
    simp only [List.map_cons, List.nodup_cons]
    refine ⟨fun found => ?_, (tree.erase location).nodup_locations⟩
    obtain ⟨entry, kept, same⟩ := List.mem_map.mp found
    simp [erase, same] at kept

def update (tree : Tree) (location : Location) (change : Node → Node) : Tree :=
  match tree.get? location with
  | some node => tree.set location (change node)
  | none => tree

theorem get?_erase (tree : Tree) (location other : Location) :
    (tree.erase location).get? other = if other = location then none else tree.get? other := by
  unfold get? erase
  rw [List.find?_filter]
  split
  · next same =>
    subst same
    simp
  · next different =>
    congr 2
    funext entry
    by_cases at_other : entry.1 = other
    · simp [at_other, different]
    · simp [at_other]

theorem get?_set (tree : Tree) (location other : Location) (node : Node) :
    (tree.set location node).get? other =
      if other = location then some node else tree.get? other := by
  by_cases same : other = location
  · simp [get?, set, same]
  · have rest := get?_erase tree location other
    simp only [same, if_false] at rest ⊢
    rw [← rest]
    simp [get?, set, Ne.symm same]

theorem get?_update (tree : Tree) (location other : Location) (change : Node → Node) :
    (tree.update location change).get? other =
      if other = location then (tree.get? other).map change else tree.get? other := by
  unfold update
  split
  · next node found =>
    rw [get?_set]
    split
    · next same => simp [same, found]
    · rfl
  · next missing =>
    split
    · next same => simp [same, missing]
    · rfl

theorem mem_entries_of_get? {tree : Tree} {location : Location} {node : Node}
    (found : tree.get? location = some node) : (location, node) ∈ tree.entries := by
  obtain ⟨entry, first, rfl⟩ := Option.map_eq_some_iff.mp found
  have same := List.find?_some first
  simp only [decide_eq_true_eq] at same
  rw [← same]
  exact List.mem_of_find?_eq_some first

theorem get?_of_mem_entries {tree : Tree} {location : Location} {node : Node}
    (listed : (location, node) ∈ tree.entries) : tree.get? location = some node := by
  obtain ⟨entries, nodup⟩ := tree
  unfold get?
  dsimp only at listed nodup ⊢
  induction entries with
  | nil => cases listed
  | cons entry rest ih =>
      rw [List.map_cons, List.nodup_cons] at nodup
      rcases List.mem_cons.mp listed with rfl | later
      · simp
      · have other : entry.1 ≠ location := fun same =>
          nodup.1 (List.mem_map.mpr ⟨_, later, same.symm⟩)
        rw [List.find?_cons_of_neg (by simpa using other)]
        exact ih nodup.2 later

def namesIn (tree : Tree) (location : Location) : List Name :=
  tree.entries.filterMap fun entry =>
    match entry.1 with
    | [] => none
    | name :: directory => if directory = location then some name else none

theorem mem_namesIn {tree : Tree} {location : Location} {name : Name} :
    name ∈ tree.namesIn location ↔ ∃ node, tree.get? (name :: location) = some node := by
  simp only [namesIn, List.mem_filterMap]
  constructor
  · rintro ⟨⟨location', node⟩, listed, named⟩
    cases location' with
    | nil => cases named
    | cons first directory =>
        simp only [Option.ite_none_right_eq_some, Option.some.injEq] at named
        obtain ⟨rfl, rfl⟩ := named
        exact ⟨node, get?_of_mem_entries listed⟩
  · rintro ⟨node, found⟩
    exact ⟨_, mem_entries_of_get? found, by simp⟩

def sortedNames (tree : Tree) (location : Location) : List Name :=
  (tree.namesIn location).mergeSort fun first second => decide (first ≤ second)

@[simp] theorem mem_sortedNames {tree : Tree} {location : Location} {name : Name} :
    name ∈ tree.sortedNames location ↔ name ∈ tree.namesIn location := by
  simp [sortedNames]

/-- How many nodes stand beneath `location`. -/
def countBeneath (tree : Tree) (location : Location) : Nat :=
  tree.entries.countP fun entry => location.isSuffixOf entry.1 && entry.1 != location

theorem countP_lt_countP {α : Type} {narrow wide : α → Bool} {items : List α}
    (within : ∀ item ∈ items, narrow item → wide item)
    {extra : α} (listed : extra ∈ items) (outside : narrow extra = false)
    (inside : wide extra = true) : items.countP narrow < items.countP wide := by
  induction items with
  | nil => cases listed
  | cons item rest ih =>
      have tail : rest.countP narrow ≤ rest.countP wide :=
        List.countP_mono_left fun other member => within other (List.mem_cons_of_mem _ member)
      have head := within item List.mem_cons_self
      simp only [List.countP_cons]
      rcases List.mem_cons.mp listed with rfl | later
      · simp only [outside, inside, Bool.false_eq_true, if_false, if_true]
        omega
      · have strict := ih (fun other member => within other (List.mem_cons_of_mem _ member)) later
        have one : (if narrow item then 1 else 0) ≤ (if wide item then 1 else 0) := by
          split
          · next inner => simp [head inner]
          · exact Nat.zero_le _
        omega

theorem countBeneath_lt {tree : Tree} {location : Location} {name : Name} {node : Node}
    (found : tree.get? (name :: location) = some node) :
    tree.countBeneath (name :: location) < tree.countBeneath location := by
  refine countP_lt_countP (fun entry _ beneath => ?_) (mem_entries_of_get? found) (by simp) ?_
  · simp only [Bool.and_eq_true, List.isSuffixOf_iff_suffix, bne_iff_ne, ne_eq] at beneath ⊢
    refine ⟨(List.suffix_cons name location).trans beneath.1, fun same => ?_⟩
    have longer := beneath.1.length_le
    rw [same, List.length_cons] at longer
    omega
  · simp only [Bool.and_eq_true, List.isSuffixOf_iff_suffix, bne_iff_ne, ne_eq]
    exact ⟨List.suffix_cons name location, by simp⟩

/-- Everything beneath `location`, a directory before what it holds, and the names
of each directory in order. -/
def beneath (tree : Tree) (location : Location) : List (Location × Node) :=
  (tree.sortedNames location).flatMap fun name =>
    match _found : tree.get? (name :: location) with
    | none => []
    | some node =>
        (name :: location, node) ::
          if node.isDirectory then tree.beneath (name :: location) else []
termination_by tree.countBeneath location
decreasing_by exact countBeneath_lt _found

end Tree

end TreeSync

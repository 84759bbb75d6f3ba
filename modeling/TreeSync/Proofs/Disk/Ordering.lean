import Mathlib.Data.List.Sort
import Mathlib.Data.List.TakeWhile
import TreeSync.Destination.Contents
import TreeSync.Proofs.Disk.Walking

namespace TreeSync

/-! In which order a tree is listed.

Places beneath a root are compared by the names that lead to them, one name after the other
and each byte by byte. A listing rises in this order. So it does not tell in which order the
directories were read, and what a directory holds follows it without a gap.
-/

/-- The names that lead from one location to another beneath it. -/
def Location.namesTo (directory inner : Location) : List Name :=
  (inner.take (inner.length - directory.length)).reverse

section Names

variable {root place : Location} {name : Name} {low middle high : List Name}

theorem Location.namesTo_append (root : Location) (names : List Name) :
    root.namesTo (names.reverse ++ root) = names := by
  simp [namesTo]

theorem Location.append_namesTo (beneath : root <:+ place) :
    (root.namesTo place).reverse ++ root = place := by
  obtain ⟨upper, rfl⟩ := beneath
  simp [namesTo]

theorem Location.namesTo_of_child (beneath : name :: root <:+ place) :
    root.namesTo place = name :: namesTo (name :: root) place := by
  obtain ⟨upper, rfl⟩ := beneath
  have inner : namesTo (name :: root) (upper ++ name :: root) = upper.reverse := by
    simpa using namesTo_append (name :: root) upper.reverse
  have outer : namesTo root (upper ++ name :: root) = name :: upper.reverse := by
    simpa using namesTo_append root (name :: upper.reverse)
  rw [outer, inner]

theorem Location.namesTo_eq_nil_iff (beneath : root <:+ place) :
    root.namesTo place = [] ↔ place = root := by
  constructor
  · intro nothing
    have spelled := append_namesTo beneath
    rw [nothing] at spelled
    exact spelled.symm
  · rintro rfl
    exact namesTo_append place []

theorem not_lt_of_isPrefix (begins : low <+: middle) : ¬ middle < low := by
  obtain ⟨more, rfl⟩ := begins
  induction low with
  | nil => exact List.not_lt_nil _
  | cons name rest ih =>
      rw [List.cons_append, List.cons_lt_cons_iff, not_or]
      exact ⟨Std.lt_irrefl, fun below => ih below.2⟩

/-- What lies between some names and names that begin with them begins with them, too. -/
theorem isPrefix_of_between (above : low < middle) (below : middle < high)
    (begins : low <+: high) : low <+: middle := by
  induction low generalizing middle high with
  | nil => exact List.nil_prefix
  | cons name rest ih =>
      obtain ⟨more, rfl⟩ := begins
      cases middle with
      | nil => exact absurd above (List.not_lt_nil _)
      | cons other tail =>
          rw [List.cons_append] at below
          rcases List.cons_lt_cons_iff.mp above with less | ⟨rfl, further⟩
          · rcases List.cons_lt_cons_iff.mp below with more | ⟨same, -⟩
            · exact absurd more (Std.not_gt_of_lt less)
            · exact absurd less (same ▸ Std.lt_irrefl)
          · rcases List.cons_lt_cons_iff.mp below with more | ⟨-, below⟩
            · exact absurd more Std.lt_irrefl
            · exact (List.prefix_cons_inj _).mpr (ih further below (List.prefix_append rest _))

end Names

/-- In a line that rises, the items whose names begin with those of one of them follow it
without a gap. -/
theorem exists_block_of_rising {α : Type} {key : α → List Name} {line : List α}
    (rising : line.Pairwise fun earlier later => key earlier < key later) {item : α}
    (listed : item ∈ line) :
    ∃ before inside after, line = before ++ item :: (inside ++ after) ∧
      (∀ other ∈ inside, key item <+: key other) ∧
      ∀ other ∈ before ++ after, ¬ key item <+: key other := by
  obtain ⟨before, rest, rfl⟩ := List.mem_iff_append.mp listed
  obtain ⟨-, tail, across⟩ := List.pairwise_append.mp rising
  obtain ⟨above, tail⟩ := List.pairwise_cons.mp tail
  let begins (other : α) : Bool := decide (key item <+: key other)
  refine ⟨before, rest.takeWhile begins, rest.dropWhile begins,
    by rw [List.takeWhile_append_dropWhile], fun other inside => ?_, ?_⟩
  · exact of_decide_eq_true (List.mem_takeWhile_imp (p := begins) inside)
  intro other member begun
  rcases List.mem_append.mp member with earlier | later
  · exact not_lt_of_isPrefix begun (across other earlier item List.mem_cons_self)
  · -- the first item outside the block lies between the item and any later one
    cases left : rest.dropWhile begins with
    | nil =>
        rw [left] at later
        cases later
    | cons first more =>
        have outside : ¬ key item <+: key first := by
          have stopped := List.head?_dropWhile_not begins rest
          rw [left] at stopped
          simpa [begins] using stopped
        have kept : (first :: more).Sublist rest := left ▸ List.dropWhile_sublist _
        rw [left] at later
        rcases List.mem_cons.mp later with rfl | further
        · exact outside begun
        · have less := (List.pairwise_cons.mp (tail.sublist kept)).1 other further
          exact outside (isPrefix_of_between (above first (kept.mem List.mem_cons_self)) less begun)

namespace Tree

variable {tree first second : Tree} {root : Location} {name : Name}

theorem rising_sortedNames (tree : Tree) (location : Location) :
    (tree.sortedNames location).Pairwise (· < ·) := by
  have sorted : (tree.sortedNames location).Pairwise (· ≤ ·) := by
    refine (List.pairwise_mergeSort ?_ ?_ (tree.namesIn location)).imp of_decide_eq_true
    · intro early middle late
      simpa using Std.le_trans
    · intro one other
      simpa using Std.le_total
  exact (sorted.and (tree.nodup_sortedNames location)).imp fun ⟨least, different⟩ =>
    Std.lt_of_le_of_ne least different

/-- A listing rises by the names that lead to each place. -/
theorem rising_beneath (tree : Tree) (root : Location) :
    (tree.beneath root).Pairwise fun earlier later =>
      root.namesTo earlier.1 < root.namesTo later.1 := by
  generalize size : tree.countBeneath root = count
  induction count using Nat.strongRecOn generalizing root with
  | ind count ih =>
      subst size
      rw [beneath_eq, List.pairwise_flatMap]
      constructor
      · intro name _
        unfold listingOf
        split
        · exact List.Pairwise.nil
        · next node found =>
          split
          · refine List.pairwise_cons.mpr ⟨fun later listed => ?_, ?_⟩
            · have holds := (mem_beneath.mp listed).1
              rw [Location.namesTo_of_child (List.suffix_refl _),
                Location.namesTo_of_child holds.suffix, List.cons_lt_cons_iff]
              have inner := mt (Location.namesTo_eq_nil_iff holds.suffix).mp holds.ne_root
              obtain ⟨first, more, spelled⟩ := List.exists_cons_of_ne_nil inner
              rw [(Location.namesTo_eq_nil_iff (List.suffix_refl _)).mpr rfl, spelled]
              exact .inr ⟨rfl, List.nil_lt_cons first more⟩
            · refine (ih _ (countBeneath_lt found) _ rfl).imp_of_mem fun listed listed' less => ?_
              rw [Location.namesTo_of_child (mem_beneath.mp listed).1.suffix,
                Location.namesTo_of_child (mem_beneath.mp listed').1.suffix, List.cons_lt_cons_iff]
              exact .inr ⟨rfl, less⟩
          · exact List.pairwise_singleton _ _
      · refine (tree.rising_sortedNames root).imp ?_
        intro first second less earlier listed later listed'
        rw [Location.namesTo_of_child (suffix_of_mem_listingOf listed),
          Location.namesTo_of_child (suffix_of_mem_listingOf listed'), List.cons_lt_cons_iff]
        exact .inl less

/-- Whether a second tree holds the same nodes in the same places, in whatever order its
directories are read. -/
def SameNodes (first second : Tree) : Prop :=
  ∀ place, second.get? place = first.get? place

namespace SameNodes

variable {place : Location} (same : first.SameNodes second)

include same

theorem hasDirectory : second.HasDirectory place ↔ first.HasDirectory place := by
  rw [HasDirectory, HasDirectory, same place]

theorem holds : second.Holds root place ↔ first.Holds root place :=
  ⟨fun holds => holds.mono fun _ => (hasDirectory same).mp,
    fun holds => holds.mono fun _ => (hasDirectory same).mpr⟩

/-- Both are listed alike: two lines that rise and have the same items are one. -/
theorem beneath (root : Location) : second.beneath root = first.beneath root := by
  let rises (earlier later : Location × Node) : Prop :=
    root.namesTo earlier.1 < root.namesTo later.1
  have irreflexive : Std.Irrefl rises := ⟨fun _ => Std.lt_irrefl⟩
  have antisymmetric : Std.Antisymm rises :=
    ⟨fun _ _ less more => absurd more (Std.not_gt_of_lt less)⟩
  refine List.Pairwise.eq_of_mem_iff (r := rises) (second.rising_beneath root)
    (first.rising_beneath root) fun found => ?_
  rw [mem_beneath, mem_beneath, holds same, same found.1]

theorem childAt (directory : Location) (name : Name) :
    second.childAt directory name = first.childAt directory name := by
  rw [Tree.childAt, Tree.childAt, same]

theorem walk (follow : Location → List Name → Except Errno Location) (directory : Location)
    (steps : List Name) : second.walk follow directory steps = first.walk follow directory steps := by
  induction steps generalizing directory with
  | nil => rfl
  | cons name rest ih => simp only [Tree.walk, childAt same, ih]

theorem enter (links : Nat) (directory : Location) (steps : List Name) :
    second.enter links directory steps = first.enter links directory steps := by
  induction links generalizing directory steps with
  | zero => exact walk same _ _ _
  | succ links ih =>
      have further : second.enter links = first.enter links := funext fun place => funext (ih place)
      rw [Tree.enter, Tree.enter, further, walk same]

theorem directoryAt? (directory : Location) (path : Path) :
    second.directoryAt? directory path = first.directoryAt? directory path := by
  simp only [Tree.directoryAt?, Tree.targetOf, childAt same, enter same]

end SameNodes

/-- However the directories of a tree may be read, some tree of the same nodes reads so. -/
theorem exists_reading (tree : Tree) {order : Location → List Name}
    (reads : ∀ place, (order place).Perm (tree.namesIn place)) :
    ∃ other : Tree, tree.SameNodes other ∧ ∀ place, other.namesIn place = order place := by
  -- the same entries, each moved to its turn in its directory
  let turn (entry : Location × Node) : Nat := (order entry.1.tail).idxOf (entry.1.headD [])
  let entries := tree.entries.mergeSort fun early late => decide (turn early ≤ turn late)
  have moved : entries.Perm tree.entries := List.mergeSort_perm _ _
  have inTurn : entries.Pairwise fun early late => turn early ≤ turn late := by
    refine (List.pairwise_mergeSort ?_ ?_ tree.entries).imp of_decide_eq_true
    · intro early middle late
      simpa using Nat.le_trans
    · intro one other
      simpa using Nat.le_total _ _
  let other : Tree := ⟨entries, (moved.map Prod.fst).nodup_iff.mpr tree.nodup_locations⟩
  refine ⟨other, fun place => ?_, fun place => ?_⟩
  · ext node
    have listed : (place, node) ∈ other.entries ↔ (place, node) ∈ tree.entries := moved.mem_iff
    exact ⟨fun found => get?_of_mem_entries (listed.mp (mem_entries_of_get? found)),
      fun found => get?_of_mem_entries (listed.mpr (mem_entries_of_get? found))⟩
  · have once : (order place).Nodup := (reads place).nodup_iff.mpr (tree.nodup_namesIn place)
    have same : (other.namesIn place).Perm (order place) :=
      (moved.filterMap _).trans (reads place).symm
    have rising : (other.namesIn place).Pairwise fun early late =>
        (order place).idxOf early ≤ (order place).idxOf late := by
      refine inTurn.filterMap _ ?_
      rintro ⟨first, node⟩ ⟨second, node'⟩ least name named name' named'
      cases first with
      | nil => cases named
      | cons early directory =>
          cases second with
          | nil => cases named'
          | cons late above =>
              simp only [Option.ite_none_right_eq_some, Option.some.injEq] at named named'
              obtain ⟨rfl, rfl⟩ := named
              obtain ⟨rfl, rfl⟩ := named'
              exact least
    have rising' : (order place).Pairwise fun early late =>
        (order place).idxOf early ≤ (order place).idxOf late := by
      refine List.pairwise_iff_getElem.mpr fun i j less more before => ?_
      rw [once.idxOf_getElem, once.idxOf_getElem]
      exact Nat.le_of_lt before
    refine same.eq_of_pairwise ?_ rising rising'
    intro early late _ listed least most
    exact ((List.idxOf_inj listed).mp (Nat.le_antisymm most least)).symm

end Tree

end TreeSync

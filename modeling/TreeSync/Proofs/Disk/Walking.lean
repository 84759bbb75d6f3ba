import TreeSync.Proofs.Disk.Replay

namespace TreeSync

/-! What a listing of a tree contains, and in which order.

The listing is made downwards from the root while `Leads` is built up from its end, so
first comes what lies on the way between two places.
-/

namespace Tree

variable {tree after : Tree} {root middle place : Location} {name : Name} {node : Node}

/-- The way that leads to a place passes through every place above it. -/
theorem Leads.split (leads : tree.Leads root place) (above : root <:+ middle)
    (below : middle <:+ place) : tree.Leads root middle ∧ tree.Leads middle place := by
  induction leads with
  | here =>
      have same := above.eq_of_length_le below.length_le
      subst same
      exact ⟨.here, .here⟩
  | @down directory name upper stands ih =>
      rcases List.suffix_cons_iff.mp below with rfl | further
      · exact ⟨.down upper stands, .here⟩
      · obtain ⟨first, second⟩ := ih further
        exact ⟨first, .down second stands⟩

theorem Leads.hasDirectory (leads : tree.Leads root place) (other : place ≠ root) :
    tree.HasDirectory place := by
  cases leads with
  | here => exact absurd rfl other
  | down above stands => exact stands

/-- It still leads there if the directories on the way are kept. -/
theorem Leads.of_kept (leads : tree.Leads root place)
    (kept : ∀ other, other <:+ place → other ≠ root → root <:+ other → tree.HasDirectory other →
      after.HasDirectory other) : after.Leads root place := by
  induction leads with
  | here => exact .here
  | @down directory name above stands ih =>
      have inner : name :: directory ≠ root := by
        intro same
        have longer := above.suffix.length_le
        rw [← same, List.length_cons] at longer
        omega
      refine .down (ih fun other beneath => ?_) ?_
      · exact kept other (beneath.trans (List.suffix_cons _ _))
      · exact kept _ (List.suffix_refl _) inner (above.suffix.trans (List.suffix_cons _ _)) stands

theorem leads_iff_beneath :
    tree.Leads root place ↔
      place = root ∨ ∃ name, tree.HasDirectory (name :: root) ∧ tree.Leads (name :: root) place := by
  constructor
  · intro leads
    induction leads with
    | here => exact .inl rfl
    | @down directory name above stands ih =>
        rcases ih with rfl | ⟨first, met, further⟩
        · exact .inr ⟨name, stands, .here⟩
        · exact .inr ⟨first, met, .down further stands⟩
  · rintro (rfl | ⟨name, stands, further⟩)
    · exact .here
    · exact (Leads.down .here stands).trans further

theorem holds_iff_beneath :
    tree.Holds root place ↔
      ∃ name, place = name :: root ∨
        (tree.HasDirectory (name :: root) ∧ tree.Holds (name :: root) place) := by
  constructor
  · rintro ⟨last, directory, rfl, leads⟩
    rcases leads_iff_beneath.mp leads with rfl | ⟨name, stands, further⟩
    · exact ⟨last, .inl rfl⟩
    · exact ⟨name, .inr ⟨stands, last, directory, rfl, further⟩⟩
  · rintro ⟨name, rfl | ⟨stands, last, directory, rfl, further⟩⟩
    · exact ⟨name, root, rfl, .here⟩
    · exact ⟨last, directory, rfl, leads_iff_beneath.mpr (.inr ⟨name, stands, further⟩)⟩

/-- An entry with something beneath it is a directory, and leads there. -/
theorem Holds.leads (holds : tree.Holds root place) (above : root <:+ middle)
    (below : middle <:+ place) (other : middle ≠ place) : tree.Leads root middle := by
  obtain ⟨last, directory, rfl, leads⟩ := holds
  rcases List.suffix_cons_iff.mp below with rfl | further
  · exact absurd rfl other
  · exact (leads.split above further).1

theorem isDirectory_iff (found : tree.get? place = some node) :
    node.isDirectory = true ↔ tree.HasDirectory place := by
  unfold HasDirectory
  rw [found]
  cases node <;> simp [Node.isDirectory]

/-- What one name of a directory contributes to its listing. -/
def listingOf (tree : Tree) (location : Location) (name : Name) : List (Location × Node) :=
  match tree.get? (name :: location) with
  | none => []
  | some node =>
      (name :: location, node) ::
        if node.isDirectory then tree.beneath (name :: location) else []

theorem beneath_eq (tree : Tree) (location : Location) :
    tree.beneath location = (tree.sortedNames location).flatMap (tree.listingOf location) := by
  rw [beneath]
  congr 1
  funext name
  unfold listingOf
  split <;> split <;> simp_all

/-- Exactly what `root` holds is listed. -/
theorem mem_beneath :
    (place, node) ∈ tree.beneath root ↔ tree.Holds root place ∧ tree.get? place = some node := by
  generalize size : tree.countBeneath root = count
  induction count using Nat.strongRecOn generalizing root with
  | ind count ih =>
      subst size
      rw [beneath_eq, List.mem_flatMap]
      constructor
      · rintro ⟨name, -, listed⟩
        unfold listingOf at listed
        split at listed
        · cases listed
        · next first found =>
          rcases List.mem_cons.mp listed with same | deeper
          · cases same
            exact ⟨⟨name, root, rfl, .here⟩, found⟩
          · split at deeper
            · next directory =>
              obtain ⟨inner, there⟩ := (ih _ (countBeneath_lt found) rfl).mp deeper
              have stands := (isDirectory_iff found).mp directory
              exact ⟨holds_iff_beneath.mpr ⟨name, .inr ⟨stands, inner⟩⟩, there⟩
            · cases deeper
      · rintro ⟨holds, there⟩
        obtain ⟨name, met⟩ := holds_iff_beneath.mp holds
        have first : ∃ found, tree.get? (name :: root) = some found := by
          rcases met with rfl | ⟨⟨attributes, stands⟩, -⟩
          · exact ⟨node, there⟩
          · exact ⟨_, stands⟩
        obtain ⟨found, here⟩ := first
        refine ⟨name, mem_sortedNames.mpr (mem_namesIn.mpr ⟨found, here⟩), ?_⟩
        unfold listingOf
        rw [here]
        rcases met with rfl | ⟨stands, inner⟩
        · cases here.symm.trans there
          exact List.mem_cons_self
        · refine List.mem_cons_of_mem _ ?_
          rw [if_pos ((isDirectory_iff here).mpr stands)]
          exact (ih _ (countBeneath_lt here) rfl).mpr ⟨inner, there⟩

theorem nodup_namesIn (tree : Tree) (location : Location) : (tree.namesIn location).Nodup := by
  refine (List.pairwise_map.mp tree.nodup_locations).filterMap _ ?_
  rintro ⟨place, node⟩ ⟨place', node'⟩ different name named name' named' rfl
  cases place with
  | nil => cases named
  | cons first directory =>
      cases place' with
      | nil => cases named'
      | cons second above =>
          simp only [Option.ite_none_right_eq_some, Option.some.injEq] at named named'
          obtain ⟨rfl, rfl⟩ := named
          obtain ⟨rfl, rfl⟩ := named'
          exact different rfl

theorem nodup_sortedNames (tree : Tree) (location : Location) :
    (tree.sortedNames location).Nodup :=
  (List.mergeSort_perm _ _).nodup_iff.mpr (tree.nodup_namesIn location)

theorem suffix_of_mem_listingOf {found : Location × Node}
    (listed : found ∈ tree.listingOf root name) : name :: root <:+ found.1 := by
  unfold listingOf at listed
  split at listed
  · cases listed
  · rcases List.mem_cons.mp listed with rfl | deeper
    · exact List.suffix_refl _
    · split at deeper
      · exact (mem_beneath.mp deeper).1.suffix
      · cases deeper

/-- A directory is listed before what it holds, and nothing is listed twice. -/
theorem pairwise_beneath (tree : Tree) (root : Location) :
    (tree.beneath root).Pairwise fun earlier later => ¬ later.1 <:+ earlier.1 := by
  generalize size : tree.countBeneath root = count
  induction count using Nat.strongRecOn generalizing root with
  | ind count ih =>
      subst size
      rw [beneath_eq, List.pairwise_flatMap]
      constructor
      · intro name _
        unfold listingOf
        split
        · exact List.Pairwise.nil
        · next node found =>
          refine List.pairwise_cons.mpr ⟨fun later listed back => ?_, ?_⟩
          · split at listed
            · have inner := (mem_beneath.mp listed).1
              exact inner.ne_root (back.eq_of_length_le inner.suffix.length_le)
            · cases listed
          · split
            · exact ih _ (countBeneath_lt found) _ rfl
            · exact List.Pairwise.nil
      · refine (tree.nodup_sortedNames root).imp ?_
        intro first second different earlier listed later listed' back
        have ends := suffix_of_mem_listingOf listed
        have ends' := (suffix_of_mem_listingOf listed').trans back
        have same := (List.suffix_of_suffix_length_le ends ends' (by simp)).eq_of_length (by simp)
        cases same
        exact different rfl

end Tree

end TreeSync

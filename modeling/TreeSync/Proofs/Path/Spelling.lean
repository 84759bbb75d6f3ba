import Mathlib.Data.List.Basic
import TreeSync.Destination.Contents
import TreeSync.Proofs.Disk.Descent

namespace TreeSync

/-! What the spellings of one path have in common.

Names without slashes survive being joined and taken apart again. So a path that is
put together from plain names goes through just these names, and two paths that
normalize alike lead to the same place.
-/

/-- Paths that are joined by a slash have the segments of both. -/
theorem segmentsOf_append_slash (before after : Bytes) :
    segmentsOf (before ++ slash :: after) = segmentsOf before ++ segmentsOf after := by
  induction before with
  | nil => simp [segmentsOf]
  | cons byte rest ih =>
      rw [List.cons_append, segmentsOf, segmentsOf, ih]
      split
      · rfl
      · obtain ⟨first, more, parts⟩ := List.exists_cons_of_ne_nil (Path.segmentsOf_ne_nil rest)
        rw [parts]
        rfl

/-- The steps lead down through exactly the names that are left without the `.` steps. -/
theorem descent?_eq_some_iff {steps : List Component} {names : List Name} :
    descent? steps = some names ↔ steps.filter (· ≠ .current) = names.map .normal := by
  induction steps generalizing names with
  | nil => simp [descent?, eq_comm]
  | cons step rest ih =>
      cases step with
      | current => simpa [descent?] using ih
      | root | parent => cases names <;> simp [descent?]
      | normal first =>
          cases names with
          | nil => simp [descent?]
          | cons name more =>
              rw [List.filter_cons_of_pos (by simp), List.map_cons, List.cons.injEq,
                Component.normal.injEq, ← ih]
              simp only [descent?, Option.map_eq_some_iff, List.cons.injEq]
              constructor
              · rintro ⟨names, further, rfl, rfl⟩
                exact ⟨rfl, further⟩
              · rintro ⟨rfl, further⟩
                exact ⟨more, further, rfl, rfl⟩

namespace Path

variable {path : Path} {names : List Name} {root : Location}

theorem ofSegment?_normal {segment : Name} (stepping : segment ≠ [] ∧ segment ≠ selfName)
    (other : segment ≠ parentName) : Component.ofSegment? segment = some (.normal segment) := by
  rw [Component.ofSegment?, if_neg (not_or.mpr stepping), if_neg other]

theorem ofSegment?_plain {name : Name} (plain : name.Plain) :
    Component.ofSegment? name = some (.normal name) :=
  ofSegment?_normal ⟨plain.nonempty, plain.notSelf⟩ plain.notParent

theorem ofNames_cons (first next : Name) (rest : List Name) :
    ofNames (first :: next :: rest) = ⟨first ++ slash :: (ofNames (next :: rest)).bytes⟩ := by
  simp [ofNames, List.intercalate, List.intersperse]

theorem segments_ofNames (nonempty : names ≠ []) (noSlash : ∀ name ∈ names, slash ∉ name) :
    (ofNames names).segments = names := by
  induction names with
  | nil => exact absurd rfl nonempty
  | cons name rest ih =>
      have first := noSlash name List.mem_cons_self
      cases rest with
      | nil => simpa [ofNames, segments, List.intercalate] using segmentsOf_of_noSlash first
      | cons next more =>
          have tail := ih (by simp) fun other listed => noSlash other (List.mem_cons_of_mem _ listed)
          rw [segments, ofNames_cons, segmentsOf_append_slash, segmentsOf_of_noSlash first]
          exact congrArg (name :: ·) tail

theorem noSlash_of_mem_components {step : Component} (listed : step ∈ path.components) :
    slash ∉ step.bytes := by
  cases step with
  | root => exact List.not_mem_nil
  | current | parent => decide
  | normal name => exact (plain_of_mem_components listed).noSlash

/-- Only a name is spelled like one: the other steps are not plain. -/
theorem eq_map_normal_of_bytes {steps : List Component} (plain : ∀ name ∈ names, name.Plain)
    (spelled : steps.map Component.bytes = names) : steps = names.map .normal := by
  subst spelled
  rw [List.map_map]
  refine (List.map_id steps).symm.trans (List.map_congr_left fun step listed => ?_)
  have fine := plain _ (List.mem_map_of_mem listed)
  cases step with
  | root => exact absurd rfl fine.nonempty
  | current => exact absurd rfl fine.notSelf
  | parent => exact absurd rfl fine.notParent
  | normal name => rfl

theorem isAbsolute_ofNames (plain : ∀ name ∈ names, name.Plain) :
    (ofNames names).isAbsolute = false := by
  cases names with
  | nil => rfl
  | cons name rest =>
      have fine := plain name List.mem_cons_self
      cases name with
      | nil => exact absurd rfl fine.nonempty
      | cons byte more =>
          have other : byte ≠ slash := fun same => fine.noSlash (same ▸ List.mem_cons_self)
          cases rest <;> simp [isAbsolute, ofNames, List.intercalate, List.intersperse, other]

theorem components_ofNames (plain : ∀ name ∈ names, name.Plain) :
    (ofNames names).components = names.map .normal := by
  cases names with
  | nil => decide
  | cons first rest =>
      have whole := segments_ofNames (List.cons_ne_nil first rest) fun name listed =>
        (plain name listed).noSlash
      have relative := isAbsolute_ofNames plain
      have named := plain first List.mem_cons_self
      have anchored : (ofNames (first :: rest)).anchor = [] := by
        rw [anchor, relative, whole]
        simp [named.notSelf]
      rw [components, anchored, whole, List.nil_append,
        List.filterMap_congr fun name listed => ofSegment?_plain (plain name listed)]
      exact congrFun List.filterMap_eq_map _

theorem filter_map_normal (names : List Name) :
    (names.map Component.normal).filter (· ≠ .current) = names.map .normal := by
  rw [List.filter_eq_self]
  intro step listed
  obtain ⟨name, -, rfl⟩ := List.mem_map.mp listed
  rfl

theorem descent_eq_ok_iff : path.descent = .ok names ↔ descent? path.components = some names := by
  unfold descent
  split
  · next found => simp [found]
  · next lost => simp [lost]

theorem descent_ofNames (plain : ∀ name ∈ names, name.Plain) :
    (ofNames names).descent = .ok names := by
  rw [descent_eq_ok_iff, descent?_eq_some_iff, components_ofNames plain, filter_map_normal]

theorem placeBeneath_eq_some_iff :
    path.placeBeneath root = some (names.reverse ++ root) ↔ path.descent = .ok names := by
  unfold placeBeneath
  split
  · next taken down => simp [down]
  · next fault down => simp [down]

theorem placeBeneath_ofNames (plain : ∀ name ∈ names, name.Plain) :
    (ofNames names).placeBeneath root = some (names.reverse ++ root) :=
  placeBeneath_of_descent root (descent_ofNames plain)

theorem normalized_eq_of_steps {rest : List Name}
    (steps : path.components.filter (· ≠ .current) = rest.map .normal) :
    path.normalized = ofNames rest := by
  rw [normalized, steps]
  cases rest with
  | nil => rfl
  | cons first more =>
      simp only [List.map_cons, List.map_map]
      congr 2
      exact List.map_id more

theorem normalized_ofNames (plain : ∀ name ∈ names, name.Plain) :
    (ofNames names).normalized = ofNames names :=
  normalized_eq_of_steps (by rw [components_ofNames plain, filter_map_normal])

/-- Paths that lead to one place are spellings of one entry. -/
theorem normalized_eq_of_placeBeneath {other : Path} {place : Location}
    (placed : path.placeBeneath root = some place) (placed' : other.placeBeneath root = some place) :
    path.normalized = other.normalized := by
  have spelled {path : Path} (placed : path.placeBeneath root = some place) :
      ∃ names, place = names.reverse ++ root ∧ path.normalized = ofNames names := by
    unfold placeBeneath at placed
    split at placed
    · next names down =>
      cases placed
      rw [descent_eq_ok_iff, descent?_eq_some_iff] at down
      exact ⟨names, rfl, normalized_eq_of_steps down⟩
    · cases placed
  obtain ⟨names, rfl, same⟩ := spelled placed
  obtain ⟨names', there, same'⟩ := spelled placed'
  have reversed : names.reverse = names'.reverse := List.append_cancel_right there
  rw [same, same', List.reverse_injective reversed]

/-- A path normalizes to some names just if it leads down through them. -/
theorem normalized_eq_ofNames_iff (nonempty : names ≠ []) (plain : ∀ name ∈ names, name.Plain) :
    path.normalized = ofNames names ↔ path.placeBeneath root = some (names.reverse ++ root) := by
  rw [placeBeneath_eq_some_iff, descent_eq_ok_iff, descent?_eq_some_iff]
  refine ⟨fun same => ?_, normalized_eq_of_steps⟩
  have noSlash (name : Name) (listed : name ∈ names) : slash ∉ name := (plain name listed).noSlash
  unfold normalized at same
  dsimp only at same
  split at same
  · have absolute := isAbsolute_ofNames plain
    rw [← same] at absolute
    cases absolute
  · have spelled := congrArg segments same
    rw [segments_ofNames nonempty noSlash] at spelled
    refine eq_map_normal_of_bytes plain ?_
    cases left : path.components.filter (· ≠ .current) with
    | nil =>
        rw [left] at spelled
        have empty : [[]] = names := spelled
        subst empty
        exact absurd rfl (plain [] List.mem_cons_self).nonempty
    | cons first rest =>
        rw [left, segments_ofNames (by simp)] at spelled
        · exact spelled
        · intro name listed
          obtain ⟨step, kept, rfl⟩ := List.mem_map.mp listed
          rw [← left] at kept
          exact noSlash_of_mem_components ((List.mem_filter.mp kept).1)

end Path

theorem Location.pathTo_append (root : Location) (names : List Name) :
    root.pathTo (names.reverse ++ root) = .ofNames names := by
  simp [pathTo]

end TreeSync

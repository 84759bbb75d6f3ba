import TreeSync.Proofs.Disk.Wayfinding
import TreeSync.Proofs.Path.Spelling

namespace TreeSync

/-! A path, and what it is without its last step.

A path that ends in a name is parted into the segments that lead to its directory and that name.
From there the name can be exchanged: what is above it stays the same path, and the entry that
is named stays one of the same directory.
-/

namespace Path

/-- Whether a segment takes no step where it does not come first. -/
def Idle (segment : Name) : Prop :=
  segment = [] ∨ segment = selfName

/-- The directory that the segments `front` lead to. -/
def ofFront : List Name → Path
  | [[]] => ⟨[slash]⟩
  | front => ofNames front

theorem ofFront_eq {front : List Name} (other : front ≠ [[]]) : ofFront front = ofNames front := by
  unfold ofFront
  split
  · exact absurd rfl other
  · rfl

/-- Segments, last one first, with no idle one at the end. -/
def Settled (segments : List Name) : Prop :=
  dropIdle segments = segments

variable {path : Path} {front before segments : List Name} {leaf name : Name}

theorem dropIdle_idle (idle : Idle name) (more : segments ≠ []) :
    dropIdle (name :: segments) = dropIdle segments := by
  obtain ⟨next, rest, rfl⟩ := List.exists_cons_of_ne_nil more
  rw [dropIdle]
  · exact if_pos idle
  · exact List.cons_ne_nil next rest

theorem dropIdle_append {idle : List Name} (fine : ∀ segment ∈ idle, Idle segment)
    (more : segments ≠ []) : dropIdle (idle ++ segments) = dropIdle segments := by
  induction idle with
  | nil => rfl
  | cons segment rest ih =>
      obtain ⟨here, later⟩ := List.forall_mem_cons.mp fine
      rw [List.cons_append, dropIdle_idle here (by simp [more])]
      exact ih later

theorem settled_cons (steps : ¬ Idle name) : Settled (name :: segments) := by
  unfold Settled
  cases segments with
  | nil => rfl
  | cons next rest =>
      rw [dropIdle]
      · exact if_neg steps
      · exact List.cons_ne_nil next rest

theorem settled_dropIdle (segments : List Name) : Settled (dropIdle segments) := by
  fun_induction dropIdle segments with
  | case1 => rfl
  | case2 => rfl
  | case3 _ _ _ _ ih => exact ih
  | case4 _ _ _ steps => exact settled_cons steps

/-- Only idle segments are dropped, and not all of them. -/
theorem dropIdle_parts (segments : List Name) :
    ∃ idle, segments = idle ++ dropIdle segments ∧ (∀ segment ∈ idle, Idle segment) ∧
      (dropIdle segments = [] → idle = []) := by
  fun_induction dropIdle segments with
  | case1 => exact ⟨[], rfl, List.forall_mem_nil _, fun _ => rfl⟩
  | case2 => exact ⟨[], rfl, List.forall_mem_nil _, fun _ => rfl⟩
  | case3 segment rest single here ih =>
      obtain ⟨idle, parts, fine, all⟩ := ih
      refine ⟨segment :: idle, congrArg (segment :: ·) parts, ?_, fun nothing => ?_⟩
      · exact List.forall_mem_cons.mpr ⟨here, fine⟩
      · rw [nothing, all nothing] at parts
        exact absurd parts single
  | case4 => exact ⟨[], rfl, List.forall_mem_nil _, fun _ => rfl⟩

/-- A change that keeps to the idle segments keeps to what is left without them. -/
theorem dropIdle_map {change : Name → Name} (keeps : ∀ segment, Idle (change segment) ↔ Idle segment)
    (segments : List Name) : dropIdle (segments.map change) = (dropIdle segments).map change := by
  induction segments with
  | nil => rfl
  | cons segment rest ih =>
      cases rest with
      | nil => rfl
      | cons next more =>
          rw [List.map_cons]
          by_cases idle : Idle segment
          · rw [dropIdle_idle idle (List.cons_ne_nil next more),
              dropIdle_idle ((keeps segment).mpr idle) (by simp), ih]
          · have settled : Settled (segment :: next :: more) := settled_cons idle
            rw [settled]
            exact settled_cons ((keeps segment).not.mpr idle)

theorem not_idle_of_plain (plain : name.Plain) : ¬ Idle name :=
  not_or.mpr ⟨plain.nonempty, plain.notSelf⟩

theorem ofSegment?_idle (idle : Idle name) : Component.ofSegment? name = none :=
  if_pos idle

theorem ofNames_concat (nonempty : front ≠ []) (leaf : Name) :
    ofNames (front ++ [leaf]) = ⟨(ofNames front).bytes ++ slash :: leaf⟩ := by
  induction front with
  | nil => exact absurd rfl nonempty
  | cons first rest ih =>
      cases rest with
      | nil => simp [ofNames, List.intercalate, List.intersperse]
      | cons next more =>
          have tail := ih (List.cons_ne_nil next more)
          rw [List.cons_append] at tail
          rw [List.cons_append, List.cons_append, ofNames_cons, ofNames_cons, tail,
            List.append_assoc]
          rfl

/-- Joined names end as the last of them does. -/
theorem ofNames_ends (before : List Name) (leaf : Name) :
    ∃ above, ofNames (before ++ [leaf]) = ⟨above ++ leaf⟩ := by
  cases before with
  | nil => exact ⟨[], by simp [ofNames, List.intercalate]⟩
  | cons next rest =>
      refine ⟨(ofNames (next :: rest)).bytes ++ [slash], ?_⟩
      rw [ofNames_concat (List.cons_ne_nil next rest), List.append_assoc]
      rfl

/-- What is called `leaf` in a directory is reached by way of its segments. -/
theorem child_ofFront (settled : Settled front.reverse) (noSlash : ∀ segment ∈ front, slash ∉ segment)
    (leaf : Name) : (ofFront front).child leaf = ofNames (front ++ [leaf]) := by
  unfold ofFront
  split
  · simp [child, endsInSlash, ofNames, List.intercalate]
  · next other =>
    obtain rfl | ⟨before, last, rfl⟩ := List.eq_nil_or_concat front
    · simp [child, ofNames, List.intercalate]
    rw [List.concat_eq_append] at settled noSlash other ⊢
    have named : last ≠ [] := by
      rintro rfl
      cases before with
      | nil => exact other rfl
      | cons next rest =>
          rw [List.reverse_append, List.reverse_singleton, List.singleton_append] at settled
          obtain ⟨final, others, more⟩ :=
            List.exists_cons_of_ne_nil (show (next :: rest).reverse ≠ [] by simp)
          rw [more] at settled
          exact head_dropIdle_ne_nil settled rfl
    obtain ⟨above, spelled⟩ := ofNames_ends before last
    have unclosed : (ofNames (before ++ [last])).endsInSlash = false := by
      rw [endsInSlash, spelled, List.getLast?_append_of_ne_nil _ named]
      refine Bool.eq_false_iff.mpr fun ends => ?_
      exact noSlash last (by simp) (List.mem_of_getLast? (beq_iff_eq.mp ends))
    have nonempty : (ofNames (before ++ [last])).bytes ≠ [] := by
      rw [spelled]
      simp [named]
    rw [child, if_neg nonempty, if_neg (by simp [unclosed]), ← ofNames_concat (by simp)]

theorem parent?_of_dropIdle {above : List Name} (nonempty : name ≠ [])
    (left : dropIdle path.segments.reverse = name :: above)
    (settled : dropIdle above = front.reverse) : path.parent? = some (ofFront front) := by
  unfold parent?
  rw [left]
  cases above with
  | nil =>
      have top : front = [] := List.reverse_eq_nil_iff.mp settled.symm
      subst top
      exact if_neg nonempty
  | cons next rest =>
      dsimp only
      rw [settled, List.reverse_reverse]
      split
      · rfl
      · next other => rw [ofFront_eq other]

/-- A path is called after its last segment that takes a step, if that is a name. -/
theorem fileName?_of_segments {behind : List Name} (plain : name.Plain)
    (segments : path.segments = before ++ name :: behind)
    (idle : ∀ segment ∈ behind, Idle segment) : path.fileName? = some name := by
  have nothing : behind.filterMap Component.ofSegment? = [] :=
    List.filterMap_eq_nil_iff.mpr fun segment listed => ofSegment?_idle (idle segment listed)
  have ends : path.components.getLast? = some (.normal name) := by
    rw [components, segments, List.filterMap_append,
      List.filterMap_cons_some (ofSegment?_plain plain), nothing, ← List.append_assoc,
      List.getLast?_concat]
  unfold fileName?
  rw [ends]

theorem fileName?_append_slash (above : Bytes) (plain : leaf.Plain) :
    fileName? ⟨above ++ slash :: leaf⟩ = some leaf := by
  have segments : segmentsOf (above ++ slash :: leaf) = segmentsOf above ++ leaf :: [] := by
    rw [segmentsOf_append_slash, segmentsOf_of_noSlash plain.noSlash]
  exact fileName?_of_segments plain segments (List.forall_mem_nil _)

/-- Beneath any directory a name comes first or behind a slash. -/
theorem child_eq (path : Path) (leaf : Name) :
    path.child leaf = ⟨leaf⟩ ∨ ∃ above, path.child leaf = ⟨above ++ slash :: leaf⟩ := by
  unfold child
  split
  · exact .inl rfl
  · split
    · next closed =>
      obtain ⟨above, ends⟩ := List.getLast?_eq_some_iff.mp (beq_iff_eq.mp closed)
      exact .inr ⟨above, by simp [ends]⟩
    · exact .inr ⟨path.bytes, rfl⟩

/-- A path taken apart at the name that it ends in. What stands between the two and behind the
name takes no step. -/
structure Parted (path : Path) (front : List Name) (name : Name) : Prop where
  settled : Settled front.reverse
  plain : name.Plain
  parts : ∃ between behind, path.segments = front ++ between ++ name :: behind ∧
    (∀ segment ∈ between, Idle segment) ∧ (∀ segment ∈ behind, Idle segment) ∧
    (front = [] → between = [])

theorem Parted.noSlash (parted : path.Parted front name) : ∀ segment ∈ front, slash ∉ segment := by
  obtain ⟨between, behind, segments, -⟩ := parted.parts
  intro segment listed
  have inside : segment ∈ path.segments := by
    rw [segments]
    simp [listed]
  exact noSlash_of_mem_segmentsOf inside

theorem Parted.parent? (parted : path.Parted front name) : path.parent? = some (ofFront front) := by
  obtain ⟨between, behind, segments, idle, idle', nothing⟩ := parted.parts
  have reversed : path.segments.reverse =
      behind.reverse ++ name :: (between.reverse ++ front.reverse) := by simp [segments]
  have left : dropIdle path.segments.reverse = name :: (between.reverse ++ front.reverse) := by
    rw [reversed, dropIdle_append (by simpa using idle') (List.cons_ne_nil _ _)]
    exact settled_cons (not_idle_of_plain parted.plain)
  refine parent?_of_dropIdle parted.plain.nonempty left ?_
  by_cases top : front = []
  · rw [nothing top, top]
    rfl
  · rw [dropIdle_append (by simpa using idle) (by simpa using top)]
    exact parted.settled

theorem Parted.fileName? (parted : path.Parted front name) : path.fileName? = some name := by
  obtain ⟨between, behind, segments, -, idle, -⟩ := parted.parts
  exact fileName?_of_segments parted.plain segments idle

/-- A name in a directory is parted from just the segments that lead there. -/
theorem parted_ofNames (settled : Settled front.reverse)
    (noSlash : ∀ segment ∈ front, slash ∉ segment) (plain : leaf.Plain) :
    (ofNames (front ++ [leaf])).Parted front leaf where
  settled := settled
  plain := plain
  parts := by
    refine ⟨[], [], ?_, List.forall_mem_nil _, List.forall_mem_nil _, fun _ => rfl⟩
    rw [segments_ofNames (by simp), List.append_nil]
    exact List.forall_mem_append.mpr ⟨noSlash, List.forall_mem_singleton.mpr plain.noSlash⟩

/-- Without the idle segments, segments that end in a name end in it visibly. -/
theorem parts_of_head_steps
    (ends : (segments.filterMap Component.ofSegment?).head? = some (.normal name)) :
    ∃ behind above, segments = behind ++ name :: above ∧ ∀ segment ∈ behind, Idle segment := by
  induction segments with
  | nil => cases ends
  | cons segment rest ih =>
      by_cases idle : Idle segment
      · rw [List.filterMap_cons_none (ofSegment?_idle idle)] at ends
        obtain ⟨behind, above, rfl, fine⟩ := ih ends
        exact ⟨segment :: behind, above, rfl, List.forall_mem_cons.mpr ⟨idle, fine⟩⟩
      · by_cases up : segment = parentName
        · have up' : Component.ofSegment? segment = some .parent := (if_neg idle).trans (if_pos up)
          rw [List.filterMap_cons_some up'] at ends
          cases ends
        · rw [List.filterMap_cons_some (ofSegment?_normal (not_or.mp idle) up)] at ends
          cases ends
          exact ⟨[], rest, rfl, List.forall_mem_nil _⟩

theorem head_steps_of_fileName? (named : path.fileName? = some name) :
    name.Plain ∧
      (path.segments.reverse.filterMap Component.ofSegment?).head? = some (.normal name) := by
  unfold Path.fileName? at named
  split at named
  · next last =>
    cases named
    refine ⟨plain_of_mem_components (List.mem_of_getLast? last), ?_⟩
    rw [List.filterMap_reverse, List.head?_reverse]
    -- a name is no anchor, so it is the step of a segment
    rw [components, List.getLast?_append] at last
    cases ended : (path.segments.filterMap Component.ofSegment?).getLast? with
    | some step => rwa [ended] at last
    | none =>
        rw [ended] at last
        unfold anchor at last
        split at last
        · cases last
        · split at last <;> cases last
  · cases named

/-- Every path that ends in a name can be taken apart there. -/
theorem parted_of_fileName? (named : path.fileName? = some name) : ∃ front, path.Parted front name := by
  obtain ⟨plain, ends⟩ := head_steps_of_fileName? named
  obtain ⟨behind, above, reversed, idle⟩ := parts_of_head_steps ends
  obtain ⟨between, parts, idle', nothing⟩ := dropIdle_parts above
  refine ⟨(dropIdle above).reverse, ?_, plain, between.reverse, behind.reverse, ?_, ?_, ?_, ?_⟩
  · rw [List.reverse_reverse]
    exact settled_dropIdle above
  · rw [parts] at reversed
    simpa using congrArg List.reverse reversed
  · simpa using idle'
  · simpa using idle
  · simpa using nothing

theorem isAbsolute_iff : path.isAbsolute = true ↔ ∃ next rest, path.segments = [] :: next :: rest := by
  obtain ⟨bytes⟩ := path
  cases bytes with
  | nil => simp [isAbsolute, Path.segments, segmentsOf]
  | cons byte more =>
      obtain ⟨next, rest, split⟩ := List.exists_cons_of_ne_nil (segmentsOf_ne_nil more)
      by_cases top : byte = slash <;> simp [isAbsolute, Path.segments, segmentsOf, top, split]

theorem Parted.isAbsolute_iff (parted : path.Parted front name) :
    path.isAbsolute = true ↔ front.head? = some [] := by
  obtain ⟨between, behind, segments, -, -, nothing⟩ := parted.parts
  rw [Path.isAbsolute_iff, segments]
  cases front with
  | nil => simp [nothing rfl, parted.plain.nonempty]
  | cons first rest =>
      obtain ⟨next, more, tail⟩ :=
        List.exists_cons_of_ne_nil (show rest ++ between ++ name :: behind ≠ [] by simp)
      simp only [List.cons_append, tail]
      simp

/-- Of the segments that take no step, only `.` is left among the steps. -/
theorem Parted.steps (parted : path.Parted front name) :
    ∃ between behind, path.steps = front.filter (· ≠ []) ++ between ++ name :: behind ∧
      (∀ step ∈ between, step = selfName) ∧ ∀ step ∈ behind, step = selfName := by
  obtain ⟨between, behind, segments, idle, idle', -⟩ := parted.parts
  have dots {segments : List Name} (idle : ∀ segment ∈ segments, Idle segment) :
      ∀ step ∈ segments.filter (· ≠ []), step = selfName := by
    intro step listed
    obtain ⟨inside, present⟩ := List.mem_filter.mp listed
    exact (idle step inside).resolve_left (by simpa using present)
  refine ⟨between.filter (· ≠ []), behind.filter (· ≠ []), ?_, dots idle, dots idle'⟩
  simp [Path.steps, segments, parted.plain.nonempty]

end Path

namespace Tree

variable {tree : Tree} {directory place place' : Location} {path other : Path} {front : List Name}
  {name name' source target : Name}

theorem enter_idle {steps : List Name} (idle : ∀ name ∈ steps, name = selfName) (links : Nat) :
    tree.enter links directory steps = .ok directory := by
  induction steps generalizing links with
  | nil => exact enter_nil links
  | cons name rest ih =>
      obtain ⟨here, later⟩ := List.forall_mem_cons.mp idle
      subst here
      rw [← List.singleton_append]
      exact enter_append (fun _ => ih later _) (enter_self links)

/-- Where the entry stands that a parted path names. -/
theorem leads_of_parted (parted : path.Parted front name)
    (aimed : tree.resolve directory path = .ok (.entry place source)) :
    tree.enter maxLinks (if front.head? = some [] then [] else directory)
      (front.filter (· ≠ [])) = .ok place := by
  obtain ⟨between, behind, steps, idle, idle'⟩ := parted.steps
  have start : path.origin directory = if front.head? = some [] then [] else directory := by
    simp only [Path.origin, parted.isAbsolute_iff]
  have target : tree.targetOf (path.origin directory) path.steps = .ok (.entry place source) := by
    have checked := check_of_resolve aimed
    unfold resolve at aimed
    rwa [checked] at aimed
  obtain ⟨led, ends, notSelf, -, reached⟩ := targetOf_entry target
  rw [steps] at ends
  obtain rfl | ⟨others, last, rfl⟩ := List.eq_nil_or_concat behind
  · obtain ⟨rfl, -⟩ := List.append_inj' ends rfl
    obtain ⟨middle, links, led, further⟩ := enter_split reached
    rw [enter_idle idle] at further
    cases further
    exact start ▸ led
  · have itself := idle' last (by simp)
    rw [List.concat_eq_append, ← List.cons_append, ← List.append_assoc] at ends
    obtain ⟨-, same⟩ := List.append_inj' ends rfl
    cases same
    exact absurd itself notSelf

/-- Entries are of one directory if their paths have the same segments above them. -/
theorem place_eq_of_parted (parted : path.Parted front name) (parted' : other.Parted front name')
    (aimed : tree.resolve directory path = .ok (.entry place source))
    (aimed' : tree.resolve directory other = .ok (.entry place' target)) : place = place' := by
  have led := leads_of_parted parted aimed
  rw [leads_of_parted parted' aimed'] at led
  cases led
  rfl

end Tree

end TreeSync

import TreeSync.Text.Utf8

namespace TreeSync

/-! Paths as byte strings, and the components they are made of.

A path is kept byte for byte as it was received. `components` is its meaning:
repeated and trailing slashes carry none, and `.` only counts where it begins a
relative path.
-/

/-- One directory entry's name: no slash, not empty. -/
abbrev Name := Bytes

structure Path where
  bytes : Bytes
deriving DecidableEq, Inhabited

inductive Component where
  | root
  | current
  | parent
  | normal (name : Name)
deriving DecidableEq, Repr

def slash : UInt8 := 0x2F
def dot : UInt8 := 0x2E

def selfName : Name := [dot]

def parentName : Name := [dot, dot]

/-- The stretches between slashes, empty ones included: there is always one more
stretch than there are slashes. -/
def segmentsOf : Bytes → List Name
  | [] => [[]]
  | byte :: rest =>
      if byte = slash then [] :: segmentsOf rest
      else
        match segmentsOf rest with
        | [] => [[byte]]
        | segment :: more => (byte :: segment) :: more

/-- The step a segment takes, if it takes one. -/
def Component.ofSegment? (segment : Name) : Option Component :=
  if segment = [] ∨ segment = selfName then none
  else if segment = parentName then some .parent
  else some (.normal segment)

def Component.bytes : Component → Bytes
  | .root => []
  | .current => selfName
  | .parent => parentName
  | .normal name => name

namespace Path

def ofString (text : String) : Path :=
  ⟨Utf8.encode text.toList⟩

def ofNames (names : List Name) : Path :=
  ⟨[slash].intercalate names⟩

def segments (path : Path) : List Name :=
  segmentsOf path.bytes

def isAbsolute (path : Path) : Bool :=
  path.bytes.head? == some slash

def display (path : Path) : String :=
  Utf8.lossy path.bytes

/-- What comes before the named steps: the root, or the `.` of a relative path. -/
def anchor (path : Path) : List Component :=
  if path.isAbsolute then [.root]
  else if path.segments.head? = some selfName then [.current]
  else []

def components (path : Path) : List Component :=
  path.anchor ++ path.segments.filterMap Component.ofSegment?

/-- Whether the path ends in a slash, and so can only name a directory. -/
def endsInSlash (path : Path) : Bool :=
  path.bytes.getLast? == some slash

/-- The path with every `.` dropped, so that spellings of one entry agree. -/
def normalized (path : Path) : Path :=
  let steps := path.components.filter (· ≠ .current)
  match steps with
  | .root :: rest => ⟨slash :: [slash].intercalate (rest.map Component.bytes)⟩
  | steps => ofNames (steps.map Component.bytes)

def fileName? (path : Path) : Option Name :=
  match path.components.getLast? with
  | some (.normal name) => some name
  | _ => none

/-- Drops segments that take no step from the end of a reversed segment list. The
first segment of a path stays: there `.` is a step and an empty segment the root. -/
def dropIdle : List Name → List Name
  | [] => []
  | [first] => [first]
  | segment :: rest =>
      if segment = [] ∨ segment = selfName then dropIdle rest else segment :: rest

def parent? (path : Path) : Option Path :=
  match dropIdle path.segments.reverse with
  | [] => none
  | [first] => if first = [] then none else some ⟨[]⟩
  | _ :: rest =>
      match (dropIdle rest).reverse with
      | [[]] => some ⟨[slash]⟩
      | kept => some (ofNames kept)

/-- The room `segments` take when each is closed by a slash. -/
def room : List Name → Nat
  | [] => 0
  | segment :: rest => segment.length + 1 + room rest

theorem length_ofNames {segments : List Name} (nonempty : segments ≠ []) :
    (ofNames segments).bytes.length + 1 = room segments := by
  induction segments with
  | nil => exact absurd rfl nonempty
  | cons segment rest ih =>
      cases rest with
      | nil => simp [ofNames, room, List.intercalate]
      | cons next more =>
          have tail := ih (by simp)
          simp only [ofNames, room, List.intercalate, List.intersperse, List.flatten_cons,
            List.length_append, List.length_cons,
            List.length_nil] at tail ⊢
          omega

theorem segmentsOf_ne_nil (bytes : Bytes) : segmentsOf bytes ≠ [] := by
  cases bytes with
  | nil => simp [segmentsOf]
  | cons byte rest =>
      simp only [segmentsOf]
      split
      · simp
      · split <;> simp

theorem ofNames_segments (path : Path) : ofNames path.segments = path := by
  obtain ⟨bytes⟩ := path
  simp only [ofNames, segments, mk.injEq]
  induction bytes with
  | nil => rfl
  | cons byte rest ih =>
      rw [segmentsOf]
      split
      · next same =>
        subst same
        have present := segmentsOf_ne_nil rest
        cases split : segmentsOf rest with
        | nil => exact absurd split present
        | cons first more =>
            rw [split] at ih
            simpa [List.intercalate, List.intersperse] using ih
      · cases split : segmentsOf rest with
        | nil => exact absurd split (segmentsOf_ne_nil rest)
        | cons first more =>
            rw [split] at ih
            cases more <;> simpa [List.intercalate, List.intersperse] using ih

theorem room_segments (path : Path) : room path.segments = path.bytes.length + 1 := by
  have rejoined := length_ofNames (segmentsOf_ne_nil path.bytes)
  rw [show ofNames (segmentsOf path.bytes) = path from ofNames_segments path] at rejoined
  exact rejoined.symm

theorem room_append (first second : List Name) :
    room (first ++ second) = room first + room second := by
  induction first with
  | nil => simp [room]
  | cons segment rest ih =>
      simp only [List.cons_append, room, ih]
      omega

theorem room_reverse (segments : List Name) : room segments.reverse = room segments := by
  induction segments with
  | nil => rfl
  | cons segment rest ih =>
      simp only [List.reverse_cons, room_append, room, ih]
      omega

theorem room_dropIdle (segments : List Name) : room (dropIdle segments) ≤ room segments := by
  fun_induction dropIdle segments with
  | case1 => exact Nat.le_refl _
  | case2 => exact Nat.le_refl _
  | case3 segment rest _ _ ih =>
      simp only [room] at ih ⊢
      omega
  | case4 => exact Nat.le_refl _

/-- What is left once the idle end is dropped ends in a step, if more than the
first segment is left. -/
theorem head_dropIdle_ne_nil {segments rest : List Name} {last next : Name}
    (left : dropIdle segments = last :: next :: rest) : last ≠ [] := by
  fun_induction dropIdle segments with
  | case1 => cases left
  | case2 => cases left
  | case3 _ _ _ _ ih => exact ih left
  | case4 segment _ _ stepping =>
      cases left
      intro empty
      exact stepping (Or.inl empty)

theorem parent?_length {path parent : Path} (found : path.parent? = some parent) :
    parent.bytes.length < path.bytes.length := by
  have whole := room_segments path
  rw [← room_reverse] at whole
  have kept := room_dropIdle path.segments.reverse
  unfold parent? at found
  split at found
  · cases found
  · next first left =>
    split at found
    · cases found
    · next named =>
      cases found
      have positive := List.length_pos_iff.mpr named
      simp only [left, room] at kept
      simp only [List.length_nil]
      omega
  · next last rest single left =>
    obtain ⟨next, others, rfl⟩ := List.exists_cons_of_ne_nil single
    have named := List.length_pos_iff.mpr (head_dropIdle_ne_nil left)
    have inner := room_dropIdle (next :: others)
    simp only [left, room] at kept inner whole
    split at found
    · cases found
      simp only [List.length_cons, List.length_nil]
      omega
    · cases found
      by_cases empty : (dropIdle (next :: others)).reverse = []
      · simp only [empty, ofNames, List.intercalate, List.intersperse, List.flatten_nil,
          List.length_nil]
        omega
      · have shorter := length_ofNames empty
        rw [room_reverse] at shorter
        omega

def child (path : Path) (name : Name) : Path :=
  if path.bytes = [] then ⟨name⟩
  else if path.endsInSlash then ⟨path.bytes ++ name⟩
  else ⟨path.bytes ++ slash :: name⟩

end Path

end TreeSync

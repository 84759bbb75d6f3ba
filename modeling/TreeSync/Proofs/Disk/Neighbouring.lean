import TreeSync.Proofs.Disk.Placing
import TreeSync.Proofs.Path.Parting
import TreeSync.Proofs.Text.Mending

namespace TreeSync

/-! Where a temporary file stands beside what it is for.

The path of a temporary file is read as text when the random characters are filled in. So the
directory in it is the destination's own as far as that is text, and then the file is moved
within one directory.
-/

open TreeSync.Action

namespace Path

variable {front : List Name} {segment : Name}

theorem slash_not_mem_mend (noSlash : slash ∉ segment) : slash ∉ Utf8.mend segment :=
  Utf8.slash_not_mem_encode (Utf8.slash_not_mem_lossyChars noSlash)

theorem idle_mend : Idle (Utf8.mend segment) ↔ Idle segment :=
  or_congr Utf8.mend_eq_nil_iff Utf8.mend_eq_selfName_iff

theorem settled_mend (settled : Settled front.reverse) :
    Settled (front.map Utf8.mend).reverse := by
  unfold Settled at settled ⊢
  rw [← List.map_reverse, dropIdle_map fun _ => idle_mend, settled]

/-- Mending goes by segments. -/
theorem mend_ofNames (names : List Name) :
    Utf8.mend (ofNames names).bytes = (ofNames (names.map Utf8.mend)).bytes := by
  induction names with
  | nil => rfl
  | cons first rest ih =>
      cases rest with
      | nil => simp [ofNames, List.intercalate]
      | cons next more =>
          rw [ofNames_cons, Utf8.mend_append_slash, ih]
          simp only [List.map_cons, ofNames_cons]

theorem mend_ofFront (front : List Name) :
    ⟨Utf8.mend (ofFront front).bytes⟩ = ofFront (front.map Utf8.mend) := by
  by_cases top : front = [[]]
  · subst top
    rfl
  · have top' : front.map Utf8.mend ≠ [[]] := by
      intro same
      obtain ⟨first, rest, rfl, empty, nothing⟩ := List.map_eq_cons_iff.mp same
      rw [List.map_eq_nil_iff] at nothing
      rw [Utf8.mend_eq_nil_iff] at empty
      exact top (by rw [empty, nothing])
    rw [ofFront_eq top, ofFront_eq top', mend_ofNames]

/-- A path that is text is so by segments. -/
theorem map_mend_of_text (noSlash : ∀ segment ∈ front, slash ∉ segment)
    (text : ∃ chars, Utf8.encode chars = (ofFront front).bytes) : front.map Utf8.mend = front := by
  by_cases none : front = []
  · rw [none]
    rfl
  by_cases top : front = [[]]
  · rw [top]
    rfl
  have noSlash' : ∀ segment ∈ front.map Utf8.mend, slash ∉ segment := by
    intro segment listed
    obtain ⟨given, inside, rfl⟩ := List.mem_map.mp listed
    exact slash_not_mem_mend (noSlash given inside)
  rw [ofFront_eq top, ← Utf8.mend_eq_self_iff, mend_ofNames] at text
  have same : (ofNames (front.map Utf8.mend)).segments = (ofNames front).segments :=
    congrArg segmentsOf text
  rwa [segments_ofNames (by simpa using none) noSlash', segments_ofNames none noSlash] at same

end Path

namespace Temporary

variable {destination : Path} {name : Name} {front : List Name} {disk : Disk}
  {directory : Location}

theorem stem_parted (parted : destination.Parted front name) : stem destination = stem ⟨name⟩ := by
  rw [stem_plain parted.plain, stem, parted.fileName?]

/-- What stands before the name is mended, and the name is filled in as if it stood alone. -/
theorem filled_append_slash (before : Bytes) (chars : List Char) (random : RandomBytes) :
    filled ⟨before ++ slash :: Utf8.encode (chars ++ placeholder)⟩ random =
      ⟨Utf8.mend before ++ slash :: (Utf8.encode chars ++ suffix random)⟩ := by
  have text : Utf8.lossyChars (before ++ slash :: Utf8.encode (chars ++ placeholder)) =
      (Utf8.lossyChars before ++ '/' :: chars) ++ placeholder := by
    rw [Utf8.lossyChars_append_slash, Utf8.lossyChars_encode]
    simp
  rw [filled_of_text text, Utf8.encode_append, List.append_assoc]
  rfl

/-- The temporary file takes the place of the name, beneath what is left of the segments above. -/
theorem filled_eq (parted : destination.Parted front name) (random : RandomBytes) :
    filled (template destination) random =
      .ofNames (front.map Utf8.mend ++ [nameFor name random]) := by
  have template : template destination =
      .ofNames (front ++ [Utf8.encode (nameTemplate destination)]) := by
    unfold template
    rw [parted.parent?]
    exact Path.child_ofFront parted.settled parted.noSlash _
  rw [template, nameTemplate_eq, stem_parted parted, nameFor_eq parted.plain.noSlash, leafFor]
  by_cases top : front = []
  · subst top
    have alone (name : Name) : Path.ofNames ([] ++ [name]) = ⟨name⟩ := by
      simp [Path.ofNames, List.intercalate]
    rw [List.map_nil, alone, alone, filled_encode]
  · rw [Path.ofNames_concat top, Path.ofNames_concat (by simpa using top), ← Path.mend_ofNames,
      filled_append_slash]

theorem parted_filled (parted : destination.Parted front name) (random : RandomBytes) :
    (filled (template destination) random).Parted (front.map Utf8.mend) (nameFor name random) := by
  rw [filled_eq parted]
  have plain := plain_nameFor parted.plain.noSlash random
  refine Path.parted_ofNames (Path.settled_mend parted.settled) ?_ plain
  intro segment listed
  obtain ⟨given, inside, rfl⟩ := List.mem_map.mp listed
  exact Path.slash_not_mem_mend (parted.noSlash given inside)

theorem createWithin_path (template : Path) (attempts : Nat) :
    Meets (createWithin directory template attempts) disk
      (fun temporary _ => ∃ turn, temporary.path = filled template (disk.entropy turn))
      (fun _ _ => True) := by
  induction attempts generalizing disk with
  | zero => exact Meets.throw trivial
  | succ attempts ih =>
      refine draw_meets.followedBy (fun _ _ no => no.elim) ?_
      intro random _ drawn
      obtain ⟨rfl, rfl⟩ := drawn
      refine Meets.attempt (Disk.createFile_meets _) (fun file _ _ => ?_) ?_
      · refine (Disk.granted_meets _).followedBy (fun _ _ _ => trivial) fun _ _ _ => ?_
        exact Meets.pure ⟨_, rfl⟩
      intro fault _ same
      subst same
      dsimp only
      split
      · exact ih
      · exact Meets.throw trivial

/-- What has the same segments above it is moved within one directory. -/
theorem persist_within {temporary : Temporary} {name' : Name} {before after : Disk}
    (beside : temporary.path.Parted front name') (parted : destination.Parted front name)
    (moved : temporary.persist destination before = .ok () after) :
    ∃ place source target, after = before.perform (.renamed (source :: place) (target :: place)) := by
  have renamed : Meets (temporary.persist destination) before _ fun _ _ => True :=
    Meets.onFailure ((Disk.renameFile_meets _ _).mono (fun _ _ met => met) fun _ _ _ => trivial)
  obtain ⟨place, source, place', target, from_, to_, -, rfl⟩ := renamed.of_ok moved
  rw [Tree.place_eq_of_parted beside parted from_ to_]
  exact ⟨place', source, target, rfl⟩

/-- A temporary file is made next to its destination just if the path of that directory is text.
Of any other the broken stretches are lost. -/
theorem create_beside (named : destination.fileName? = some name) :
    ∃ parent, destination.parent? = some parent ∧
      (∀ random, (filled (template destination) random).parent? = some ⟨Utf8.mend parent.bytes⟩ ∧
        (filled (template destination) random).fileName? = some (nameFor name random) ∧
        ((filled (template destination) random).parent? = destination.parent? ↔
          ∃ chars, Utf8.encode chars = parent.bytes)) ∧
      ∀ directory disk temporary made, create directory destination disk = .ok temporary made →
        (∃ turn, temporary.path = filled (template destination) (disk.entropy turn)) ∧
        ((∃ chars, Utf8.encode chars = parent.bytes) → ∀ before after,
          temporary.persist destination before = .ok () after →
          ∃ place source target,
            after = before.perform (.renamed (source :: place) (target :: place))) := by
  obtain ⟨front, parted⟩ := Path.parted_of_fileName? named
  have above := parted.parent?
  refine ⟨.ofFront front, above, fun random => ?_, ?_⟩
  · have filled := parted_filled parted random
    have mended := filled.parent?
    rw [← Path.mend_ofFront] at mended
    refine ⟨mended, filled.fileName?, ?_⟩
    rw [mended, above, ← Utf8.mend_eq_self_iff]
    constructor
    · exact fun same => congrArg Path.bytes (Option.some.inj same)
    · exact fun same => congrArg (fun bytes => some (Path.mk bytes)) same
  intro directory disk temporary made ran
  obtain ⟨turn, path⟩ := (createWithin_path (template destination) maxAttempts).of_ok ran
  refine ⟨⟨turn, path⟩, fun text before after moved => ?_⟩
  have beside := parted_filled parted (disk.entropy turn)
  rw [← path, Path.map_mend_of_text parted.noSlash text] at beside
  exact persist_within beside parted moved

/-- A name need not be text for that. -/
theorem create_beside_unreadable_name :
    Path.fileName? ⟨[0x73, slash, 0xFF]⟩ = some [0xFF] ∧
      ∀ random, (filled (template ⟨[0x73, slash, 0xFF]⟩) random).parent? =
        Path.parent? ⟨[0x73, slash, 0xFF]⟩ := by
  have named : Path.fileName? ⟨[0x73, slash, 0xFF]⟩ = some [0xFF] := by decide
  refine ⟨named, fun random => ?_⟩
  obtain ⟨parent, above, paths, -⟩ := create_beside named
  have inside : Path.parent? ⟨[0x73, slash, 0xFF]⟩ = some ⟨[0x73]⟩ := by decide
  rw [inside] at above
  cases above
  exact (paths random).2.2.mpr ⟨['s'], by decide⟩

/-- Beneath a directory whose name is not text, the temporary file is sought in another one. -/
theorem filled_astray :
    Path.fileName? ⟨[0xFF, slash, 0x78]⟩ = some [0x78] ∧
      Path.parent? ⟨[0xFF, slash, 0x78]⟩ = some ⟨[0xFF]⟩ ∧
      (filled (template ⟨[0xFF, slash, 0x78]⟩) (Vector.replicate 6 0)).parent? =
        some ⟨[0xEF, 0xBF, 0xBD]⟩ := by
  decide +kernel

end Temporary

end TreeSync

import TreeSync.Disk.Temporary
import TreeSync.Proofs.Disk.Descent
import TreeSync.Proofs.Text.Utf8

namespace TreeSync

/-! The names of temporary files.

A name is read as text and written back as bytes on the way to its temporary name. No
slash comes in by that, so a temporary file stands next to what it is for.
-/

namespace Utf8

theorem slash_not_mem_lossyChars {bytes : Bytes} (noSlash : slash ∉ bytes) :
    '/' ∉ lossyChars bytes :=
  ascii_not_mem_lossyChars (by decide) rfl noSlash

theorem slash_not_mem_encode {chars : List Char} (noSlash : '/' ∉ chars) : slash ∉ encode chars :=
  ascii_not_mem_encode (by decide) rfl noSlash

end Utf8

namespace Temporary

theorem slash_not_mem_stem (destination : Path) : '/' ∉ stem destination := by
  unfold stem Path.fileName?
  split
  · next name found =>
    split at found
    · next last =>
      cases found
      have plain := Path.plain_of_mem_components (List.mem_of_getLast? last)
      exact Utf8.slash_not_mem_lossyChars plain.noSlash
    · cases found
  · decide

theorem mem_of_mem_fitting {char : Char} {room : Nat} {chars : List Char}
    (listed : char ∈ fitting room chars) : char ∈ chars := by
  induction chars generalizing room with
  | nil => exact listed
  | cons first rest ih =>
      rw [fitting] at listed
      split at listed
      · rcases List.mem_cons.mp listed with rfl | later
        · exact List.mem_cons_self
        · exact List.mem_cons_of_mem _ (ih later)
      · cases listed

theorem mem_of_mem_fitted {char : Char} {base : List Char} (listed : char ∈ fitted base) :
    char ∈ base := by
  unfold fitted at listed
  dsimp only at listed
  split at listed
  · exact listed
  · have kept := (List.dropWhile_sublist _).mem (List.mem_reverse.mp listed)
    exact mem_of_mem_fitting (List.mem_reverse.mp kept)

theorem slash_not_mem_hidden {chars : List Char} (noSlash : '/' ∉ chars) : '/' ∉ hidden chars := by
  unfold hidden
  split
  · exact noSlash
  · simp only [List.mem_cons, not_or]
    exact ⟨by decide, noSlash⟩

/-- A destination that is a bare name has its temporary file beside it. -/
theorem template_of_noSlash {name : Name} (noSlash : slash ∉ name) :
    template ⟨name⟩ = ⟨Utf8.encode (nameTemplate ⟨name⟩)⟩ := by
  have above : Path.parent? ⟨name⟩ = none ∨ Path.parent? ⟨name⟩ = some ⟨[]⟩ := by
    unfold Path.parent? Path.segments
    rw [segmentsOf_of_noSlash noSlash, List.reverse_singleton, Path.dropIdle]
    dsimp only
    split
    · exact .inl rfl
    · exact .inr rfl
  unfold template
  rcases above with nothing | present
  · rw [nothing]
  · rw [present]
    rfl

theorem mem_alphabet_of_mem_suffix {byte : UInt8} {random : RandomBytes}
    (listed : byte ∈ suffix random) : byte ∈ alphabet := by
  obtain ⟨drawn, _, rfl⟩ := List.mem_map.mp listed
  exact List.get_mem _ _

theorem not_mem_suffix {byte : UInt8} (other : byte ∉ alphabet) (random : RandomBytes) :
    byte ∉ suffix random :=
  fun listed => other (mem_alphabet_of_mem_suffix listed)

/-- The last component of a temporary file's path, whatever stands before it. -/
def leafFor (destination : Path) (random : RandomBytes) : Name :=
  Utf8.encode (fitted (hidden (stem destination)) ++ ['.']) ++ suffix random

theorem leafFor_eq (destination : Path) (random : RandomBytes) :
    leafFor destination random =
      Utf8.encode (fitted (hidden (stem destination))) ++ dot :: suffix random := by
  rw [leafFor, Utf8.encode_append, List.append_assoc]
  rfl

theorem length_suffix (random : RandomBytes) : (suffix random).length = 6 := by
  simp [suffix]

theorem plain_leafFor (destination : Path) (random : RandomBytes) :
    (leafFor destination random).Plain := by
  have long : 6 ≤ (leafFor destination random).length := by
    rw [leafFor, List.length_append, length_suffix]
    exact Nat.le_add_left 6 _
  have longer (short : Name) (few : short.length < 6) : leafFor destination random ≠ short := by
    intro same
    rw [same] at long
    omega
  refine ⟨longer [] (by decide), ?_, longer selfName (by decide), longer parentName (by decide)⟩
  have front : '/' ∉ fitted (hidden (stem destination)) ++ ['.'] := by
    simp only [List.mem_append, List.mem_singleton, not_or]
    refine ⟨fun listed => ?_, by decide⟩
    exact slash_not_mem_hidden (slash_not_mem_stem destination) (mem_of_mem_fitted listed)
  simp only [leafFor, List.mem_append, not_or]
  exact ⟨Utf8.slash_not_mem_encode front, not_mem_suffix (by decide) random⟩

theorem nameTemplate_eq (destination : Path) :
    nameTemplate destination = (fitted (hidden (stem destination)) ++ ['.']) ++ placeholder := by
  simp [nameTemplate]

theorem filled_of_text {template : Path} {front : List Char}
    (text : Utf8.lossyChars template.bytes = front ++ placeholder) (random : RandomBytes) :
    filled template random = ⟨Utf8.encode front ++ suffix random⟩ := by
  unfold filled
  dsimp only
  rw [text, List.length_append, Nat.add_sub_cancel, List.take_left]

theorem filled_encode (chars : List Char) (random : RandomBytes) :
    filled ⟨Utf8.encode (chars ++ placeholder)⟩ random = ⟨Utf8.encode chars ++ suffix random⟩ :=
  filled_of_text (Utf8.lossyChars_encode _) random

/-- The name of the temporary file for `name` that a draw gives. -/
def nameFor (name : Name) (random : RandomBytes) : Name :=
  (filled (template ⟨name⟩) random).bytes

theorem nameFor_eq {name : Name} (noSlash : slash ∉ name) (random : RandomBytes) :
    nameFor name random = leafFor ⟨name⟩ random := by
  rw [nameFor, template_of_noSlash noSlash, nameTemplate_eq, filled_encode]
  rfl

theorem plain_nameFor {name : Name} (noSlash : slash ∉ name) (random : RandomBytes) :
    (nameFor name random).Plain :=
  nameFor_eq noSlash random ▸ plain_leafFor _ random

end Temporary

end TreeSync

import TreeSync.Proofs.Disk.Fitting
import TreeSync.Proofs.Disk.Neighbouring
import TreeSync.Proofs.Text.Slicing

namespace TreeSync

/-! What the name of a temporary file looks like.

The name is cut out of text at positions that are counted in bytes. All of them are boundaries,
however long the name is that it comes from and whether or not that one is text, and what comes out
is a name that the system takes for a hidden file.
-/

namespace Temporary

variable {destination : Path}

/-- The first character that is not kept is one for which there is no room. -/
theorem exists_fitting_append (room : Nat) (chars : List Char) :
    ∃ rest, chars = fitting room chars ++ rest ∧
      ∀ char more, rest = char :: more → room < Utf8.size (fitting room chars) + char.utf8Size := by
  induction chars generalizing room with
  | nil => exact ⟨[], rfl, nofun⟩
  | cons char rest ih =>
      rw [fitting]
      split
      · next fits =>
        obtain ⟨left, parts, full⟩ := ih (room - char.utf8Size)
        refine ⟨left, congrArg (char :: ·) parts, fun next more same => ?_⟩
        have past := full next more same
        rw [Utf8.size]
        omega
      · next full =>
        refine ⟨char :: rest, rfl, fun next more same => ?_⟩
        cases same
        rw [Utf8.size]
        omega

theorem boundaryUpTo_eq (room : Nat) (chars : List Char) :
    Utf8.boundaryUpTo chars room = Utf8.size (fitting room chars) := by
  obtain ⟨rest, parts, full⟩ := exists_fitting_append room chars
  calc
    Utf8.boundaryUpTo chars room = Utf8.boundaryUpTo (fitting room chars ++ rest) room :=
      congrArg (Utf8.boundaryUpTo · room) parts
    _ = _ := Utf8.boundaryUpTo_append (size_fitting room chars) full

theorem splitAt?_boundaryUpTo (room : Nat) (chars : List Char) :
    ∃ rest, Utf8.splitAt? (Utf8.boundaryUpTo chars room) chars = some (fitting room chars, rest) := by
  obtain ⟨rest, parts, -⟩ := exists_fitting_append room chars
  exact ⟨rest, Utf8.splitAt?_eq_some_iff.mpr ⟨parts, (boundaryUpTo_eq room chars).symm⟩⟩

/-- The template is what is left when the whole name is shortened. -/
theorem shorten?_closed (base : List Char) :
    Utf8.shorten? Name.maxLength (placeholder.length + 1) (base ++ '.' :: placeholder) =
      some (fitted base ++ '.' :: placeholder) := by
  have closing : Utf8.size ('.' :: placeholder) = placeholder.length + 1 := by decide
  have whole := Utf8.size_append base ('.' :: placeholder)
  have most : Name.maxLength = frontRoom + (placeholder.length + 1) := rfl
  unfold Utf8.shorten?
  by_cases short : Utf8.size base ≤ frontRoom
  · rw [if_pos (by omega), fitted_short short]
  · have room : Name.maxLength.psub (placeholder.length + 1) = some frontRoom := rfl
    have front := Utf8.cutBeforeEnd?_append base ('.' :: placeholder)
    obtain ⟨rest, kept⟩ := splitAt?_boundaryUpTo frontRoom base
    rw [closing] at front
    rw [if_neg (by omega), front, room, fitted_long (by omega)]
    simp only [Option.bind_eq_bind, Option.bind_some]
    rw [Nat.min_eq_left (by omega), kept]
    rfl

/-- Cuts off what stands for the random characters, and puts these there. -/
def fill? (template : Path) (random : RandomBytes) : Option Path := do
  let (front, _) ← Utf8.cutBeforeEnd? placeholder.length (Utf8.lossyChars template.bytes)
  return ⟨Utf8.encode front ++ suffix random⟩

theorem fill?_of_text {template : Path} {front : List Char}
    (text : Utf8.lossyChars template.bytes = front ++ placeholder) (random : RandomBytes) :
    fill? template random = some (filled template random) := by
  have cut : Utf8.cutBeforeEnd? placeholder.length (front ++ placeholder) = some (front, placeholder) :=
    Utf8.cutBeforeEnd?_append front placeholder
  rw [filled_of_text text, fill?, text, cut]
  rfl

/-- The template as text: what stands before the name, if anything, ends in a slash. -/
theorem lossyChars_template (destination : Path) :
    ∃ above, (above = [] ∨ ∃ before, above = before ++ ['/']) ∧
      Utf8.lossyChars (template destination).bytes =
        above ++ (fitted (hidden (stem destination)) ++ ['.']) ++ placeholder := by
  have alone : template destination = ⟨Utf8.encode (nameTemplate destination)⟩ ∨
      ∃ before, template destination = ⟨before ++ slash :: Utf8.encode (nameTemplate destination)⟩ := by
    unfold template
    dsimp only
    split
    · exact Path.child_eq _ _
    · exact .inl rfl
  rcases alone with same | ⟨before, same⟩
  · refine ⟨[], .inl rfl, ?_⟩
    rw [same, Utf8.lossyChars_encode, nameTemplate_eq, List.nil_append]
  · refine ⟨Utf8.lossyChars before ++ ['/'], .inr ⟨_, rfl⟩, ?_⟩
    rw [same, Utf8.lossyChars_append_slash, Utf8.lossyChars_encode, nameTemplate_eq]
    simp

theorem fileName?_filled (destination : Path) (random : RandomBytes) :
    (filled (template destination) random).fileName? = some (leafFor destination random) := by
  obtain ⟨above, closed, text⟩ := lossyChars_template destination
  have plain := plain_leafFor destination random
  have path : filled (template destination) random =
      ⟨Utf8.encode above ++ leafFor destination random⟩ := by
    rw [filled_of_text text, Utf8.encode_append, List.append_assoc, leafFor]
  rw [path]
  rcases closed with rfl | ⟨before, rfl⟩
  · exact Path.fileName?_plain plain
  · have joined : Utf8.encode (before ++ ['/']) = Utf8.encode before ++ [slash] :=
      Utf8.encode_append before ['/']
    rw [joined, List.append_assoc]
    exact Path.fileName?_append_slash _ plain

/-- How the name of a temporary file is spelled. -/
structure Presentable (name : Name) : Prop extends name.Sound where
  text : ∃ chars, Utf8.encode chars = name
  isHidden : name.head? = some dot
  ending : ∃ before drawn, name = before ++ dot :: drawn ∧ drawn.length = 6 ∧
    ∀ byte ∈ drawn, byte ∈ alphabet

/-- If nothing is left before the suffix, then that brings the dot. -/
theorem head_leafFor (destination : Path) (random : RandomBytes) :
    (leafFor destination random).head? = some dot := by
  have front : (fitted (hidden (stem destination)) ++ ['.']).head? = some '.' := by
    by_cases nothing : fitted (hidden (stem destination)) = []
    · rw [nothing]
      rfl
    · rw [List.head?_append_of_ne_nil _ nothing, head_fitted_hidden nothing]
  obtain ⟨rest, begins⟩ := List.head?_eq_some_iff.mp front
  rw [leafFor, begins]
  rfl

theorem presentable_leafFor (clean : ∀ name ∈ destination.fileName?, 0 ∉ name)
    (random : RandomBytes) : Presentable (leafFor destination random) where
  toSound := sound_leafFor clean random
  text := by
    refine ⟨fitted (hidden (stem destination)) ++ ['.'] ++ letters random, ?_⟩
    rw [Utf8.encode_append, encode_letters, leafFor]
  isHidden := head_leafFor destination random
  ending := ⟨_, suffix random, leafFor_eq destination random, length_suffix random,
    fun _ => mem_alphabet_of_mem_suffix⟩

/-- No cut on the way to a temporary name falls inside a character or before the start, and the
last component of the path is a presentable name. -/
theorem filled_presentable (clean : ∀ name ∈ destination.fileName?, 0 ∉ name) :
    Utf8.shorten? Name.maxLength (placeholder.length + 1)
        (hidden (stem destination) ++ '.' :: placeholder) = some (nameTemplate destination) ∧
      ∀ random, fill? (template destination) random = some (filled (template destination) random) ∧
        ∃ name, (filled (template destination) random).fileName? = some name ∧ Presentable name := by
  refine ⟨shorten?_closed _, fun random => ⟨?_, _, fileName?_filled destination random, ?_⟩⟩
  · obtain ⟨above, -, text⟩ := lossyChars_template destination
    exact fill?_of_text text random
  · exact presentable_leafFor clean random

/-- Ninety bytes of no text are read as three times as many, and the cut falls a byte before the room
ends. -/
theorem filled_presentable_unreadable :
    (∀ name ∈ Path.fileName? ⟨List.replicate 90 0xFF⟩, 0 ∉ name) ∧
      ∀ random, ∃ name, (filled (template ⟨List.replicate 90 0xFF⟩) random).fileName? = some name ∧
        Presentable name := by
  have clean : ∀ name ∈ Path.fileName? ⟨List.replicate 90 0xFF⟩, 0 ∉ name := by decide +kernel
  exact ⟨clean, fun random => ((filled_presentable clean).2 random).2⟩

end Temporary

end TreeSync

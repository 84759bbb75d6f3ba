import Mathlib.Data.List.DropRight
import Mathlib.Data.Nat.PSub
import TreeSync.Proofs.Text.Utf8

namespace TreeSync.Utf8

/-! Text that is cut at byte positions.

A position is a boundary if the characters before it take up just that many bytes. A cut anywhere
else, or before the start, comes to nothing at all, so what does come to something was only ever
cut at boundaries.
-/

variable {chars before after : List Char} {index most : Nat}

theorem size_pos {char : Char} : 0 < size (char :: chars) :=
  Nat.lt_of_lt_of_le char.utf8Size_pos (Nat.le_add_right _ _)

/-- The characters before a boundary, and those after it. -/
def splitAt? : Nat → List Char → Option (List Char × List Char)
  | 0, chars => some ([], chars)
  | _ + 1, [] => none
  | index + 1, char :: rest =>
      if char.utf8Size ≤ index + 1 then
        (splitAt? (index + 1 - char.utf8Size) rest).map fun (before, after) =>
          (char :: before, after)
      else none

/-- The last boundary up to a position. -/
def boundaryUpTo (chars : List Char) : Nat → Nat
  | 0 => 0
  | index + 1 =>
      if (splitAt? (index + 1) chars).isSome then index + 1 else boundaryUpTo chars index

/-- Cuts the text so many bytes before its end. -/
def cutBeforeEnd? (count : Nat) (chars : List Char) : Option (List Char × List Char) := do
  splitAt? (← (size chars).psub count) chars

/-- Shortens text to `most` bytes at a boundary, and leaves no dot there. Its last `closing` bytes
are kept. -/
def shorten? (most closing : Nat) (chars : List Char) : Option (List Char) :=
  if size chars ≤ most then some chars
  else do
    let (front, ending) ← cutBeforeEnd? closing chars
    let room ← most.psub closing
    let (kept, _) ← splitAt? (boundaryUpTo front (min room (size front))) front
    return kept.rdropWhile (· = '.') ++ ending

theorem splitAt?_eq_some_iff :
    splitAt? index chars = some (before, after) ↔ chars = before ++ after ∧ size before = index := by
  fun_induction splitAt? index chars generalizing before after with
  | case1 chars =>
      constructor
      · intro same
        cases same
        exact ⟨rfl, rfl⟩
      · rintro ⟨rfl, nothing⟩
        cases before with
        | nil => rfl
        | cons char rest => exact absurd nothing (Nat.ne_of_gt size_pos)
  | case2 index =>
      refine iff_of_false nofun ?_
      rintro ⟨empty, whole⟩
      obtain ⟨rfl, -⟩ := List.append_eq_nil_iff.mp empty.symm
      cases whole
  | case3 index char rest fits ih =>
      constructor
      · intro same
        obtain ⟨⟨front, back⟩, inside, joined⟩ := Option.map_eq_some_iff.mp same
        obtain ⟨parts, whole⟩ := ih.mp inside
        cases joined
        refine ⟨congrArg (char :: ·) parts, ?_⟩
        rw [size]
        omega
      · rintro ⟨parts, whole⟩
        cases before with
        | nil => cases whole
        | cons first front =>
            obtain ⟨rfl, rfl⟩ := List.cons.inj parts
            rw [size] at whole
            have inside := ih.mpr ⟨rfl, by omega⟩
            rw [inside]
            rfl
  | case4 index char rest full =>
      refine iff_of_false nofun ?_
      rintro ⟨parts, whole⟩
      cases before with
      | nil => cases whole
      | cons first front =>
          obtain ⟨rfl, -⟩ := List.cons.inj parts
          rw [size] at whole
          omega

theorem splitAt?_append (before after : List Char) :
    splitAt? (size before) (before ++ after) = some (before, after) :=
  splitAt?_eq_some_iff.mpr ⟨rfl, rfl⟩

theorem cutBeforeEnd?_append (before after : List Char) :
    cutBeforeEnd? (size after) (before ++ after) = some (before, after) := by
  have room : (size (before ++ after)).psub (size after) = some (size before) :=
    Nat.psub_eq_some.mpr (size_append before after).symm
  unfold cutBeforeEnd?
  rw [room]
  exact splitAt?_append before after

/-- Between the start of a character for which there is no room and the position, no character
starts. -/
theorem boundaryUpTo_append (fits : size before ≤ index)
    (full : ∀ char rest, after = char :: rest → index < size before + char.utf8Size) :
    boundaryUpTo (before ++ after) index = size before := by
  induction index with
  | zero => exact (Nat.le_zero.mp fits).symm
  | succ index ih =>
      rw [boundaryUpTo]
      by_cases here : size before = index + 1
      · rw [← here, splitAt?_append]
        rfl
      · have later := ih (by omega) fun char rest next => Nat.lt_of_succ_lt (full char rest next)
        rw [if_neg ?_, later]
        intro boundary
        obtain ⟨⟨front, back⟩, split⟩ := Option.isSome_iff_exists.mp boundary
        obtain ⟨parts, whole⟩ := splitAt?_eq_some_iff.mp split
        obtain ⟨between, rfl, rfl⟩ | ⟨between, rfl, rfl⟩ := List.append_eq_append_iff.mp parts
        · rw [size_append] at whole
          cases between with
          | nil => exact here whole
          | cons char rest =>
              have past := full char (rest ++ back) rfl
              rw [size] at whole
              omega
        · rw [size_append] at fits here
          omega

end TreeSync.Utf8

import TreeSync.Proofs.Disk.Fitting

namespace TreeSync

/-! When a temporary name is the name that it is for.

A temporary name is longer than what it is for, unless that had to be cut. So the two can only be
the same where the cut takes away just what the suffix puts back.
-/

open TreeSync.Action

namespace Temporary

variable {chars kept drawn : List Char} {name : Name} {random : RandomBytes}

theorem rdropWhile_dots_eq_self_iff :
    chars.rdropWhile (· = '.') = chars ↔ chars.getLast? ≠ some '.' := by
  rw [List.rdropWhile_eq_self_iff]
  constructor
  · intro undotted last
    have nonempty : chars ≠ [] := List.ne_nil_of_mem (List.mem_of_getLast? last)
    rw [List.getLast?_eq_some_getLast nonempty, Option.some.injEq] at last
    exact undotted nonempty (decide_eq_true last)
  · intro last nonempty dotted
    rw [List.getLast?_eq_some_getLast nonempty, of_decide_eq_true dotted] at last
    exact last rfl

/-- A dot at the end is dropped, unless something else comes after it. -/
theorem rdropWhile_dotted (noDot : '.' ∉ drawn) (settled : kept.getLast? ≠ some '.') :
    (kept ++ '.' :: drawn).rdropWhile (· = '.') = kept ↔ drawn = [] := by
  constructor
  · intro same
    by_contra nonempty
    have last : (kept ++ '.' :: drawn).getLast? ≠ some '.' := by
      intro last
      rw [List.getLast?_append_of_ne_nil _ (by simp), List.getLast?_cons_of_ne_nil nonempty] at last
      exact noDot (List.mem_of_getLast? last)
    rw [rdropWhile_dots_eq_self_iff.mpr last] at same
    exact absurd same (by simp)
  · rintro rfl
    rw [List.rdropWhile_concat_pos _ _ _ (by simp)]
    exact rdropWhile_dots_eq_self_iff.mpr settled

theorem fitting_letters_eq_nil_iff {room : Nat} :
    fitting room (letters random) = [] ↔ room = 0 := by
  constructor
  · intro nothing
    cases all : letters random with
    | nil =>
        have six := size_letters random
        rw [all] at six
        cases six
    | cons char rest =>
        have one : char.utf8Size = 1 := utf8Size_of_mem_letters (all ▸ List.mem_cons_self)
        rw [all, fitting] at nothing
        split at nothing
        · cases nothing
        · omega
  · rintro rfl
    exact fitting_zero _

/-- What is kept of a text that ends as if it were a temporary name. -/
theorem fitted_drawn_eq_iff (settled : kept.getLast? ≠ some '.') :
    fitted (kept ++ '.' :: letters random) = kept ↔
      Utf8.size kept = 247 ∨ Utf8.size kept = 248 := by
  have whole : Utf8.size (kept ++ '.' :: letters random) = Utf8.size kept + 7 := by
    rw [Utf8.size_append, Utf8.size, size_letters]
    rfl
  have longer : kept ++ '.' :: letters random ≠ kept := by simp
  have room := frontRoom_eq
  by_cases short : Utf8.size (kept ++ '.' :: letters random) ≤ frontRoom
  · rw [fitted_short short]
    constructor
    · exact fun same => absurd same longer
    · omega
  rw [fitted_long (Nat.not_le.mp short)]
  by_cases past : frontRoom < Utf8.size kept
  · constructor
    · intro same
      have most := size_fitting frontRoom (kept ++ '.' :: letters random)
      have less := size_le_of_sublist (List.rdropWhile_prefix (· = '.')
        (fitting frontRoom (kept ++ '.' :: letters random))).sublist
      rw [same] at less
      omega
    · omega
  · rw [fitting_append (Nat.not_lt.mp past)]
    by_cases full : Utf8.size kept = frontRoom
    · rw [full, Nat.sub_self, fitting_zero, List.append_nil]
      exact iff_of_true (rdropWhile_dots_eq_self_iff.mpr settled) (.inr room)
    · have one : '.'.utf8Size = 1 := rfl
      rw [fitting, if_pos (by omega), rdropWhile_dotted ?_ settled, fitting_letters_eq_nil_iff]
      · omega
      · exact fun listed => dot_not_mem_letters random (mem_of_mem_fitting listed)

theorem hidden_of_head (dotted : kept.head? = some '.') (more : List Char) :
    hidden (kept ++ more) = kept ++ more := by
  obtain ⟨rest, rfl⟩ := List.head?_eq_some_iff.mp dotted
  rfl

/-- A text that is cut to what stands before its drawn end begins with a dot, and the dot before
that end is the only one there. -/
theorem fitted_hidden_drawn_eq_iff :
    fitted (hidden (kept ++ '.' :: letters random)) = kept ↔
      kept.head? = some '.' ∧ kept.getLast? ≠ some '.' ∧
        (Utf8.size kept = 247 ∨ Utf8.size kept = 248) := by
  constructor
  · intro same
    have nonempty : kept ≠ [] := by
      rintro rfl
      have short : Utf8.size (hidden ([] ++ '.' :: letters random)) ≤ frontRoom := by
        change '.'.utf8Size + Utf8.size (letters random) ≤ _
        rw [size_letters]
        decide
      rw [fitted_short short] at same
      cases same
    have dotted := head_fitted_hidden (same ▸ nonempty)
    rw [same] at dotted
    rw [hidden_of_head dotted] at same
    have long : ¬ Utf8.size (kept ++ '.' :: letters random) ≤ frontRoom := by
      intro short
      rw [fitted_short short] at same
      exact absurd same (by simp)
    have settled : kept.getLast? ≠ some '.' := by
      rw [← rdropWhile_dots_eq_self_iff, ← same, fitted_long (Nat.not_le.mp long)]
      exact List.rdropWhile_idempotent _ _
    exact ⟨dotted, settled, (fitted_drawn_eq_iff settled).mp same⟩
  · rintro ⟨dotted, settled, room⟩
    rw [hidden_of_head dotted]
    exact (fitted_drawn_eq_iff settled).mpr room

/-- A name that begins with a dot, and all of which is kept but an end that looks drawn. -/
def Coincides (name : Name) (random : RandomBytes) : Prop :=
  ∃ kept : List Char, name = Utf8.encode kept ++ dot :: suffix random ∧
    kept.head? = some '.' ∧ kept.getLast? ≠ some '.' ∧ (name.length = 254 ∨ name.length = 255)

theorem encode_drawn (kept : List Char) (random : RandomBytes) :
    Utf8.encode (kept ++ '.' :: letters random) = Utf8.encode kept ++ dot :: suffix random := by
  rw [Utf8.encode_append, ← encode_letters]
  rfl

theorem length_drawn (kept : List Char) (random : RandomBytes) :
    (Utf8.encode kept ++ dot :: suffix random).length = Utf8.size kept + 7 := by
  rw [List.length_append, Utf8.length_encode, List.length_cons, length_suffix]

theorem nameFor_eq_self_iff (noSlash : slash ∉ name) :
    nameFor name random = name ↔ Coincides name random := by
  have whole := (nameFor_eq noSlash random).trans (leafFor_eq ⟨name⟩ random)
  constructor
  · intro same
    have plain : name.Plain := same ▸ plain_nameFor noSlash random
    rw [same, stem_plain plain] at whole
    have read := congrArg Utf8.lossyChars whole
    rw [← encode_drawn, Utf8.lossyChars_encode] at read
    generalize Utf8.lossyChars name = text at whole read
    have again := congrArg (fun text => fitted (hidden text)) read
    obtain ⟨dotted, settled, room⟩ := fitted_hidden_drawn_eq_iff.mp again.symm
    refine ⟨_, whole, dotted, settled, ?_⟩
    have length := congrArg List.length whole
    rw [length_drawn] at length
    omega
  · rintro ⟨kept, spelled, dotted, settled, long⟩
    have length := congrArg List.length spelled
    rw [length_drawn] at length
    have longer (short : Name) (few : short.length < 3) : name ≠ short := by
      rintro rfl
      omega
    have plain : name.Plain :=
      ⟨longer [] (by decide), noSlash, longer selfName (by decide), longer parentName (by decide)⟩
    have read : Utf8.lossyChars name = kept ++ '.' :: letters random := by
      rw [spelled, ← encode_drawn, Utf8.lossyChars_encode]
    rw [whole, stem_plain plain, read,
      fitted_hidden_drawn_eq_iff.mpr ⟨dotted, settled, by omega⟩, ← spelled]

/-- A temporary file goes by another name than the one it is for, unless that begins with a dot, is
as long as a name can be or one byte less, and ends in just what is drawn. Then the file stands
under its final name from the first byte on. -/
theorem create_apart (noSlash : slash ∉ name) :
    (∀ random, nameFor name random = name ↔ Coincides name random) ∧
      (name.length < 254 ∨ name.head? ≠ some dot ∨ (¬ ∃ chars, Utf8.encode chars = name) →
        ∀ random, nameFor name random ≠ name) ∧
      ∀ directory disk temporary made, create directory ⟨name⟩ disk = .ok temporary made →
        ∃ turn, temporary.file = nameFor name (disk.entropy turn) :: directory ∧
          (temporary.file = name :: directory ↔ Coincides name (disk.entropy turn)) := by
  refine ⟨fun random => nameFor_eq_self_iff noSlash, fun other random same => ?_, ?_⟩
  · obtain ⟨kept, spelled, dotted, -, long⟩ := (nameFor_eq_self_iff noSlash).mp same
    obtain ⟨rest, rfl⟩ := List.head?_eq_some_iff.mp dotted
    rcases other with short | undotted | unreadable
    · omega
    · exact undotted (by rw [spelled]; rfl)
    · exact unreadable ⟨_, (encode_drawn _ random).trans spelled.symm⟩
  · intro directory disk temporary made ran
    obtain ⟨turn, fresh, -⟩ := (create_meets noSlash).of_ok ran
    have file := fresh.named.file
    rw [fresh.directory] at file
    refine ⟨turn, file, ?_⟩
    rw [file, ← nameFor_eq_self_iff noSlash, List.cons.injEq, and_iff_left rfl]

/-- However long a name is that begins with a letter, nothing that is drawn gives it back. -/
theorem create_apart_letters :
    slash ∉ List.replicate 255 (0x61 : UInt8) ∧
      ∀ random, nameFor (List.replicate 255 0x61) random ≠ List.replicate 255 0x61 := by
  have noSlash : slash ∉ List.replicate 255 (0x61 : UInt8) := by decide
  exact ⟨noSlash, (create_apart noSlash).2.1 (.inr (.inl (by decide)))⟩

/-- A name of 255 bytes that is its own template. -/
def longestHidden : Name :=
  dot :: List.replicate 247 0x61 ++ dot :: List.replicate 6 0x58

/-- With this draw its temporary file is made under the final name. -/
theorem create_coincides :
    longestHidden.length = 255 ∧ slash ∉ longestHidden ∧ 0 ∉ longestHidden ∧
      template ⟨longestHidden⟩ = ⟨longestHidden⟩ ∧
      nameFor longestHidden (.replicate 6 23) = longestHidden ∧
      ∃ temporary made,
        create [] ⟨longestHidden⟩ { tree := .empty, entropy := fun _ => .replicate 6 23 } =
            .ok temporary made ∧
          temporary.file = [longestHidden] := by
  refine ⟨by decide +kernel, by decide +kernel, by decide +kernel, by decide +kernel,
    by decide +kernel, ?_⟩
  have ran : endsIn (create [] ⟨longestHidden⟩
      { tree := .empty, entropy := fun _ => .replicate 6 23 })
      (fun temporary _ => decide (temporary.file = [longestHidden])) = true := by
    decide +kernel
  obtain ⟨temporary, made, ran, same⟩ := of_endsIn ran
  exact ⟨temporary, made, ran, of_decide_eq_true same⟩

end Temporary

end TreeSync

import Mathlib.Data.List.DropRight
import TreeSync.Proofs.Disk.Placing

namespace TreeSync

/-! What is kept of a name that is too long for a temporary one.

The text is cut before the first character for which there is no room, and then before the dots
that the cut would end in. What is drawn for the suffix are letters and digits, so no dot.
-/

namespace Temporary

variable {room : Nat} {chars base more : List Char} {random : RandomBytes}

theorem fitting_isPrefix (room : Nat) (chars : List Char) : fitting room chars <+: chars := by
  induction chars generalizing room with
  | nil => exact List.prefix_refl _
  | cons char rest ih =>
      rw [fitting]
      split
      · exact (List.prefix_cons_inj char).mpr (ih _)
      · exact List.nil_prefix

/-- What there is room for is kept, and the cut falls behind it. -/
theorem fitting_append (fits : Utf8.size chars ≤ room) :
    fitting room (chars ++ more) = chars ++ fitting (room - Utf8.size chars) more := by
  induction chars generalizing room with
  | nil => rfl
  | cons char rest ih =>
      rw [Utf8.size] at fits
      rw [List.cons_append, fitting, if_pos (by omega), ih (by omega), Utf8.size, Nat.sub_sub]
      rfl

theorem fitting_zero (chars : List Char) : fitting 0 chars = [] := by
  cases chars with
  | nil => rfl
  | cons char rest =>
      have positive := char.utf8Size_pos
      rw [fitting, if_neg (by omega)]

/-- The room for what comes before the suffix. -/
def frontRoom : Nat := Name.maxLength - (placeholder.length + 1)

theorem frontRoom_eq : frontRoom = 248 := rfl

theorem fitted_short (short : Utf8.size base ≤ frontRoom) : fitted base = base :=
  if_pos short

theorem fitted_long (long : frontRoom < Utf8.size base) :
    fitted base = (fitting frontRoom base).rdropWhile (· = '.') :=
  if_neg (Nat.not_le.mpr long)

theorem fitted_isPrefix (base : List Char) : fitted base <+: base := by
  by_cases short : Utf8.size base ≤ frontRoom
  · exact ⟨[], by rw [fitted_short short, List.append_nil]⟩
  · rw [fitted_long (Nat.not_le.mp short)]
    exact List.IsPrefix.trans (List.rdropWhile_prefix _ _) (fitting_isPrefix _ _)

theorem hidden_begins (chars : List Char) : ∃ rest, hidden chars = '.' :: rest := by
  unfold hidden
  split
  · exact ⟨_, rfl⟩
  · exact ⟨_, rfl⟩

/-- What is kept of hidden text begins with the dot that hides it, unless nothing is. -/
theorem head_fitted_hidden (nonempty : fitted (hidden chars) ≠ []) :
    (fitted (hidden chars)).head? = some '.' := by
  obtain ⟨rest, begins⟩ := hidden_begins chars
  have front := fitted_isPrefix (hidden chars)
  rw [begins] at front nonempty ⊢
  obtain ⟨first, more, kept⟩ := List.exists_cons_of_ne_nil nonempty
  rw [kept] at front ⊢
  rw [(List.cons_prefix_cons.mp front).1]
  rfl

theorem narrow_of_mem_suffix {byte : UInt8} (listed : byte ∈ suffix random) :
    byte.toNat < 0x80 := by
  have narrow : ∀ byte ∈ alphabet, byte.toNat < 0x80 := by decide +kernel
  exact narrow byte (mem_alphabet_of_mem_suffix listed)

/-- The drawn part of a name as text. -/
def letters (random : RandomBytes) : List Char :=
  Utf8.narrowChars (suffix random)

theorem encode_letters (random : RandomBytes) : Utf8.encode (letters random) = suffix random :=
  Utf8.encode_narrowChars fun _ listed => narrow_of_mem_suffix listed

theorem size_letters (random : RandomBytes) : Utf8.size (letters random) = 6 := by
  rw [← Utf8.length_encode, encode_letters, length_suffix]

theorem utf8Size_of_mem_letters {char : Char} (listed : char ∈ letters random) :
    char.utf8Size = 1 := by
  obtain ⟨byte, drawn, rfl⟩ := List.mem_map.mp listed
  rw [← String.length_utf8EncodeChar, Utf8.utf8EncodeChar_narrow (narrow_of_mem_suffix drawn)]
  rfl

theorem dot_not_mem_letters (random : RandomBytes) : '.' ∉ letters random := by
  intro listed
  obtain ⟨byte, drawn, same⟩ := List.mem_map.mp listed
  have member := mem_alphabet_of_mem_suffix drawn
  have apart : ∀ byte ∈ alphabet, Char.ofNat byte.toNat ≠ '.' := by decide +kernel
  exact apart byte member same

end Temporary

end TreeSync

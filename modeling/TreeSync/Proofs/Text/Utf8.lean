import Mathlib.Algebra.Group.Nat.Defs
import TreeSync.Text.Utf8

namespace TreeSync.Utf8

/-! Text that is written as bytes and read again.

What is written reads as it was. A byte that is a character by itself stands for nothing else:
in bytes without it that character is not read, and in text without the character that byte is
not written.
-/

/-- The code points of the characters that take more than one byte. -/
def Wide (value : Nat) : Prop :=
  0x80 ≤ value ∧ value.isValidChar

theorem toNat_ofNat_valid {value : Nat} (valid : value.isValidChar) :
    (Char.ofNat value).toNat = value := by
  have known : Char.ofNat value = Char.ofNatAux value valid := dif_pos valid
  rw [known]
  rfl

theorem Wide.toNat {value : Nat} (wide : Wide value) : (Char.ofNat value).toNat = value :=
  toNat_ofNat_valid wide.2

/-- Whether the character in progress comes to a wide one, however its bytes go on. -/
structure Pending.Widens (pending : Pending) : Prop where
  low : 0x80 ≤ pending.low.toNat
  high : pending.high.toNat ≤ 0xBF
  comes : ∀ value,
    (pending.value * 64 + (pending.low.toNat - 0x80)) * 64 ^ (pending.missing - 1) ≤ value →
    value < (pending.value * 64 + (pending.high.toNat - 0x80) + 1) * 64 ^ (pending.missing - 1) →
    Wide value

/-- What a byte that is met between characters may begin. -/
def Begins (byte : UInt8) : Piece ⊕ Pending → Prop
  | .inl (.char char) => char.toNat = byte.toNat
  | .inl (.broken _) => True
  | .inr pending => pending.Widens

theorem begins_start (byte : UInt8) : Begins byte (start byte) := by
  have top := byte.toNat_lt
  have narrow (small : byte.toNat < 0x80) : Begins byte (.inl (.char (Char.ofNat byte.toNat))) :=
    toNat_ofNat_valid (.inl (by omega))
  unfold start
  -- one case for each range of lead bytes
  refine iteInduction (motive := Begins byte) narrow fun _ => ?_
  repeat' refine iteInduction (motive := Begins byte) (fun _ => ?_) fun _ => ?_
  all_goals first
    | exact trivial
    | constructor <;>
        simp only [UInt8.reduceToNat, Nat.reduceSub, Nat.reducePow, Wide, Nat.isValidChar] <;> omega

theorem Pending.Widens.extend {pending : Pending} {byte : UInt8} (widens : pending.Widens)
    (above : pending.low ≤ byte) (below : byte ≤ pending.high) :
    (∀ char, pending.extend byte = .inl (.char char) → 0x80 ≤ char.toNat) ∧
      ∀ longer, pending.extend byte = .inr longer → longer.Widens := by
  obtain ⟨low, high, comes⟩ := widens
  have least : pending.low.toNat ≤ byte.toNat := UInt8.le_iff_toNat_le.mp above
  have most : byte.toNat ≤ pending.high.toNat := UInt8.le_iff_toNat_le.mp below
  unfold Pending.extend
  dsimp only
  split
  · next last =>
    refine ⟨fun char same => ?_, nofun⟩
    simp only [Sum.inl.injEq, Piece.char.injEq] at same
    subst same
    have zero : pending.missing - 1 = 0 := by omega
    simp only [zero, Nat.pow_zero, Nat.mul_one] at comes
    have wide := comes (pending.value * 64 + (byte.toNat - 0x80)) (by omega) (by omega)
    rw [wide.toNat]
    exact wide.1
  · next more =>
    refine ⟨nofun, fun longer same => ?_⟩
    simp only [Sum.inr.injEq] at same
    subst same
    obtain ⟨left, count⟩ : ∃ left, pending.missing = left + 2 := ⟨pending.missing - 2, by omega⟩
    rw [count] at comes
    simp only [Nat.add_one_sub_one, Nat.pow_succ, ← Nat.mul_assoc] at comes
    constructor <;> simp only [UInt8.reduceToNat, count, Nat.reduceSub, Nat.add_one_sub_one]
    · exact Nat.le_refl _
    · exact Nat.le_refl _
    · intro value least' most'
      refine comes value ?_ ?_ <;> rw [Nat.mul_right_comm]
      · exact Nat.le_trans (Nat.mul_le_mul_right _ (by omega)) least'
      · exact Nat.lt_of_lt_of_le most' (Nat.mul_le_mul_right _ (by omega))

/-- Each character that is read of the bytes is one of them or a wide one. -/
theorem mem_or_wide_of_mem_scanFrom {bytes : Bytes} {pending : Option Pending} {char : Char}
    (widens : ∀ unfinished ∈ pending, unfinished.Widens)
    (cut : Piece.char char ∈ scanFrom pending bytes) :
    (∃ byte ∈ bytes, char.toNat = byte.toNat) ∨ 0x80 ≤ char.toNat := by
  induction bytes generalizing pending with
  | nil => cases pending <;> simp [scanFrom] at cut
  | cons byte rest ih =>
      have later (next : Option Pending)
          (fine : ∀ unfinished ∈ next, unfinished.Widens)
          (cut : Piece.char char ∈ scanFrom next rest) :
          (∃ other ∈ byte :: rest, char.toNat = other.toNat) ∨ 0x80 ≤ char.toNat := by
        refine (ih fine cut).imp_left ?_
        rintro ⟨other, listed, same⟩
        exact ⟨other, List.mem_cons_of_mem _ listed, same⟩
      -- a byte that does not continue the character in progress starts another
      have again (cut : Piece.char char ∈ scanFrom none (byte :: rest)) :
          (∃ other ∈ byte :: rest, char.toNat = other.toNat) ∨ 0x80 ≤ char.toNat := by
        have begins := begins_start byte
        rw [scanFrom] at cut
        split at cut
        · next piece begun =>
          rw [begun] at begins
          rcases List.mem_cons.mp cut with rfl | cut
          · exact .inl ⟨byte, List.mem_cons_self, begins⟩
          · exact later none (by simp) cut
        · next fresh begun =>
          rw [begun] at begins
          exact later (some fresh) (by simpa [Begins] using begins) cut
      cases pending with
      | none => exact again cut
      | some unfinished =>
          rw [scanFrom] at cut
          split at cut
          · next inside =>
            simp only [Bool.and_eq_true, decide_eq_true_eq] at inside
            obtain ⟨wide, longer⟩ := (widens unfinished rfl).extend inside.1 inside.2
            split at cut
            · next piece extended =>
              rcases List.mem_cons.mp cut with rfl | cut
              · exact .inr (wide char extended)
              · exact later none (by simp) cut
            · next more extended =>
              exact later (some more) (by simpa using longer more extended) cut
          · rcases List.mem_cons.mp cut with same | cut
            · cases same
            · exact again (by rwa [scanFrom])

/-- A byte that is a character by itself is read as that character from nothing else. -/
theorem ascii_not_mem_lossyChars {byte : UInt8} {char : Char} (ascii : byte.toNat < 0x80)
    (means : char.toNat = byte.toNat) {bytes : Bytes} (absent : byte ∉ bytes) :
    char ∉ lossyChars bytes := by
  intro listed
  obtain ⟨piece, cut, same⟩ := List.mem_map.mp listed
  cases piece with
  | char other =>
      obtain rfl : other = char := same
      rcases mem_or_wide_of_mem_scanFrom (by simp) cut with ⟨other, among, same⟩ | wide
      · exact absent (UInt8.toNat_inj.mp (means.symm.trans same) ▸ among)
      · omega
  | broken bytes =>
      obtain rfl : Char.ofNat 0xFFFD = char := same
      have number : (Char.ofNat 0xFFFD).toNat = 0xFFFD := rfl
      omega

/-- It is written for that character alone. -/
theorem ascii_not_mem_encode {byte : UInt8} {char : Char} (ascii : byte.toNat < 0x80)
    (means : char.toNat = byte.toNat) {chars : List Char} (absent : char ∉ chars) :
    byte ∉ encode chars := by
  intro listed
  obtain ⟨other, written, among⟩ := List.mem_flatMap.mp listed
  have different : other ≠ char := fun same => absent (same ▸ written)
  have apart : other.val.toNat ≠ byte.toNat := fun same =>
    different (Char.ext (UInt32.toNat_inj.mp (same.trans means.symm)))
  unfold String.utf8EncodeChar at among
  dsimp only at among
  repeat' split at among
  all_goals
    simp only [List.mem_cons, List.not_mem_nil, or_false, ← UInt8.toNat_inj,
      UInt8.toNat_ofNat'] at among
    omega

/-- A continuation byte is taken for what it was written for. -/
theorem scanFrom_continued {bytes rest : Bytes} {missing value part : Nat} {low high : UInt8}
    (least : low.toNat ≤ part + 0x80) (most : part + 0x80 ≤ high.toNat) (six : part < 64) :
    scanFrom (some ⟨bytes, missing, low, high, value⟩) (UInt8.ofNat (part + 0x80) :: rest) =
      if missing ≤ 1 then .char (Char.ofNat (value * 64 + part)) :: scanFrom none rest
      else scanFrom (some ⟨bytes ++ [UInt8.ofNat (part + 0x80)], missing - 1, 0x80, 0xBF,
        value * 64 + part⟩) rest := by
  have number : (UInt8.ofNat (part + 0x80)).toNat = part + 0x80 := by
    rw [UInt8.toNat_ofNat', Nat.mod_eq_of_lt (by omega)]
  have inside : (low ≤ UInt8.ofNat (part + 0x80) && UInt8.ofNat (part + 0x80) ≤ high) = true := by
    simp only [Bool.and_eq_true, decide_eq_true_eq, UInt8.le_iff_toNat_le, number]
    exact ⟨least, most⟩
  rw [scanFrom]
  dsimp only
  rw [if_pos inside]
  unfold Pending.extend
  dsimp only
  rw [number, Nat.add_sub_cancel]
  by_cases last : missing ≤ 1 <;> simp only [last, if_true, if_false]

theorem scanFrom_begun {byte : UInt8} {pending : Pending} (rest : Bytes)
    (begun : start byte = .inr pending) :
    scanFrom none (byte :: rest) = scanFrom (some pending) rest := by
  rw [scanFrom, begun]

theorem toNat_ofNat_small {number : Nat} (small : number < 0x100) :
    (UInt8.ofNat number).toNat = number := by
  rw [UInt8.toNat_ofNat', Nat.mod_eq_of_lt small]

theorem start_two {part : Nat} (least : 2 ≤ part) (most : part < 32) :
    start (UInt8.ofNat (part + 0xC0)) = .inr ⟨[UInt8.ofNat (part + 0xC0)], 1, 0x80, 0xBF, part⟩ := by
  simp only [start, toNat_ofNat_small (show part + 0xC0 < 0x100 by omega)]
  rw [if_neg (by omega), if_neg (by omega), if_pos (by omega), Nat.add_sub_cancel]

/-- The first byte of three says how far the second may go. -/
theorem start_three {part next : Nat} (most : part < 16) (six : next < 64)
    (long : part = 0 → 32 ≤ next) (scalar : part = 13 → next < 32) :
    ∃ low high, start (UInt8.ofNat (part + 0xE0)) =
        .inr ⟨[UInt8.ofNat (part + 0xE0)], 2, low, high, part⟩ ∧
      low.toNat ≤ next + 0x80 ∧ next + 0x80 ≤ high.toNat := by
  simp only [start, toNat_ofNat_small (show part + 0xE0 < 0x100 by omega)]
  rw [if_neg (by omega), if_neg (by omega), if_neg (by omega)]
  by_cases first : part = 0
  · subst first
    refine ⟨0xA0, 0xBF, rfl, ?_⟩
    simp only [UInt8.reduceToNat]
    omega
  rw [if_neg (by omega)]
  by_cases surrogate : part = 13
  · subst surrogate
    refine ⟨0x80, 0x9F, rfl, ?_⟩
    simp only [UInt8.reduceToNat]
    omega
  rw [if_neg (by omega), if_pos (by omega), Nat.add_sub_cancel]
  refine ⟨0x80, 0xBF, rfl, ?_⟩
  simp only [UInt8.reduceToNat]
  omega

theorem start_four {part next : Nat} (most : part < 5) (six : next < 64)
    (long : part = 0 → 16 ≤ next) (last : part = 4 → next < 16) :
    ∃ low high, start (UInt8.ofNat (part + 0xF0)) =
        .inr ⟨[UInt8.ofNat (part + 0xF0)], 3, low, high, part⟩ ∧
      low.toNat ≤ next + 0x80 ∧ next + 0x80 ≤ high.toNat := by
  simp only [start, toNat_ofNat_small (show part + 0xF0 < 0x100 by omega)]
  rw [if_neg (by omega), if_neg (by omega), if_neg (by omega), if_neg (by omega),
    if_neg (by omega), if_neg (by omega)]
  by_cases first : part = 0
  · subst first
    refine ⟨0x90, 0xBF, rfl, ?_⟩
    simp only [UInt8.reduceToNat]
    omega
  rw [if_neg (by omega)]
  by_cases final : part = 4
  · subst final
    refine ⟨0x80, 0x8F, rfl, ?_⟩
    simp only [UInt8.reduceToNat]
    omega
  rw [if_pos (by omega), Nat.add_sub_cancel]
  refine ⟨0x80, 0xBF, rfl, ?_⟩
  simp only [UInt8.reduceToNat]
  omega

theorem scanFrom_encodeChar (char : Char) (rest : Bytes) :
    scanFrom none (String.utf8EncodeChar char ++ rest) = .char char :: scanFrom none rest := by
  have whole : Char.ofNat char.val.toNat = char := Char.ofNat_toNat char
  have valid : char.val.toNat.isValidChar := char.valid
  unfold Nat.isValidChar at valid
  unfold String.utf8EncodeChar
  dsimp only
  generalize char.val.toNat = value at whole valid
  -- by the length of the character: the first byte, and then the others one by one
  split
  · next one =>
    have small : value < 0x80 := Nat.lt_succ_of_le one
    rw [List.singleton_append, scanFrom]
    simp only [start, toNat_ofNat_small (show value < 0x100 by omega), if_pos small, whole]
  · split
    · next two =>
      have sum : value / 64 % 32 * 64 + value % 64 = value := by omega
      simp only [List.cons_append, List.nil_append]
      rw [scanFrom_begun _ (start_two (by omega) (by omega)),
        scanFrom_continued (by simp only [UInt8.reduceToNat]; omega)
          (by simp only [UInt8.reduceToNat]; omega) (by omega), if_pos (by omega), sum, whole]
    · split
      · next three =>
        have sum : (value / 4096 % 16 * 64 + value / 64 % 64) * 64 + value % 64 = value := by omega
        obtain ⟨low, high, begun, least, most⟩ :=
          @start_three (value / 4096 % 16) (value / 64 % 64) (by omega) (by omega) (by omega)
            (by omega)
        simp only [List.cons_append, List.nil_append]
        rw [scanFrom_begun _ begun, scanFrom_continued least most (by omega), if_neg (by omega),
          scanFrom_continued (by simp only [UInt8.reduceToNat]; omega)
            (by simp only [UInt8.reduceToNat]; omega) (by omega), if_pos (by omega), sum, whole]
      · next four =>
        have sum : ((value / 262144 % 8 * 64 + value / 4096 % 64) * 64 + value / 64 % 64) * 64 +
            value % 64 = value := by omega
        obtain ⟨low, high, begun, least, most⟩ :=
          @start_four (value / 262144 % 8) (value / 4096 % 64) (by omega) (by omega) (by omega)
            (by omega)
        simp only [List.cons_append, List.nil_append]
        rw [scanFrom_begun _ begun, scanFrom_continued least most (by omega), if_neg (by omega),
          scanFrom_continued (by simp only [UInt8.reduceToNat]; omega)
            (by simp only [UInt8.reduceToNat]; omega) (by omega), if_neg (by omega),
          scanFrom_continued (by simp only [UInt8.reduceToNat]; omega)
            (by simp only [UInt8.reduceToNat]; omega) (by omega), if_pos (by omega), sum, whole]

theorem scan_encode (chars : List Char) : scan (encode chars) = chars.map .char := by
  unfold scan encode
  induction chars with
  | nil => rfl
  | cons char rest ih => rw [List.flatMap_cons, scanFrom_encodeChar, ih, List.map_cons]

/-- What is written reads as it was. -/
@[simp] theorem lossyChars_encode (chars : List Char) : lossyChars (encode chars) = chars := by
  unfold lossyChars
  rw [scan_encode, List.map_map]
  exact List.map_id chars

theorem length_encode (chars : List Char) : (encode chars).length = size chars := by
  induction chars with
  | nil => rfl
  | cons char rest ih =>
      have first : (encode (char :: rest)).length =
          (String.utf8EncodeChar char).length + (encode rest).length := by
        simp [encode]
      rw [first, String.length_utf8EncodeChar, ih]
      rfl

theorem size_append (chars more : List Char) : size (chars ++ more) = size chars + size more := by
  induction chars with
  | nil => exact (Nat.zero_add _).symm
  | cons char rest ih =>
      rw [List.cons_append, size, ih, size]
      omega

theorem encode_append (chars more : List Char) : encode (chars ++ more) = encode chars ++ encode more :=
  List.flatMap_append

/-- Bytes that are characters by themselves, as those. -/
def narrowChars (bytes : Bytes) : List Char :=
  bytes.map fun byte => Char.ofNat byte.toNat

theorem utf8EncodeChar_narrow {byte : UInt8} (narrow : byte.toNat < 0x80) :
    String.utf8EncodeChar (Char.ofNat byte.toNat) = [byte] := by
  have value : (Char.ofNat byte.toNat).val.toNat = byte.toNat :=
    toNat_ofNat_valid (.inl (by omega))
  unfold String.utf8EncodeChar
  dsimp only
  rw [value, if_pos (by omega), UInt8.ofNat_toNat]

theorem encode_narrowChars {bytes : Bytes} (narrow : ∀ byte ∈ bytes, byte.toNat < 0x80) :
    encode (narrowChars bytes) = bytes := by
  induction bytes with
  | nil => rfl
  | cons byte rest ih =>
      obtain ⟨here, later⟩ := List.forall_mem_cons.mp narrow
      change String.utf8EncodeChar (Char.ofNat byte.toNat) ++ encode (narrowChars rest) = _
      rw [utf8EncodeChar_narrow here, ih later]
      rfl

end TreeSync.Utf8

import TreeSync.Path
import TreeSync.Proofs.Text.Utf8

namespace TreeSync.Utf8

/-! Bytes that were read as text and written back.

What was text comes back as it was, and of anything else only the readable part does. A byte
that is a character by itself ends whatever comes before it, so both sides of it are mended on
their own.
-/

/-- What is left of bytes that are read as text: each broken stretch becomes U+FFFD. -/
def mend (bytes : Bytes) : Bytes :=
  encode (lossyChars bytes)

/-- Only text comes back as it was. -/
theorem mend_eq_self_iff {bytes : Bytes} : mend bytes = bytes ↔ ∃ chars, encode chars = bytes := by
  constructor
  · exact fun same => ⟨lossyChars bytes, same⟩
  · rintro ⟨chars, rfl⟩
    rw [mend, lossyChars_encode]

/-- A byte that does not continue the character in progress is looked at afresh. -/
theorem scanFrom_refused {pending : Pending} {byte : UInt8} (rest : Bytes)
    (outside : ¬ (pending.low ≤ byte && byte ≤ pending.high) = true) :
    scanFrom (some pending) (byte :: rest) =
      .broken pending.bytes :: scanFrom none (byte :: rest) := by
  conv => lhs; rw [scanFrom, if_neg outside]
  rw [scanFrom]

/-- A byte that is a character by itself parts what comes before it from what comes after it. -/
theorem scanFrom_append_ascii {byte : UInt8} (ascii : byte.toNat < 0x80) {pending : Option Pending}
    (widens : ∀ unfinished ∈ pending, unfinished.Widens) (before after : Bytes) :
    scanFrom pending (before ++ byte :: after) =
      scanFrom pending before ++ .char (Char.ofNat byte.toNat) :: scanFrom none after := by
  have alone : start byte = .inl (.char (Char.ofNat byte.toNat)) := if_pos ascii
  have begun : scanFrom none (byte :: after) =
      .char (Char.ofNat byte.toNat) :: scanFrom none after := by
    rw [scanFrom, alone]
  induction before generalizing pending with
  | nil =>
      cases pending with
      | none => exact begun
      | some unfinished =>
          have low := (widens unfinished rfl).low
          have outside : ¬ (unfinished.low ≤ byte && byte ≤ unfinished.high) = true := by
            simp only [Bool.and_eq_true, decide_eq_true_eq, UInt8.le_iff_toNat_le]
            omega
          rw [List.nil_append, scanFrom_refused after outside, begun]
          rfl
  | cons first rest ih =>
      have again : scanFrom none (first :: (rest ++ byte :: after)) =
          scanFrom none (first :: rest) ++
            .char (Char.ofNat byte.toNat) :: scanFrom none after := by
        have begins := begins_start first
        rw [scanFrom, scanFrom]
        cases met : start first with
        | inl piece => exact congrArg (piece :: ·) (ih (by simp))
        | inr fresh =>
            rw [met] at begins
            exact ih (by simpa [Begins] using begins)
      rw [List.cons_append]
      cases pending with
      | none => exact again
      | some unfinished =>
          by_cases inside : (unfinished.low ≤ first && first ≤ unfinished.high) = true
          · rw [scanFrom, scanFrom, if_pos inside, if_pos inside]
            simp only [Bool.and_eq_true, decide_eq_true_eq] at inside
            obtain ⟨-, longer⟩ := (widens unfinished rfl).extend inside.1 inside.2
            cases met : unfinished.extend first with
            | inl piece => exact congrArg (piece :: ·) (ih (by simp))
            | inr more => exact ih (by simpa using longer more met)
          · rw [scanFrom_refused _ inside, scanFrom_refused _ inside, again]
            rfl

theorem lossyChars_append_slash (before after : Bytes) :
    lossyChars (before ++ slash :: after) = lossyChars before ++ '/' :: lossyChars after := by
  unfold lossyChars scan
  rw [scanFrom_append_ascii (by decide) (by simp), List.map_append]
  rfl

theorem mend_append_slash (before after : Bytes) :
    mend (before ++ slash :: after) = mend before ++ slash :: mend after := by
  unfold mend
  rw [lossyChars_append_slash, encode_append]
  rfl

/-- What begins with an unfinished character reads as something else than a narrow one. -/
theorem wide_of_head_scanFrom {bytes : Bytes} {pending : Pending} {char : Char}
    {more : List Piece} (widens : pending.Widens)
    (cut : scanFrom (some pending) bytes = .char char :: more) : 0x80 ≤ char.toNat := by
  induction bytes generalizing pending with
  | nil => cases cut
  | cons byte rest ih =>
      by_cases inside : (pending.low ≤ byte && byte ≤ pending.high) = true
      · rw [scanFrom, if_pos inside] at cut
        simp only [Bool.and_eq_true, decide_eq_true_eq] at inside
        obtain ⟨wide, longer⟩ := widens.extend inside.1 inside.2
        cases met : pending.extend byte with
        | inl piece =>
            rw [met] at cut
            cases cut
            exact wide char met
        | inr more =>
            rw [met] at cut
            exact ih (longer more met) cut
      · rw [scanFrom_refused rest inside] at cut
        cases cut

/-- A narrow character that is read first is the first byte. -/
theorem head_of_head_scan {bytes : Bytes} {char : Char} {more : List Piece}
    (narrow : char.toNat < 0x80) (cut : scan bytes = .char char :: more) :
    ∃ byte rest, bytes = byte :: rest ∧ byte.toNat = char.toNat ∧ scan rest = more := by
  cases bytes with
  | nil => cases cut
  | cons byte rest =>
      have begins := begins_start byte
      rw [scan, scanFrom] at cut
      split at cut
      · next piece begun =>
        cases cut
        rw [begun] at begins
        exact ⟨byte, rest, rfl, begins.symm, rfl⟩
      · next pending begun =>
        rw [begun] at begins
        have wide := wide_of_head_scanFrom begins cut
        omega

theorem scanFrom_pending_ne_nil (pending : Pending) (bytes : Bytes) :
    scanFrom (some pending) bytes ≠ [] := by
  induction bytes generalizing pending with
  | nil => exact List.cons_ne_nil _ _
  | cons byte rest ih =>
      rw [scanFrom]
      split
      · split
        · exact List.cons_ne_nil _ _
        · exact ih _
      · exact List.cons_ne_nil _ _

theorem scan_eq_nil {bytes : Bytes} (cut : scan bytes = []) : bytes = [] := by
  cases bytes with
  | nil => rfl
  | cons byte rest =>
      rw [scan, scanFrom] at cut
      split at cut
      · cases cut
      · exact absurd cut (scanFrom_pending_ne_nil _ _)

theorem lossyChars_of_mend {bytes : Bytes} {chars : List Char} (mended : mend bytes = encode chars) :
    lossyChars bytes = chars := by
  have again := congrArg lossyChars mended
  rwa [mend, lossyChars_encode, lossyChars_encode] at again

/-- Nothing else is mended to nothing. -/
theorem mend_eq_nil_iff {bytes : Bytes} : mend bytes = [] ↔ bytes = [] := by
  constructor
  · intro mended
    have read : lossyChars bytes = [] := lossyChars_of_mend (show mend bytes = encode [] from mended)
    exact scan_eq_nil (List.map_eq_nil_iff.mp read)
  · rintro rfl
    rfl

/-- Nothing else is mended to the name of the directory itself. -/
theorem mend_eq_selfName_iff {bytes : Bytes} : mend bytes = selfName ↔ bytes = selfName := by
  constructor
  · intro mended
    have read : lossyChars bytes = ['.'] := lossyChars_of_mend mended
    obtain ⟨piece, rest, cut, same, nothing⟩ := List.map_eq_cons_iff.mp read
    rw [List.map_eq_nil_iff] at nothing
    subst nothing
    cases piece with
    | broken stretch => cases same
    | char char =>
        subst same
        obtain ⟨byte, rest, rfl, code, ended⟩ := head_of_head_scan (by decide) cut
        rw [scan_eq_nil ended, selfName, UInt8.toNat_inj.mp (code.trans (rfl : _ = dot.toNat))]
  · rintro rfl
    decide

end TreeSync.Utf8

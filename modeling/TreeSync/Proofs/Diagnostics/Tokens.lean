import Mathlib.Logic.Function.Basic
import TreeSync.Diagnostics.FlagToken
import TreeSync.Proofs.Outcomes

namespace TreeSync

/-! Which tokens set a flag, and what they set.

A token is the word of a flag, and maybe a level behind it. No word holds a digit, so there is one
place to cut a token, and whatever is not put together like that is refused as a whole.
-/

/-- How a token denotes a word and a level: alone, which stands for one, or with the level written
behind it. -/
inductive Denotes (word : String) : String → UInt8 → Prop where
  | alone : Denotes word word 1
  | leveled (digits : List Char) (level : UInt8) (nonempty : digits ≠ [])
      (decimal : ∀ char ∈ digits, char.isDigit = true)
      (value : Nat.ofDigitChars 10 digits 0 = level.toNat) :
      Denotes word (word ++ String.ofList digits) level

/-- Whether a flag may be called by a name: there is one, and it ends before any level. -/
def Callable (name : String) : Prop :=
  name ≠ "" ∧ ∀ char ∈ name.toList, char.isDigit = false

instance (name : String) : Decidable (Callable name) :=
  decidable_of_iff (name ≠ "" ∧ name.toList.all (!·.isDigit) = true) (by simp [Callable])

namespace FlagToken

variable {token name : String} {level : UInt8} {front digits : List Char}

theorem isDigit_eq (char : Char) : isDigit char = char.isDigit :=
  rfl

theorem valueOfDigits_eq (digits : List Char) :
    valueOfDigits digits = Nat.ofDigitChars 10 digits 0 := by
  rw [Nat.ofDigitChars_eq_foldl, valueOfDigits]
  simp only [Nat.mul_comm]
  rfl

theorem levelOf?_eq_some_iff :
    levelOf? digits = some level ↔
      (∀ char ∈ digits, char.isDigit = true) ∧ Nat.ofDigitChars 10 digits 0 = level.toNat := by
  rw [levelOf?, ← valueOfDigits_eq]
  split
  · next fits =>
    have value : (UInt8.ofNat (valueOfDigits digits)).toNat = valueOfDigits digits :=
      UInt8.toNat_ofNat_of_lt' (Nat.lt_succ_of_le fits.2)
    rw [Option.some.injEq, ← UInt8.toNat_inj, value]
    exact (and_iff_right (List.all_eq_true.mp fits.1)).symm
  · next unfit =>
    refine iff_of_false nofun ?_
    rintro ⟨decimal, value⟩
    exact unfit ⟨List.all_eq_true.mpr decimal, value ▸ Nat.le_of_lt_succ level.toNat_lt⟩

/-- A token is cut where its digits begin. -/
theorem cut_append (undigited : ∀ char ∈ front, char.isDigit = false)
    (decimal : ∀ char ∈ digits, char.isDigit = true) :
    (front ++ digits).takeWhile (!isDigit ·) = front ∧
      (front ++ digits).dropWhile (!isDigit ·) = digits := by
  have passed : ∀ char ∈ front, (!isDigit char) = true := fun char listed => by
    rw [isDigit_eq, undigited char listed]
    rfl
  rw [List.takeWhile_append_of_pos passed, List.dropWhile_append_of_pos passed]
  cases digits with
  | nil => simp
  | cons first rest =>
      have stops : isDigit first = true := decimal first List.mem_cons_self
      simp [stops]

theorem denotes_of_parse (parsed : parse token = .ok (name, level)) :
    Callable name ∧ Denotes name token level := by
  unfold parse at parsed
  dsimp only at parsed
  have undigited : ∀ char ∈ token.toList.takeWhile (!isDigit ·), char.isDigit = false :=
    fun char listed => by
      simpa [isDigit_eq] using List.all_eq_true.mp List.all_takeWhile char listed
  have whole : token.toList.takeWhile (!isDigit ·) ++ token.toList.dropWhile (!isDigit ·) =
      token.toList := List.takeWhile_append_dropWhile
  generalize token.toList.takeWhile (!isDigit ·) = front at parsed undigited whole
  generalize token.toList.dropWhile (!isDigit ·) = digits at parsed whole
  split at parsed
  · cases parsed
  · cases parsed
  · next first rest =>
    cases parsed
    rw [List.append_nil] at whole
    refine ⟨⟨fun empty => ?_, whole ▸ undigited⟩, .alone⟩
    rw [empty] at whole
    cases whole
  · next first rest digit more =>
    split at parsed
    · next level found =>
      cases parsed
      obtain ⟨decimal, value⟩ := levelOf?_eq_some_iff.mp found
      obtain rfl : token = String.ofList (first :: rest) ++ String.ofList (digit :: more) := by
        rw [← String.ofList_append, whole, String.ofList_toList]
      refine ⟨⟨by simp, by simpa using undigited⟩, ?_⟩
      exact .leveled _ _ (List.cons_ne_nil digit more) decimal value
    · cases parsed

theorem parse_denoting (callable : Callable name) (denoting : Denotes name token level) :
    parse token = .ok (name, level) := by
  obtain ⟨named, undigited⟩ := callable
  obtain ⟨first, rest, chars⟩ :=
    List.exists_cons_of_ne_nil (show name.toList ≠ [] by simpa using named)
  cases denoting with
  | alone =>
      have cut := cut_append undigited (List.forall_mem_nil _)
      rw [List.append_nil] at cut
      unfold parse
      dsimp only
      rw [cut.1, cut.2, chars]
  | leveled digits _ some decimal value =>
      have cut := cut_append undigited decimal
      obtain ⟨digit, more, rfl⟩ := List.exists_cons_of_ne_nil some
      unfold parse
      dsimp only
      rw [String.toList_append, String.toList_ofList, cut.1, cut.2, chars]
      dsimp only
      rw [levelOf?_eq_some_iff.mpr ⟨decimal, value⟩, ← chars, String.ofList_toList]

end FlagToken

/-- The levels of both kinds of flags. -/
def Verbosity.levels (verbosity : Verbosity) : InfoFlag ⊕ DebugFlag → UInt8 :=
  Sum.elim verbosity.info verbosity.debug

theorem Verbosity.levels_setInfo (verbosity : Verbosity) (flag : InfoFlag) (level : UInt8) :
    (verbosity.setInfo flag level).levels = Function.update verbosity.levels (.inl flag) level := by
  funext other
  cases other <;> simp [levels, setInfo, Function.update_apply]

theorem Verbosity.levels_setDebug (verbosity : Verbosity) (flag : DebugFlag) (level : UInt8) :
    (verbosity.setDebug flag level).levels = Function.update verbosity.levels (.inr flag) level := by
  funext other
  cases other <;> simp [levels, setDebug, Function.update_apply]

namespace FlagKind

/-- What the words of a kind must be for tokens to name its flags. -/
structure Lawful {Flag : Type} (kind : FlagKind Flag) : Prop where
  complete : ∀ flag, flag ∈ kind.all
  distinct : Function.Injective kind.word
  callable : ∀ flag, Callable (kind.word flag)

theorem lawful_info : info.Lawful where
  complete := InfoFlag.mem_all
  distinct := by
    intro flag other
    cases flag <;> cases other <;> simp [info, InfoFlag.token]
  callable := by
    intro flag
    cases flag <;> decide

theorem lawful_debug : debug.Lawful where
  complete := DebugFlag.mem_all
  distinct := by
    intro flag other
    cases flag <;> cases other <;> simp [debug, DebugFlag.token]
  callable := by
    intro flag
    cases flag <;> decide

variable {Flag : Type} {kind : FlagKind Flag} {before : Verbosity} {token name : String} {flag : Flag}

theorem Lawful.find?_eq_some_iff (lawful : kind.Lawful) :
    kind.all.find? (kind.word · = name) = some flag ↔ kind.word flag = name := by
  constructor
  · exact fun found => by simpa using List.find?_some found
  · rintro rfl
    have listed : (kind.all.find? (kind.word · = kind.word flag)).isSome = true :=
      List.find?_isSome.mpr ⟨flag, lawful.complete flag, decide_eq_true rfl⟩
    obtain ⟨other, found⟩ := Option.isSome_iff_exists.mp listed
    have same : kind.word other = kind.word flag := by simpa using List.find?_some found
    rw [found, lawful.distinct same]

theorem apply_of_parse {level : UInt8} (parsed : FlagToken.parse token = .ok (name, level)) :
    kind.apply token before =
      match kind.all.find? (kind.word · = name) with
      | some flag => .ok () (kind.set before flag level)
      | none => .error (kind.unknown name) before := by
  have cut : (MonadExcept.ofExcept (FlagToken.parse token) :
      EStateM FlagTokenError Verbosity (String × UInt8)) before = .ok (name, level) before := by
    rw [parsed]
    rfl
  refine (Action.bind_ok cut).trans ?_
  dsimp only
  cases kind.all.find? (kind.word · = name) <;> rfl

theorem Lawful.apply_denoting (lawful : kind.Lawful) {level : UInt8}
    (denoting : Denotes (kind.word flag) token level) :
    kind.apply token before = .ok () (kind.set before flag level) := by
  have parsed := FlagToken.parse_denoting (lawful.callable flag) denoting
  rw [apply_of_parse parsed, lawful.find?_eq_some_iff.mpr rfl]

/-- The verbosity is only touched once a flag is found, and then the token denoting that. -/
theorem Lawful.apply_other (lawful : kind.Lawful)
    (other : ¬ ∃ flag level, Denotes (kind.word flag) token level) :
    ∃ cause, kind.apply token before = .error cause before := by
  cases parsed : FlagToken.parse token with
  | error cause =>
      refine ⟨cause, ?_⟩
      unfold apply
      rw [parsed]
      rfl
  | ok cut =>
      obtain ⟨name, level⟩ := cut
      obtain ⟨-, denoting⟩ := FlagToken.denotes_of_parse parsed
      rw [apply_of_parse parsed]
      split
      · next flag found =>
        exact absurd ⟨flag, level, lawful.find?_eq_some_iff.mp found ▸ denoting⟩ other
      · exact ⟨_, rfl⟩

/-- That tokens are applied exactly: one that denotes a flag sets the level of that flag and no
other, and any other token is refused and changes nothing. -/
structure Exact {Flag : Type} (kind : FlagKind Flag) (place : Flag → InfoFlag ⊕ DebugFlag) :
    Prop where
  accepts : ∀ before token, (∃ after, kind.apply token before = .ok () after) ↔
    ∃ flag level, Denotes (kind.word flag) token level
  sets : ∀ before token flag level, Denotes (kind.word flag) token level →
    ∃ after, kind.apply token before = .ok () after ∧
      after.levels = Function.update before.levels (place flag) level
  refuses : ∀ before token, (¬ ∃ flag level, Denotes (kind.word flag) token level) →
    ∃ cause, kind.apply token before = .error cause before

variable {place : Flag → InfoFlag ⊕ DebugFlag}

theorem Lawful.exact (lawful : kind.Lawful)
    (levels_set : ∀ before flag level,
      (kind.set before flag level).levels = Function.update before.levels (place flag) level) :
    kind.Exact place where
  accepts := by
    intro before token
    constructor
    · rintro ⟨after, ran⟩
      by_contra other
      obtain ⟨cause, refused⟩ := lawful.apply_other other
      rw [refused] at ran
      cases ran
    · rintro ⟨flag, level, denoting⟩
      exact ⟨_, lawful.apply_denoting denoting⟩
  sets := fun before _ flag level denoting =>
    ⟨_, lawful.apply_denoting denoting, levels_set before flag level⟩
  refuses := fun _ _ other => lawful.apply_other other

/-- The tokens of either kind are applied exactly. -/
theorem apply_exact : info.Exact .inl ∧ debug.Exact .inr :=
  ⟨lawful_info.exact Verbosity.levels_setInfo, lawful_debug.exact Verbosity.levels_setDebug⟩

example : info.apply "nonreg007" {} = .ok () (Verbosity.setInfo {} .nonRegular 7) := by rfl

example : info.apply "del256" {} = .error (.invalidLevel "del256") {} := by rfl

end FlagKind

end TreeSync

import TreeSync.Diagnostics.Verbosity

namespace TreeSync

/-! Flag tokens: a flag's word, then optionally its level in decimal digits.

A token without digits means level one. A token that is refused leaves the
verbosity as it was, since the change is only made once all of it is understood.
-/

inductive FlagTokenError where
  | empty
  | missingName (token : String)
  | invalidLevel (token : String)
  | unknownInfoFlag (name : String)
  | unknownDebugFlag (name : String)
deriving DecidableEq, Repr

def FlagTokenError.message : FlagTokenError → String
  | .empty => "empty flag token"
  | .missingName token => "missing flag name in: " ++ token
  | .invalidLevel token => "invalid level in flag: " ++ token
  | .unknownInfoFlag name => "unknown info flag: " ++ name
  | .unknownDebugFlag name => "unknown debug flag: " ++ name

namespace FlagToken

def isDigit (char : Char) : Bool :=
  '0' ≤ char && char ≤ '9'

def valueOfDigits (digits : List Char) : Nat :=
  digits.foldl (fun value digit => value * 10 + (digit.toNat - 48)) 0

/-- The level written in `digits`: digits only, of value at most 255. -/
def levelOf? (digits : List Char) : Option UInt8 :=
  if digits.all isDigit ∧ valueOfDigits digits ≤ 255 then
    some (UInt8.ofNat (valueOfDigits digits))
  else none

/-- Cuts a token at its first digit. -/
def parse (token : String) : Except FlagTokenError (String × UInt8) :=
  let chars := token.toList
  let name := chars.takeWhile (!isDigit ·)
  let digits := chars.dropWhile (!isDigit ·)
  match name, digits with
  | [], [] => .error .empty
  | [], _ :: _ => .error (.missingName token)
  | _ :: _, [] => .ok (token, 1)
  | _ :: _, _ :: _ =>
      match levelOf? digits with
      | some level => .ok (String.ofList name, level)
      | none => .error (.invalidLevel token)

end FlagToken

/-- One of the two kinds of flags, as tokens name and set them. -/
structure FlagKind (Flag : Type) where
  all : List Flag
  word : Flag → String
  set : Verbosity → Flag → UInt8 → Verbosity
  unknown : String → FlagTokenError

namespace FlagKind

def info : FlagKind InfoFlag where
  all := InfoFlag.all
  word := InfoFlag.token
  set := Verbosity.setInfo
  unknown := .unknownInfoFlag

def debug : FlagKind DebugFlag where
  all := DebugFlag.all
  word := DebugFlag.token
  set := Verbosity.setDebug
  unknown := .unknownDebugFlag

/-- Sets the flag that a token names. -/
def apply {Flag : Type} (kind : FlagKind Flag) (token : String) :
    EStateM FlagTokenError Verbosity Unit := do
  let (name, level) ← MonadExcept.ofExcept (FlagToken.parse token)
  match kind.all.find? (kind.word · = name) with
  | some flag => modify (kind.set · flag level)
  | none => throw (kind.unknown name)

/-- What a token makes of a verbosity. -/
def applied {Flag : Type} (kind : FlagKind Flag) (verbosity : Verbosity) (token : String) :
    Except FlagTokenError Verbosity :=
  match kind.apply token verbosity with
  | .ok () after => .ok after
  | .error cause _ => .error cause

end FlagKind

namespace Verbosity

def applyInfoToken : Verbosity → String → Except FlagTokenError Verbosity :=
  FlagKind.info.applied

def applyDebugToken : Verbosity → String → Except FlagTokenError Verbosity :=
  FlagKind.debug.applied

end Verbosity

end TreeSync

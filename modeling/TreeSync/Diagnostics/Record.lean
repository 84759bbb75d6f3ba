import TreeSync.Diagnostics.FlagToken
import TreeSync.Text.Json

namespace TreeSync.Verbosity

/-! The verbosity as a JSON record: an object per kind of flag, a level per flag.

Reading takes objects in any order of members and ignores members it does not
know; it also takes arrays that give every member in order. A member may not be
missing nor be given twice.
-/

def members? (names : List String) : Json → Option (List Json)
  | .array items => if items.length = names.length then some items else none
  | .object members => do
      let named ← members.mapM fun member => return (← Json.text? member.1, member.2)
      names.mapM fun name =>
        match named.filter (·.1 = name) with
        | [(_, value)] => some value
        | _ => none
  | _ => none

/-- A level: a plain number without sign, fraction or exponent. -/
def level? : Json → Option UInt8
  | .number chars => FlagToken.levelOf? chars
  | _ => none

def levels? (names : List String) (value : Json) : Option (List UInt8) := do
  (← members? names value).mapM level?

/-- The level listed for `flag`, the flags being listed in the order of `all`. -/
def levelFor [BEq φ] (all : List φ) (levels : List UInt8) (flag : φ) : UInt8 :=
  (levels[all.idxOf flag]?).getD 0

def ofJson? (text : String) : Option Verbosity := do
  match ← members? ["info", "debug"] (← Json.parse? text) with
  | [info, debug] =>
      let infoLevels ← levels? (InfoFlag.all.map InfoFlag.token) info
      let debugLevels ← levels? (DebugFlag.all.map DebugFlag.token) debug
      return { info := levelFor InfoFlag.all infoLevels, debug := levelFor DebugFlag.all debugLevels }
  | _ => none

def writeObject (members : List (String × String)) : String :=
  let member (entry : String × String) : String := "\"" ++ entry.1 ++ "\":" ++ entry.2
  "\x7b" ++ ",".intercalate (members.map member) ++ "\x7d"

def toJson (verbosity : Verbosity) : String :=
  let info := InfoFlag.all.map fun flag => (flag.token, toString (verbosity.info flag).toNat)
  let debug := DebugFlag.all.map fun flag => (flag.token, toString (verbosity.debug flag).toNat)
  writeObject [("info", writeObject info), ("debug", writeObject debug)]

end TreeSync.Verbosity

import TreeSync.Text.Utf8
import TreeSync.Text.CharClass

namespace TreeSync.Quoted

/-! Byte strings between double quotes, unambiguous on a terminal.

A quote and a backslash take a backslash, the usual controls their letter, any
other character that is invisible or changes its neighbour `\u{hex}`, and a byte
outside every character `\xHH`.
-/

/-- Digits of `value` in `base`, lower case, without padding. -/
def numeral (base value : Nat) : List Char :=
  Nat.toDigits base value

def escapeChar (char : Char) : List Char :=
  if char = '"' then ['\\', '"']
  else if char = '\\' then ['\\', '\\']
  else if char = '\t' then ['\\', 't']
  else if char = '\r' then ['\\', 'r']
  else if char = '\n' then ['\\', 'n']
  else if char.toNat = 0 then ['\\', '0']
  else if CharClass.isExtending char || CharClass.isUnprintable char then
    ['\\', 'u', '\x7b'] ++ numeral 16 char.toNat ++ ['\x7d']
  else [char]

def escapeByte (byte : UInt8) : List Char :=
  let digit (value : Nat) : Char := (Nat.digitChar value).toUpper
  ['\\', 'x', digit (byte.toNat / 16), digit (byte.toNat % 16)]

def escapePiece : Utf8.Piece → List Char
  | .char char => escapeChar char
  | .broken bytes => bytes.flatMap escapeByte

def quote (bytes : Bytes) : String :=
  String.ofList (['"'] ++ (Utf8.scan bytes).flatMap escapePiece ++ ['"'])

end TreeSync.Quoted

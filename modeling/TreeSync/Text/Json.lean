namespace TreeSync.Json

/-! Reading JSON texts, strictly.

A text is cut into tokens, and the tokens are put together on a stack of the
arrays and objects still open. Strings and numbers keep the characters they were
written with: what they stand for is left to whoever wants the value.
-/

inductive Token where
  | mark (char : Char)
  | word (chars : List Char)
  | number (chars : List Char)
  | string (raw : List Char)
deriving DecidableEq, Repr

/-- Where a cut stands: between tokens, or inside one whose characters so far are
held in reverse. In a string `escaped` says that a backslash came just before. -/
inductive Cut where
  | between
  | word (reversed : List Char)
  | number (reversed : List Char)
  | string (reversed : List Char) (escaped : Bool)

def isBlank (char : Char) : Bool :=
  char = ' ' || char = '\t' || char = '\n' || char = '\r'

def isMark (char : Char) : Bool :=
  char = '\x7b' || char = '\x7d' || char = '[' || char = ']' || char = ':' || char = ','

def isDigit (char : Char) : Bool :=
  '0' ≤ char && char ≤ '9'

def isWordChar (char : Char) : Bool :=
  'a' ≤ char && char ≤ 'z'

def isNumberChar (char : Char) : Bool :=
  isDigit char || char = '-' || char = '+' || char = '.' || char = 'e' || char = 'E'

/-- What a character met between tokens begins, with the token it completes. -/
def Cut.opening? (char : Char) : Option (List Token × Cut) :=
  if isBlank char then some ([], .between)
  else if isMark char then some ([.mark char], .between)
  else if char = '"' then some ([], .string [] false)
  else if isDigit char || char = '-' then some ([], .number [char])
  else if isWordChar char then some ([], .word [char])
  else none

def tokensFrom : Cut → List Char → Option (List Token)
  | .between, [] => some []
  | .word reversed, [] => some [.word reversed.reverse]
  | .number reversed, [] => some [.number reversed.reverse]
  | .string _ _, [] => none
  | .between, char :: rest => do
      let (tokens, next) ← Cut.opening? char
      return tokens ++ (← tokensFrom next rest)
  | .word reversed, char :: rest =>
      if isWordChar char then tokensFrom (.word (char :: reversed)) rest
      else do
        let (tokens, next) ← Cut.opening? char
        return .word reversed.reverse :: tokens ++ (← tokensFrom next rest)
  | .number reversed, char :: rest =>
      if isNumberChar char then tokensFrom (.number (char :: reversed)) rest
      else do
        let (tokens, next) ← Cut.opening? char
        return .number reversed.reverse :: tokens ++ (← tokensFrom next rest)
  | .string reversed escaped, char :: rest =>
      if escaped then tokensFrom (.string (char :: reversed) false) rest
      else if char = '\\' then tokensFrom (.string (char :: reversed) true) rest
      else if char = '"' then do
        return .string reversed.reverse :: (← tokensFrom .between rest)
      else tokensFrom (.string (char :: reversed) false) rest

def tokens? (text : List Char) : Option (List Token) :=
  tokensFrom .between text

/-- The fraction and exponent of a number, each of them optional. -/
def isNumberTail (chars : List Char) : Bool :=
  let afterFraction : Option (List Char) :=
    match chars with
    | '.' :: rest => if (rest.takeWhile isDigit).isEmpty then none else some (rest.dropWhile isDigit)
    | rest => some rest
  match afterFraction with
  | none => false
  | some [] => true
  | some (mark :: rest) =>
      let digits :=
        match rest with
        | '+' :: digits => digits
        | '-' :: digits => digits
        | digits => digits
      (mark = 'e' || mark = 'E') && !digits.isEmpty && digits.all isDigit

/-- A number has no sign but a minus and no idle leading zero. -/
def isNumber (chars : List Char) : Bool :=
  let unsigned :=
    match chars with
    | '-' :: rest => rest
    | rest => rest
  match unsigned with
  | [] => false
  | '0' :: rest => isNumberTail rest
  | first :: rest => isDigit first && isNumberTail (rest.dropWhile isDigit)

/-- A character of a string, or one sixteen-bit unit given by its number. -/
inductive Unit16 where
  | char (char : Char)
  | unit (value : Nat)

def hexDigit? (char : Char) : Option Nat :=
  if '0' ≤ char ∧ char ≤ '9' then some (char.toNat - 48)
  else if 'a' ≤ char ∧ char ≤ 'f' then some (char.toNat - 87)
  else if 'A' ≤ char ∧ char ≤ 'F' then some (char.toNat - 55)
  else none

def escaped? (char : Char) : Option Char :=
  if char = '"' ∨ char = '\\' ∨ char = '/' then some char
  else if char = 'b' then some (Char.ofNat 8)
  else if char = 'f' then some (Char.ofNat 12)
  else if char = 'n' then some '\n'
  else if char = 'r' then some '\r'
  else if char = 't' then some '\t'
  else none

/-- Resolves the escapes of a string; controls have to be escaped. -/
def units? : List Char → Option (List Unit16)
  | [] => some []
  | '\\' :: 'u' :: a :: b :: c :: d :: rest => do
      let value := (((← hexDigit? a) * 16 + (← hexDigit? b)) * 16 + (← hexDigit? c)) * 16 +
        (← hexDigit? d)
      return .unit value :: (← units? rest)
  | '\\' :: char :: rest => do
      let value ← escaped? char
      return .char value :: (← units? rest)
  | ['\\'] => none
  | char :: rest =>
      if char.toNat < 0x20 then none else do
        return .char char :: (← units? rest)

def isHighUnit (value : Nat) : Bool := 0xD800 ≤ value && value < 0xDC00
def isLowUnit (value : Nat) : Bool := 0xDC00 ≤ value && value < 0xE000

/-- Joins units into characters; half of a pair on its own is no character. -/
def joinUnits? : List Unit16 → Option (List Char)
  | [] => some []
  | .char char :: rest => return char :: (← joinUnits? rest)
  | .unit high :: .unit low :: rest =>
      if isHighUnit high && isLowUnit low then do
        return Char.ofNat (0x10000 + (high - 0xD800) * 0x400 + (low - 0xDC00)) ::
          (← joinUnits? rest)
      else if isHighUnit high || isLowUnit high then none
      else do
        return Char.ofNat high :: (← joinUnits? (.unit low :: rest))
  | .unit value :: rest =>
      if isHighUnit value || isLowUnit value then none
      else do
        return Char.ofNat value :: (← joinUnits? rest)

/-- The text that a string stands for. -/
def text? (raw : List Char) : Option String := do
  return String.ofList (← joinUnits? (← units? raw))

end Json

/-- A JSON text put together. Members of an object keep their order and repetitions. -/
inductive Json where
  | null
  | bool (value : Bool)
  | number (chars : List Char)
  | string (raw : List Char)
  | array (items : List Json)
  | object (members : List (List Char × Json))

namespace Json

/-- An array or object still open, its parts so far in reverse. -/
inductive Frame where
  | array (reversed : List Json)
  | object (reversed : List (List Char × Json)) (key : List Char)

inductive Expect where
  | value
  | valueOrClose
  | key
  | keyOrClose
  | colon
  | separator
  | done (value : Json)

structure Build where
  frames : List Frame := []
  expect : Expect := .value

namespace Build

/-- Hands a finished value to the innermost open array or object. -/
def complete (frames : List Frame) (value : Json) : Build :=
  match frames with
  | [] => ⟨[], .done value⟩
  | .array reversed :: rest => ⟨.array (value :: reversed) :: rest, .separator⟩
  | .object reversed key :: rest => ⟨.object ((key, value) :: reversed) [] :: rest, .separator⟩

def scalar? : Token → Option Json
  | .word chars =>
      if chars = "null".toList then some .null
      else if chars = "true".toList then some (.bool true)
      else if chars = "false".toList then some (.bool false)
      else none
  | .number chars => if isNumber chars then some (.number chars) else none
  | .string raw => (units? raw).map fun _ => .string raw
  | .mark _ => none

def close? (frames : List Frame) (char : Char) : Option Build :=
  match char, frames with
  | ']', .array reversed :: rest => some (complete rest (.array reversed.reverse))
  | '\x7d', .object reversed _ :: rest => some (complete rest (.object reversed.reverse))
  | _, _ => none

def beginValue? (frames : List Frame) (token : Token) : Option Build :=
  match token with
  | .mark '[' => some ⟨.array [] :: frames, .valueOrClose⟩
  | .mark '\x7b' => some ⟨.object [] [] :: frames, .keyOrClose⟩
  | token => (scalar? token).map (complete frames)

def beginMember? (frames : List Frame) (token : Token) : Option Build :=
  match token, frames with
  | .string raw, .object reversed _ :: rest =>
      (units? raw).map fun _ => ⟨.object reversed raw :: rest, .colon⟩
  | _, _ => none

def step (build : Build) (token : Token) : Option Build :=
  match build.expect, token with
  | .value, token => beginValue? build.frames token
  | .valueOrClose, .mark ']' => close? build.frames ']'
  | .valueOrClose, token => beginValue? build.frames token
  | .key, token => beginMember? build.frames token
  | .keyOrClose, .mark '\x7d' => close? build.frames '\x7d'
  | .keyOrClose, token => beginMember? build.frames token
  | .colon, .mark ':' => some { build with expect := .value }
  | .colon, _ => none
  | .separator, .mark ',' =>
      match build.frames with
      | .array _ :: _ => some { build with expect := .value }
      | .object _ _ :: _ => some { build with expect := .key }
      | [] => none
  | .separator, .mark char => close? build.frames char
  | .separator, _ => none
  | .done _, _ => none

end Build

/-- The value written in `text`, if it is one JSON text and nothing else. -/
def parse? (text : String) : Option Json := do
  let tokens ← tokens? text.toList
  match (← tokens.foldlM Build.step {}).expect with
  | .done value => some value
  | _ => none

end TreeSync.Json

/-!
# JSON tokens

`Json.tokens` cuts a text into tokens. A number is kept as its value when it is written as plain
digits, and as `none` when it has a sign, a fraction or an exponent; a string is kept as its text,
and as `none` when its escapes name half of a surrogate pair, which is no character.

Reading goes through the characters once. Whether a number or a word goes on is decided by the
character that follows, so every step consumes one character at least.
-/

namespace Quorum.Json

/-- A token of a JSON text. -/
inductive Token where
  | openBrace
  | closeBrace
  | openBracket
  | closeBracket
  | colon
  | comma
  | null
  | bool (value : Bool)
  | number (value : Option Nat)
  | string (text : Option String)
  deriving DecidableEq, Repr

/-- The four characters that may stand between tokens. -/
def isBlank (c : Char) : Bool := c == ' ' || c == '\n' || c == '\t' || c == '\r'

/-- The characters of which numbers are made. -/
def isNumeric (c : Char) : Bool :=
  c.isDigit || c == '-' || c == '+' || c == '.' || c == 'e' || c == 'E'

/-- The value of a run of decimal digits. -/
def decimal (digits : List Char) : Nat :=
  digits.foldl (fun value c => 10 * value + (c.toNat - '0'.toNat)) 0

/-- A mark of an exponent, an optional sign, and digits; or nothing. -/
def isExponent : List Char → Bool
  | [] => true
  | mark :: rest =>
      let digits := match rest with
        | '+' :: more => more
        | '-' :: more => more
        | more => more
      (mark == 'e' || mark == 'E') && !digits.isEmpty && digits.all Char.isDigit

/-- What may follow the whole part of a number: a fraction, an exponent, both, or nothing. -/
def isFractionAndExponent : List Char → Bool
  | '.' :: rest =>
      !(rest.takeWhile Char.isDigit).isEmpty && isExponent (rest.dropWhile Char.isDigit)
  | rest => isExponent rest

/-- Digits without a leading zero, zero itself apart. -/
def isWholePart (digits : List Char) : Bool :=
  match digits with
  | [] => false
  | ['0'] => true
  | first :: _ => first != '0'

/-- Read a run of number characters. `none` means that it is no number. -/
def numberOf (run : List Char) : Option (Option Nat) :=
  match run with
  | '-' :: body =>
      if isWholePart (body.takeWhile Char.isDigit) &&
          isFractionAndExponent (body.dropWhile Char.isDigit) then
        some none
      else none
  | body =>
      let whole := body.takeWhile Char.isDigit
      let rest := body.dropWhile Char.isDigit
      if isWholePart whole && isFractionAndExponent rest then
        some (if rest.isEmpty then some (decimal whole) else none)
      else none

/-- Read a run of letters. -/
def wordOf (run : List Char) : Option Token :=
  if run = ['t', 'r', 'u', 'e'] then some (.bool true)
  else if run = ['f', 'a', 'l', 's', 'e'] then some (.bool false)
  else if run = ['n', 'u', 'l', 'l'] then some .null
  else none

/-- The value of a hexadecimal digit. -/
def hexDigit (c : Char) : Option Nat :=
  if c.isDigit then some (c.toNat - '0'.toNat)
  else if 'a' ≤ c ∧ c ≤ 'f' then some (c.toNat - 'a'.toNat + 10)
  else if 'A' ≤ c ∧ c ≤ 'F' then some (c.toNat - 'A'.toNat + 10)
  else none

/-- The code unit named by four hexadecimal digits. -/
def codeUnit (a b c d : Char) : Option Nat := do
  return (((← hexDigit a) * 16 + (← hexDigit b)) * 16 + (← hexDigit c)) * 16 + (← hexDigit d)

/-- The characters named by a backslash and one more character. -/
def simpleEscape : Char → Option Char
  | '"' => some '"'
  | '\\' => some '\\'
  | '/' => some '/'
  | 'b' => some '\x08'
  | 'f' => some '\x0c'
  | 'n' => some '\n'
  | 'r' => some '\r'
  | 't' => some '\t'
  | _ => none

/-- The part of a string read so far: its characters, newest first, or nothing once an escape has
named no character; and the first half of a surrogate pair that waits for its second half. -/
structure Draft where
  chars : Option (List Char) := some []
  high : Option Nat := none
  deriving DecidableEq, Repr

namespace Draft

/-- Add a character. A waiting half is left without its partner. -/
def push (draft : Draft) (c : Char) : Draft :=
  match draft.high with
  | some _ => ⟨none, none⟩
  | none => ⟨draft.chars.map (c :: ·), none⟩

/-- Add the code unit of an escape. -/
def pushUnit (draft : Draft) (unit : Nat) : Draft :=
  if 0xDC00 ≤ unit ∧ unit < 0xE000 then
    match draft.high with
    | some high =>
        let c := Char.ofNat (0x10000 + (high - 0xD800) * 0x400 + (unit - 0xDC00))
        ⟨draft.chars.map (c :: ·), none⟩
    | none => ⟨none, none⟩
  else if 0xD800 ≤ unit ∧ unit < 0xDC00 then
    match draft.high with
    | some _ => ⟨none, none⟩
    | none => { draft with high := some unit }
  else
    draft.push (Char.ofNat unit)

/-- The finished string. -/
def text (draft : Draft) : Option String :=
  match draft.high with
  | some _ => none
  | none => draft.chars.map fun chars => String.ofList chars.reverse

end Draft

/-- What the reader is in the middle of. -/
inductive Mode where
  | between
  | inString (draft : Draft)
  | inNumber (run : List Char)
  | inWord (run : List Char)
  deriving DecidableEq, Repr

/-- The token of a single punctuation character. -/
def punctuation : Char → Option Token
  | '{' => some .openBrace
  | '}' => some .closeBrace
  | '[' => some .openBracket
  | ']' => some .closeBracket
  | ':' => some .colon
  | ',' => some .comma
  | _ => none

/-- Whether the next character belongs to the run at hand. -/
def goesOn (belongs : Char → Bool) : List Char → Bool
  | [] => false
  | c :: _ => belongs c

/-- Cut a text into tokens, starting in the middle of something. A run is held newest first. -/
def tokensFrom : Mode → List Char → Option (List Token)
  | .between, [] => some []
  | _, [] => none
  | .inString draft, '"' :: rest => do
      return .string draft.text :: (← tokensFrom .between rest)
  | .inString draft, '\\' :: 'u' :: a :: b :: c :: d :: rest => do
      tokensFrom (.inString (draft.pushUnit (← codeUnit a b c d))) rest
  | .inString draft, '\\' :: c :: rest => do
      tokensFrom (.inString (draft.push (← simpleEscape c))) rest
  | .inString draft, c :: rest =>
      if c.toNat < 0x20 || c == '\\' then none else tokensFrom (.inString (draft.push c)) rest
  | .inNumber run, c :: rest =>
      if goesOn isNumeric rest then tokensFrom (.inNumber (c :: run)) rest
      else do
        let value ← numberOf (c :: run).reverse
        return .number value :: (← tokensFrom .between rest)
  | .inWord run, c :: rest =>
      if goesOn Char.isAlpha rest then tokensFrom (.inWord (c :: run)) rest
      else do
        let word ← wordOf (c :: run).reverse
        return word :: (← tokensFrom .between rest)
  | .between, c :: rest =>
      if isBlank c then tokensFrom .between rest
      else if c == '"' then tokensFrom (.inString {}) rest
      else match punctuation c with
        | some token => do return token :: (← tokensFrom .between rest)
        | none =>
          if isNumeric c then
            if goesOn isNumeric rest then tokensFrom (.inNumber [c]) rest
            else do
              let value ← numberOf [c]
              return .number value :: (← tokensFrom .between rest)
          else if c.isAlpha then
            if goesOn Char.isAlpha rest then tokensFrom (.inWord [c]) rest else none
          else none

/-- Cut a text into tokens. -/
def tokens (text : List Char) : Option (List Token) := tokensFrom .between text

end Quorum.Json

import Quorum.Json.Token

/-!
# JSON values

`Json.parse` reads one value from a text, and nothing but blanks around it. It works on the tokens
with an explicit stack of the arrays and objects that are still open, so values may be nested as
deep as the text is long. `Json.render` writes a value without blanks.
-/

namespace Quorum

/-- A JSON value. Objects keep every field, repeated names included, in the order of the text. -/
inductive Json where
  | null
  | bool (value : Bool)
  /-- A number written as plain digits. -/
  | number (value : Nat)
  | string (text : String)
  | array (items : List Json)
  | object (fields : List (String × Json))
  /-- A well-formed value that names nothing here: a number with a sign, a fraction or an exponent,
  a string whose escapes name no character, or an object with such a name for a field. -/
  | unusable
  deriving Repr, Inhabited

namespace Json

/-- An array or object that is still open, with what it holds so far, newest first. -/
inductive Frame where
  | array (items : List Json)
  /-- `key` is the name of the field whose value comes next; `intact` is cleared by a name that is
  no text. -/
  | object (fields : List (String × Json)) (intact : Bool) (key : String)

/-- What has to come next. -/
inductive Expect where
  | value
  | itemOrEnd
  | keyOrEnd
  | key
  | colon
  | commaOrEnd
  | nothing
  deriving DecidableEq

/-- The state of the reader: the open frames, innermost first, what has to come next, and the value
once it is complete. -/
structure Reader where
  frames : List Frame := []
  expect : Expect := .value
  result : Json := .null

namespace Reader

/-- Hand a complete value to the innermost frame. -/
def supply (reader : Reader) (value : Json) : Reader :=
  match reader.frames with
  | [] => { reader with expect := .nothing, result := value }
  | .array items :: outer =>
      { reader with frames := .array (value :: items) :: outer, expect := .commaOrEnd }
  | .object fields intact key :: outer =>
      { reader with
        frames := .object ((key, value) :: fields) intact key :: outer, expect := .commaOrEnd }

/-- The value of a frame that has been closed. -/
def closed : Frame → Json
  | .array items => .array items.reverse
  | .object fields intact _ => if intact then .object fields.reverse else .unusable

/-- Begin a value. -/
def beginValue (reader : Reader) : Token → Option Reader
  | .null => some (reader.supply .null)
  | .bool value => some (reader.supply (.bool value))
  | .number (some value) => some (reader.supply (.number value))
  | .number none => some (reader.supply .unusable)
  | .string (some text) => some (reader.supply (.string text))
  | .string none => some (reader.supply .unusable)
  | .openBracket =>
      some { reader with frames := .array [] :: reader.frames, expect := .itemOrEnd }
  | .openBrace =>
      some { reader with frames := .object [] true "" :: reader.frames, expect := .keyOrEnd }
  | _ => none

/-- Close the innermost frame, provided the token is the right one for it. -/
def close (reader : Reader) (token : Token) : Option Reader :=
  match reader.frames, token with
  | .array items :: outer, .closeBracket =>
      some ({ reader with frames := outer }.supply (closed (.array items)))
  | .object fields intact key :: outer, .closeBrace =>
      some ({ reader with frames := outer }.supply (closed (.object fields intact key)))
  | _, _ => none

/-- Read the name of a field. -/
def readKey (reader : Reader) (token : Token) : Option Reader :=
  match reader.frames, token with
  | .object fields intact _ :: outer, .string (some name) =>
      some { reader with frames := .object fields intact name :: outer, expect := .colon }
  | .object fields _ _ :: outer, .string none =>
      some { reader with frames := .object fields false "" :: outer, expect := .colon }
  | _, _ => none

/-- After a comma an array expects an item and an object a name. -/
def afterComma (reader : Reader) : Option Reader :=
  match reader.frames with
  | .array _ :: _ => some { reader with expect := .value }
  | .object _ _ _ :: _ => some { reader with expect := .key }
  | [] => none

/-- Take in one token. -/
def step (reader : Reader) (token : Token) : Option Reader :=
  match reader.expect with
  | .value => reader.beginValue token
  | .itemOrEnd => if token = .closeBracket then reader.close token else reader.beginValue token
  | .keyOrEnd => if token = .closeBrace then reader.close token else reader.readKey token
  | .key => reader.readKey token
  | .colon => if token = .colon then some { reader with expect := .value } else none
  | .commaOrEnd => if token = .comma then reader.afterComma else reader.close token
  | .nothing => none

/-- Take in all tokens. -/
def run (reader : Reader) : List Token → Option Reader
  | [] => some reader
  | token :: rest => do run (← reader.step token) rest

end Reader

/-- Read a text that holds exactly one value. -/
def parse (text : List Char) : Option Json := do
  let reader ← Reader.run {} (← tokens text)
  if reader.expect = .nothing then some reader.result else none

/-- The hexadecimal digit of a number below sixteen. -/
def hexOf (n : Nat) : Char := Nat.digitChar n

/-- How a character is written inside a string. Only the quote, the backslash and the characters
below the blank are escaped; the latter by a letter where there is one. -/
def escape (c : Char) : List Char :=
  match c with
  | '"' => ['\\', '"']
  | '\\' => ['\\', '\\']
  | '\x08' => ['\\', 'b']
  | '\x0c' => ['\\', 'f']
  | '\n' => ['\\', 'n']
  | '\r' => ['\\', 'r']
  | '\t' => ['\\', 't']
  | c =>
      if c.toNat < 0x20 then
        ['\\', 'u', '0', '0', hexOf (c.toNat / 16), hexOf (c.toNat % 16)]
      else [c]

/-- A string in quotes. -/
def quote (text : String) : List Char := '"' :: text.toList.flatMap escape ++ ['"']

/-- The decimal digits of a number. -/
def digits (value : Nat) : List Char := Nat.toDigits 10 value

mutual

/-- Write a value without blanks. A value that names nothing is written as null. -/
def render : Json → List Char
  | .null => ['n', 'u', 'l', 'l']
  | .bool true => ['t', 'r', 'u', 'e']
  | .bool false => ['f', 'a', 'l', 's', 'e']
  | .number value => digits value
  | .string text => quote text
  | .array items => '[' :: renderItems items ++ [']']
  | .object fields => '\x7b' :: renderFields fields ++ ['\x7d']
  | .unusable => ['n', 'u', 'l', 'l']

/-- Write items with commas between them. -/
def renderItems : List Json → List Char
  | [] => []
  | item :: rest =>
      match rest with
      | [] => item.render
      | _ => item.render ++ ',' :: renderItems rest

/-- Write fields with commas between them. -/
def renderFields : List (String × Json) → List Char
  | [] => []
  | (name, value) :: rest =>
      match rest with
      | [] => quote name ++ ':' :: value.render
      | _ => quote name ++ ':' :: value.render ++ ',' :: renderFields rest

end

/-- The value of the only field with the given name; `none` if there is none or more than one. -/
def onlyField (fields : List (String × Json)) (name : String) : Option Json :=
  match fields.filter fun field => field.1 = name with
  | [(_, value)] => some value
  | _ => none

end Json

end Quorum

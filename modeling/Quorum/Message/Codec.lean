import Quorum.Json.Value
import Quorum.Message.Basic

/-!
# The text form of messages

A message is written as compact JSON: an object with one field, named for the variant, around the
fields of the variant in their order. A variant without fields is written as its name alone.

Reading is a little wider than writing. The fields of a variant may stand in any order, among fields
of other names, or as an array of exactly the values in order; a variant without fields may be an
object around null. Every field has to occur exactly once, and numbers have to be words.
-/

namespace Quorum

open Json

namespace Json

/-- A word. -/
def toWord? : Json → Option Nat
  | .number value => if value < Word.limit then some value else none
  | _ => none

def toText? : Json → Option String
  | .string text => some text
  | _ => none

def toBool? : Json → Option Bool
  | .bool value => some value
  | _ => none

/-- The name and the content of a variant. A bare name has no content. -/
def toVariant? : Json → Option (String × Option Json)
  | .string name => some (name, none)
  | .object [(name, content)] => some (name, some content)
  | _ => none

/-- The values of the named fields, from an object or from an array of exactly these values. -/
def toFields? (names : List String) : Json → Option (List Json)
  | .object fields => names.mapM (onlyField fields)
  | .array items => if items.length = names.length then some items else none
  | _ => none

/-- A variant around its fields. -/
def ofVariant (name : String) (content : Json) : Json := .object [(name, content)]

end Json

namespace Request

def toJson : Request → Json
  | heartbeat id => ofVariant "Heartbeat" (.object [("node_id", .string id)])
  | vote term lastLogTerm lastLogIndex =>
      ofVariant "Vote" (.object [("term", .number term), ("last_log_term", .number lastLogTerm),
        ("last_log_index", .number lastLogIndex)])
  | leaderHeartbeat term id =>
      ofVariant "LeaderHeartbeat" (.object [("term", .number term), ("node_id", .string id)])

def ofJson? (json : Json) : Option Request := do
  let (name, content) ← json.toVariant?
  let content ← content
  if name = "Heartbeat" then
    match ← content.toFields? ["node_id"] with
    | [id] => return heartbeat (← id.toText?)
    | _ => none
  else if name = "Vote" then
    match ← content.toFields? ["term", "last_log_term", "last_log_index"] with
    | [term, lastLogTerm, lastLogIndex] =>
        return vote (← term.toWord?) (← lastLogTerm.toWord?) (← lastLogIndex.toWord?)
    | _ => none
  else if name = "LeaderHeartbeat" then
    match ← content.toFields? ["term", "node_id"] with
    | [term, id] => return leaderHeartbeat (← term.toWord?) (← id.toText?)
    | _ => none
  else
    none

end Request

namespace Response

def toJson : Response → Json
  | heartbeat => .string "Heartbeat"
  | vote term granted =>
      ofVariant "Vote" (.object [("term", .number term), ("granted", .bool granted)])
  | leaderHeartbeat term accepted =>
      ofVariant "LeaderHeartbeat" (.object [("term", .number term), ("accepted", .bool accepted)])

def ofJson? (json : Json) : Option Response := do
  match ← json.toVariant? with
  | (name, none) => if name = "Heartbeat" then return heartbeat else none
  | (name, some content) =>
    if name = "Heartbeat" then
      match content with
      | .null => return heartbeat
      | _ => none
    else if name = "Vote" then
      match ← content.toFields? ["term", "granted"] with
      | [term, granted] => return vote (← term.toWord?) (← granted.toBool?)
      | _ => none
    else if name = "LeaderHeartbeat" then
      match ← content.toFields? ["term", "accepted"] with
      | [term, accepted] => return leaderHeartbeat (← term.toWord?) (← accepted.toBool?)
      | _ => none
    else
      none

end Response

namespace Message

def toJson : Message → Json
  | request sent => ofVariant "Request" sent.toJson
  | response sent => ofVariant "Response" sent.toJson

def ofJson? (json : Json) : Option Message := do
  let (name, content) ← json.toVariant?
  let content ← content
  if name = "Request" then
    return request (← Request.ofJson? content)
  else if name = "Response" then
    return response (← Response.ofJson? content)
  else
    none

/-- Write a message. -/
def encode (message : Message) : List Char := message.toJson.render

/-- Read a message. -/
def decode? (text : List Char) : Option Message := do ofJson? (← Json.parse text)

end Message

def Request.encode (sent : Request) : List Char := sent.toJson.render

def Request.decode? (text : List Char) : Option Request := do ofJson? (← Json.parse text)

def Response.encode (sent : Response) : List Char := sent.toJson.render

def Response.decode? (text : List Char) : Option Response := do ofJson? (← Json.parse text)

end Quorum

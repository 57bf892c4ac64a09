import Quorum.Message.Codec
import Quorum.Proofs.Json.Reading

/-!
# Messages that are written and read

A message is read back from its text as it was, if its numbers are words.  The text is cut and read
by `Json.parse_render`; what is left to see is that every variant is recognized by the name and the
fields it is written with, and that requests and responses, whose variants have the same names, are
told apart.
-/

namespace Quorum

/-- The numbers of a request are words. -/
def Request.Worded : Request → Prop
  | heartbeat _ => True
  | vote term lastLogTerm lastLogIndex =>
      term < Word.limit ∧ lastLogTerm < Word.limit ∧ lastLogIndex < Word.limit
  | leaderHeartbeat term _ => term < Word.limit

/-- The numbers of a response are words. -/
def Response.Worded : Response → Prop
  | heartbeat => True
  | vote term _ => term < Word.limit
  | leaderHeartbeat term _ => term < Word.limit

/-- The numbers of a message are words. -/
def Message.Worded : Message → Prop
  | request sent => sent.Worded
  | response sent => sent.Worded

namespace Json

theorem toWord?_number {value : Nat} (word : value < Word.limit) :
    (number value).toWord? = some value :=
  if_pos word

end Json

namespace Request

variable {sent : Request}

theorem asWritten_toJson : sent.toJson.asWritten = sent.toJson := by
  cases sent <;> rfl

theorem ofJson?_toJson (worded : sent.Worded) : ofJson? sent.toJson = some sent := by
  cases sent with
  | heartbeat id => rfl
  | vote term lastLogTerm lastLogIndex =>
      obtain ⟨term_word, log_term_word, log_index_word⟩ := worded
      have read : ofJson? (vote term lastLogTerm lastLogIndex).toJson = (do
          return vote (← (Json.number term).toWord?) (← (Json.number lastLogTerm).toWord?)
            (← (Json.number lastLogIndex).toWord?)) := rfl
      rw [read, Json.toWord?_number term_word, Json.toWord?_number log_term_word,
        Json.toWord?_number log_index_word]
      rfl
  | leaderHeartbeat term id =>
      have read : ofJson? (leaderHeartbeat term id).toJson = (do
          return leaderHeartbeat (← (Json.number term).toWord?) id) := rfl
      rw [read, Json.toWord?_number worded]
      rfl

end Request

namespace Response

variable {sent : Response}

theorem asWritten_toJson : sent.toJson.asWritten = sent.toJson := by
  cases sent <;> rfl

theorem ofJson?_toJson (worded : sent.Worded) : ofJson? sent.toJson = some sent := by
  cases sent with
  | heartbeat => rfl
  | vote term granted =>
      have read : ofJson? (vote term granted).toJson = (do
          return vote (← (Json.number term).toWord?) granted) := rfl
      rw [read, Json.toWord?_number worded]
      rfl
  | leaderHeartbeat term accepted =>
      have read : ofJson? (leaderHeartbeat term accepted).toJson = (do
          return leaderHeartbeat (← (Json.number term).toWord?) accepted) := rfl
      rw [read, Json.toWord?_number worded]
      rfl

end Response

namespace Message

variable {message : Message}

theorem asWritten_toJson : message.toJson.asWritten = message.toJson := by
  cases message with
  | request sent => cases sent <;> rfl
  | response sent => cases sent <;> rfl

theorem ofJson?_toJson (worded : message.Worded) : ofJson? message.toJson = some message := by
  cases message with
  | request sent =>
      have read : ofJson? (request sent).toJson = (do
          return request (← Request.ofJson? sent.toJson)) := rfl
      rw [read, Request.ofJson?_toJson worded]
      rfl
  | response sent =>
      have read : ofJson? (response sent).toJson = (do
          return response (← Response.ofJson? sent.toJson)) := rfl
      rw [read, Response.ofJson?_toJson worded]
      rfl

/-- Whatever is said is understood: a message, a bare request and a bare response are read back from
their texts as they were. -/
theorem decode?_encode :
    (∀ message : Message, message.Worded → decode? message.encode = some message) ∧
      (∀ sent : Request, sent.Worded → Request.decode? sent.encode = some sent) ∧
        ∀ sent : Response, sent.Worded → Response.decode? sent.encode = some sent := by
  refine ⟨fun message worded => ?_, fun sent worded => ?_, fun sent worded => ?_⟩
  · unfold decode? encode
    rw [Json.parse_render, asWritten_toJson]
    exact ofJson?_toJson worded
  · unfold Request.decode? Request.encode
    rw [Json.parse_render, Request.asWritten_toJson]
    exact Request.ofJson?_toJson worded
  · unfold Response.decode? Response.encode
    rw [Json.parse_render, Response.asWritten_toJson]
    exact Response.ofJson?_toJson worded

/-- Quotes, backslashes, control characters and characters beyond the first plane are no obstacle,
and neither is the largest word. -/
theorem decode?_encode_escapes :
    (request (.heartbeat "\"\\\x00\x1f\t😀")).Worded ∧
      (Request.leaderHeartbeat 18446744073709551615 "é\n").Worded ∧
        (Response.vote 18446744073709551615 true).Worded ∧
          decode? (request (.heartbeat "\"\\\x00\x1f\t😀")).encode =
              some (request (.heartbeat "\"\\\x00\x1f\t😀")) ∧
            Request.decode? (Request.leaderHeartbeat 18446744073709551615 "é\n").encode =
                some (.leaderHeartbeat 18446744073709551615 "é\n") ∧
              Response.decode? (Response.vote 18446744073709551615 true).encode =
                some (.vote 18446744073709551615 true) := by
  have largest : 18446744073709551615 < Word.limit := by decide
  exact ⟨trivial, largest, largest, decode?_encode.1 _ trivial, decode?_encode.2.1 _ largest,
    decode?_encode.2.2 _ largest⟩

end Message

end Quorum

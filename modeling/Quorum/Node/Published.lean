import Quorum.Json.Value
import Quorum.Node.Core

/-!
# What a node shows of itself

The ledger of a member, the news about its peers and the status of a node as JSON values.
-/

namespace Quorum

namespace Json

def ofNats (values : List Nat) : Json := .array (values.map .number)

def ofTexts (texts : List String) : Json := .array (texts.map .string)

/-- A value that may be missing; null stands for none. -/
def ofOption {α : Type} (encode : α → Json) : Option α → Json
  | none => .null
  | some value => encode value

end Json

def Ledger.toJson (ledger : Ledger) : Json := .object [
  ("current_term", .number ledger.currentTerm),
  ("voted_for", .ofOption .string ledger.votedFor),
  ("leader_id", .ofOption .string ledger.leaderId),
  ("last_log_term", .number ledger.lastLogTerm),
  ("last_log_index", .number ledger.lastLogIndex),
  ("last_committed_term", .number ledger.lastCommittedTerm),
  ("last_committed_index", .number ledger.lastCommittedIndex),
  ("last_applied_index", .number ledger.lastAppliedIndex),
  ("membership_size", .number ledger.membershipSize)]

def PeerEvent.toJson : PeerEvent → Json
  | connected id => .object [("Connected", .string id)]
  | disconnected id => .object [("Disconnected", .string id)]

/-- The fields of a status, apart from the time of the last change of role. -/
def Status.toFields (status : Status) : List (String × Json) := [
  ("node_id", .string status.id),
  ("role", .string status.role.name),
  ("term", .number status.term),
  ("voted_for", .ofOption .string status.votedFor),
  ("leader_id", .ofOption .string status.leaderId),
  ("connected_peers", .ofTexts status.connectedPeers)]

end Quorum

import Quorum.Main
import Quorum.Message.Codec
import Quorum.Node.Host
import Quorum.Timing.Actions
import Quorum.Proofs.Handlers
import Quorum.Proofs.Election.Conduct
import Quorum.Proofs.Election.Assembly
import Quorum.Proofs.Election.Ballots
import Quorum.Proofs.Election.Reigns
import Quorum.Proofs.Timing.Agenda
import Quorum.Proofs.Timing.Ring
import Quorum.Proofs.Timing.Tiers
import Quorum.Proofs.Timing.Calls
import Quorum.Proofs.Timing.Deadlines
import Quorum.Proofs.Timing.Holdings
import Quorum.Proofs.Election.Clockwork
import Quorum.Proofs.Election.Winding
import Quorum.Proofs.Election.Vigil
import Quorum.Proofs.Peers.Closings
import Quorum.Proofs.Peers.Pursuit
import Quorum.Proofs.Node.Silence
import Quorum.Proofs.Election.Career
import Quorum.Proofs.Election.Mandate
import Quorum.Proofs.Node.Tidings
import Quorum.Proofs.Node.Capacity
import Quorum.Proofs.Timing.Truthful
import Quorum.Proofs.Timing.Promptness
import Quorum.Proofs.Timing.Series
import Quorum.Proofs.Timing.Watchdog
import Quorum.Proofs.Peers.Attachment
import Quorum.Proofs.Node.Attendance
import Quorum.Proofs.Node.Severity
import Quorum.Proofs.Node.Presidency
import Quorum.Proofs.Election.Accounts
import Quorum.Proofs.Peers.Contacts
import Quorum.Proofs.Peers.Dealings
import Quorum.Proofs.Network.Parties
import Quorum.Proofs.Network.Mailboxes
import Quorum.Proofs.Network.Carrying
import Quorum.Proofs.Network.Connections
import Quorum.Proofs.Network.Ends
import Quorum.Proofs.Network.Reliability
import Quorum.Proofs.Json.Reading
import Quorum.Proofs.Message.RoundTrip
import Quorum.Proofs.Election.CatchingUp
import Quorum.Proofs.Node.Credentials
import Quorum.Proofs.Election.Positions
import Quorum.Proofs.Timing.Headroom
import Quorum.Proofs.Timing.Truncation
import Quorum.Proofs.Regimes
import Quorum.Proofs.Node.Endurance
import Quorum.Proofs.Timing.Lockstep
import Quorum.Proofs.Timing.Waking
import Quorum.Proofs.Peers.Registering
import Quorum.Proofs.Election.Custody
import Quorum.Proofs.Election.Answers
import Quorum.Proofs.Peers.Dialling
import Quorum.Proofs.Network.Pairs
import Quorum.Proofs.Node.Release
import Quorum.Proofs.Node.Extremes
import Quorum.Proofs.Timing.Entries
import Quorum.Proofs.Timing.Rounds
import Quorum.Proofs.Timing.Orbit

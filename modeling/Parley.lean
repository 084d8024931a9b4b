import Parley.Main
import Parley.Proofs.Link.Agreement
import Parley.Proofs.Link.Evidence
import Parley.Proofs.Link.Lossless
import Parley.Proofs.Link.Path
import Parley.Proofs.Signal.RoundTrip
import Parley.Proofs.Link.Conversation
import Parley.Proofs.Link.CheckList.Form
import Parley.Proofs.Link.Pairing
import Parley.Proofs.Link.CheckList.Refusal
import Parley.Proofs.Link.Withdrawal
import Parley.Proofs.Link.Acceptance
import Parley.Proofs.Link.CheckList.Rounds
import Parley.Proofs.Lobby.Numbering
import Parley.Proofs.Pool.Replacement
import Parley.Proofs.Link.Inbox
import Parley.Proofs.Session.Coverage
import Parley.Proofs.Link.Keepalive.Loss
import Parley.Proofs.Link.Dormancy
import Parley.Proofs.Link.Echo
import Parley.Proofs.Link.Pace
import Parley.Proofs.Session.Advertising
import Parley.Proofs.Signal.Closing
import Parley.Proofs.Signal.Receiving
import Parley.Proofs.Link.Demultiplexing
import Parley.Proofs.Lobby.Ad
import Parley.Proofs.Signal.Undashed
import Parley.Proofs.Link.Wording
import Parley.Proofs.Session.Sending
import Parley.Proofs.Session.Framing
import Parley.Proofs.Pool.Role
import Parley.Proofs.Pool.Own
import Parley.Proofs.Session.Refusal
import Parley.Proofs.Link.CheckList.Retransmission
import Parley.Proofs.Link.CheckList.Trickle
import Parley.Proofs.Link.Rejection
import Parley.Proofs.Link.Stun
import Parley.Proofs.PeerId.List
import Parley.Proofs.Link.Priority
import Parley.Proofs.Settings
import Parley.Proofs.Link.CheckList.Freezing

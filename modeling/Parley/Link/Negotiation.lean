import Parley.Link.Candidate
import Parley.Signal.Message
/-!
What two agents tell each other through the server.

Each side has one session for one negotiation. It describes its candidates once, adds what it
learns later one by one, and says when there will be no more. Every payload names the session, so
that what belongs to an older one is recognised.
-/
namespace Parley

/-- A session and its first candidates. -/
structure Description where
  session : UInt64
  candidates : List Candidate
  deriving DecidableEq

/-- One more candidate of a session. -/
structure CandidateNotice where
  session : UInt64
  candidate : Candidate
  deriving DecidableEq

/-- The end of a session's candidates. -/
structure GatheringDone where
  session : UInt64
  deriving DecidableEq

/-- Why a negotiation message was not taken. -/
inductive NegotiationError where
  /-- Its payload is no record of its kind. -/
  | malformed (kind : MessageKind)
  /-- Its kind has nothing to do with negotiations. -/
  | notNegotiation (kind : MessageKind)
  /-- It belongs to a session that is over. -/
  | staleSession (session : UInt64)
  deriving DecidableEq

/-- The wording of an error; a malformed payload is reported by its kind alone. -/
def NegotiationError.message? : NegotiationError → Option String
  | .malformed _ => none
  | .notNegotiation kind => some (kind.name ++ " is not a negotiation message")
  | .staleSession session => some s!"payload for stale session {session.toNat}"

/-- The session that a document names. -/
def sessionOfRaw? (raw : Json.Raw) : Option UInt64 :=
  (raw.nat? 18446744073709551616).map UInt64.ofNat

/-- A session as a member of a record. -/
def sessionMember (session : UInt64) : String × Json := ("session_id", .number session.toNat)

/-- The document of a text. -/
def documentOf? (s : String) : Option Json.Raw := Json.Raw.ofBytes? (Text.octets s)

namespace Description

/-- The payload of a description. -/
def payload (d : Description) : String :=
  (Json.object [sessionMember d.session, ("candidates", .array (d.candidates.map (·.json)))]).text

/-- The description of a payload. -/
def ofPayload? (s : String) : Option Description := do
  let raw ← documentOf? s
  match ← raw.record? ["session_id", "candidates"] with
  | [some session, some candidates] =>
    return ⟨← sessionOfRaw? session, ← candidates.list? Candidate.ofRaw?⟩
  | _ => none

end Description

namespace CandidateNotice

/-- The payload of a notice. -/
def payload (n : CandidateNotice) : String :=
  (Json.object [sessionMember n.session, ("candidate", n.candidate.json)]).text

/-- The notice of a payload. -/
def ofPayload? (s : String) : Option CandidateNotice := do
  let raw ← documentOf? s
  match ← raw.record? ["session_id", "candidate"] with
  | [some session, some candidate] =>
    return ⟨← sessionOfRaw? session, ← Candidate.ofRaw? candidate⟩
  | _ => none

end CandidateNotice

namespace GatheringDone

/-- The payload of the end of a gathering. -/
def payload (g : GatheringDone) : String := (Json.object [sessionMember g.session]).text

/-- The end of a gathering of a payload. -/
def ofPayload? (s : String) : Option GatheringDone := do
  let raw ← documentOf? s
  match ← raw.record? ["session_id"] with
  | [some session] => return ⟨← sessionOfRaw? session⟩
  | _ => none

end GatheringDone
end Parley

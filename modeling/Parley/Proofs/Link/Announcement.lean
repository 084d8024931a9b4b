import Parley.Proofs.Link.Dormancy
import Parley.Proofs.Link.Introduction
import Parley.Proofs.Link.Knowledge
/-!
All that an agent tells its peer, and that the peer takes it.

An agent describes itself when it starts, may add one candidate that the STUN server has told it of,
and says that there will be no more; it may come to its end before it has said all of this, but it
says nothing else (`Announced`). Whoever has not known the session takes every letter of it,
whatever else happens in between, and knows afterwards what has been told (`Briefed`).
-/
namespace Parley

/-- What an agent tells its peer. -/
inductive Letter where
  | description (candidates : List Candidate)
  | candidate (c : Candidate)
  | gatheringDone

namespace Letter

def kind : Letter → MessageKind
  | description _ => .agentLocalDescription
  | candidate _ => .agentCandidate
  | gatheringDone => .agentGatheringDone

/-- What it says, of the session of its sender. -/
def payload (session : UInt64) : Letter → String
  | description candidates => Description.payload ⟨session, candidates⟩
  | candidate c => CandidateNotice.payload ⟨session, c⟩
  | gatheringDone => GatheringDone.payload ⟨session⟩

/-- The letter on its way to the peer. -/
def message (peer : PeerId) (session : UInt64) (l : Letter) : Message :=
  ⟨peer, l.kind, l.payload session⟩

/-- The candidates that it tells of. -/
def candidates : Letter → List Candidate
  | description candidates => candidates
  | candidate c => [c]
  | gatheringDone => []

/-- What ends a gathering: perhaps one more candidate, and the word that there will be no more. -/
def closing (extra : Option Candidate) : List Letter :=
  extra.toList.map candidate ++ [gatheringDone]

/-- All that there is to tell: the first candidates, and what ends the gathering. -/
def series (hosts : List Candidate) (extra : Option Candidate) : List Letter :=
  description hosts :: closing extra

end Letter

namespace Agent

/-- What an event makes the agent post. -/
def told (a : Agent) (e : Event) : List Message := (a.step e).signals.drop a.signals.length

/-- All that a run makes the agent post, in order. -/
def correspondence (a : Agent) : List Event → List Message
  | [] => []
  | e :: es => a.told e ++ (a.step e).correspondence es

theorem correspondence_concat (a : Agent) (es : List Event) (e : Event) :
    a.correspondence (es ++ [e]) = a.correspondence es ++ (a.run es).told e := by
  induction es generalizing a with
  | nil => simp [correspondence]
  | cons f es ih =>
    rw [List.cons_append, correspondence, correspondence, ih, List.append_assoc]
    rfl

theorem told_of_signals {a : Agent} {e : Event} {ms : List Message}
    (h : (a.step e).signals = a.signals ++ ms) : a.told e = ms := by rw [told, h, List.drop_left]

/-! ### What an agent tells -/

/-- From `a` to `c` an agent leaves its gathering as it is, or ends it with one more candidate at
most, that of an address which the STUN server has told it of, and tells so. -/
inductive Gathers (a c : Agent) : List Letter → Prop where
  | still : c.ours = a.ours → c.gathered = a.gathered → c.signals = a.signals → Gathers a c []
  | ends (extra : Option Candidate) : a.query ≠ none →
      (∀ added ∈ extra, ∃ mapped, a.reflexiveCandidate mapped = some added) →
      c.gathered = true → c.ours = a.ours ++ extra.toList →
      c.signals = a.signals ++ (Letter.closing extra).map (Letter.message a.peer a.session) →
      Gathers a c (Letter.closing extra)

theorem Listens.gathers {a c : Agent} (h : Listens a c) : Gathers a c [] :=
  .still h.ours h.gathered h.signals

theorem Gathers.then {a b c : Agent} {ls : List Letter} (h : Gathers a b ls)
    (hours : c.ours = b.ours) (hgathered : c.gathered = b.gathered)
    (hsignals : c.signals = b.signals) : Gathers a c ls := by
  cases h with
  | still ours gathered signals =>
    exact .still (hours.trans ours) (hgathered.trans gathered) (hsignals.trans signals)
  | ends extra asked mapped gathered ours signals =>
    exact .ends extra asked mapped (hgathered.trans gathered) (hours.trans ours)
      (hsignals.trans signals)

theorem updateState_gathered (a : Agent) (now : Nat) (id : TransactionId) :
    (a.updateState now id).gathered = a.gathered := by
  have follows := updateState_follows a now id
  generalize a.updateState now id = b at follows ⊢
  cases follows with
  | connects => exact (settle_inquiry _ now id).2.trans (selectBest_inquiry _ now).2
  | settles => exact (settle_inquiry _ now id).2.trans (a.selectBest_inquiry now).2
  | exhausts | searches | collapses | rests => rfl

theorem Gathers.updateState {a b : Agent} {ls : List Letter} (h : Gathers a b ls) (now : Nat)
    (id : TransactionId) : Gathers a (b.updateState now id) ls :=
  h.then (b.updateState_keeps now id).ours (b.updateState_gathered now id)
    (b.updateState_signals now id)

section Gathering
variable {a : Agent} (gathering : a.query ≠ none → a.gathered = false)
include gathering

theorem finishGathering_gathers (asked : a.query ≠ none) :
    Gathers a a.finishGathering (Letter.closing none) := by
  rw [finishGathering, gathering asked, if_neg (by simp)]
  exact .ends none asked (fun _ added => absurd added (Option.not_mem_none _)) rfl
    (by simp [signal]) rfl

theorem handleStun_gathers (octets : Bytes) : ∃ ls, Gathers a (a.handleStun octets) ls := by
  unfold handleStun
  split
  · exact ⟨_, .still rfl rfl rfl⟩
  · rename_i query hquery
    have asked : a.query ≠ none := by simp [hquery]
    split
    · exact ⟨_, .still rfl rfl rfl⟩
    · rename_i mapped _
      cases found : a.reflexiveCandidate mapped with
      | none => exact ⟨_, finishGathering_gathers gathering asked⟩
      | some c =>
        have told : ∀ added ∈ some c, ∃ mapped, a.reflexiveCandidate mapped = some added :=
          fun _ hadded => ⟨mapped, found.trans hadded⟩
        refine ⟨_, .ends (some c) asked told ?_ ?_ ?_⟩ <;>
          simp [finishGathering, addOurs, signal, gathering asked, Letter.closing, Letter.message,
            Letter.kind, Letter.payload]

theorem tickQuery_gathers (now : Nat) : ∃ ls, Gathers a (a.tickQuery now) ls := by
  unfold tickQuery
  split
  · exact ⟨_, .still rfl rfl rfl⟩
  · rename_i query hquery
    split
    · exact ⟨_, finishGathering_gathers gathering (by simp [hquery])⟩
    · split <;> exact ⟨_, .still rfl rfl rfl⟩

theorem handleDatagram_gathers (source : SocketAddress) (octets : Bytes) (now : Nat) :
    ∃ ls, Gathers a (a.handleDatagram source octets now).1 ls := by
  unfold handleDatagram
  split
  · exact handleStun_gathers gathering octets
  · exact ⟨_, (a.handleBinding_listens ..).gathers⟩
  · exact ⟨_, (a.handleKeepalive_listens ..).gathers⟩
  · split <;> exact ⟨_, .still rfl rfl rfl⟩
  · exact ⟨_, .still rfl rfl rfl⟩

/-- Every event but a start leaves the gathering as it is or ends it. -/
theorem step_gathers {e : Event} (other : e.isStart = false) (kept : e ≠ .takeSignals) :
    ∃ ls, Gathers a (a.step e) ls := by
  cases e with
  | start => cases other
  | signal kind data now id =>
    rcases a.applySignal_cases kind data now id with ⟨b, received, applied⟩ | ⟨_, -, applied⟩
    · simp only [step, applied]
      have listens := received.listens
      exact ⟨_, (Gathers.still (a := a) listens.ours listens.gathered listens.signals).updateState
        now id⟩
    · simp only [step, applied]
      exact ⟨_, .still rfl rfl rfl⟩
  | datagram source octets now id =>
    obtain ⟨ls, gathers⟩ := handleDatagram_gathers gathering source octets now
    exact ⟨ls, gathers.updateState now id⟩
  | tick now checkId id =>
    obtain ⟨ls, gathers⟩ := tickQuery_gathers gathering now
    have listens := (tickChecks_listens (a.tickQuery now) now checkId).trans
      (tickKeepalive_listens _ now)
    exact ⟨ls, (gathers.then listens.ours listens.gathered listens.signals).updateState now id⟩
  | setControlling controlling =>
    refine ⟨[], ?_⟩
    simp only [step, setControlling]
    split <;> exact .still rfl rfl rfl
  | touch | takeDatagrams => exact ⟨_, .still rfl rfl rfl⟩
  | takeSignals => exact absurd rfl kept

end Gathering

/-- How far an agent has told its peer all that there is to tell. -/
inductive Announced (a : Agent) : List Letter → Prop where
  | silent : a.state = .new → Announced a []
  | described : a.state ≠ .new → a.gathered = false → Announced a [.description a.ours]
  | finished {hosts extra} : a.state ≠ .new → a.gathered = true → a.ours = hosts ++ extra.toList →
      Announced a (Letter.series hosts extra)

theorem start_ours {a : Agent} (fresh : a.state = .new) (now : Nat)
    (addresses : List SocketAddress) (includeLoopback : Bool) (stunServer : Option SocketAddress)
    (id : TransactionId) : (a.start now addresses includeLoopback stunServer id).ours =
      Candidate.gather addresses includeLoopback := by
  unfold start
  rw [if_pos fresh]
  cases stunServer with
  | none => exact (finishGathering_keeps _).ours
  | some server => rfl

theorem start_announces {a : Agent} (ha : a.Inquires) (fresh : a.state = .new) (now : Nat)
    (addresses : List SocketAddress) (includeLoopback : Bool) (stunServer : Option SocketAddress)
    (id : TransactionId) : ∃ ls,
      a.told (.start now addresses includeLoopback stunServer id) =
        ls.map (Letter.message a.peer a.session) ∧
      Announced (a.start now addresses includeLoopback stunServer id) ls := by
  have started := (start_learns fresh now addresses includeLoopback stunServer id).state
  have ungathered := (ha.fresh fresh).2
  cases stunServer with
  | none =>
    refine ⟨Letter.series (Candidate.gather addresses includeLoopback) none, told_of_signals ?_,
      .finished (by simp [started]) ?_ ?_⟩ <;>
      simp [step, start, fresh, finishGathering, ungathered, signal, Letter.series, Letter.closing,
        Letter.message, Letter.kind, Letter.payload]
  | some server =>
    have ours := start_ours fresh now addresses includeLoopback (some server) id
    refine ⟨[.description (Candidate.gather addresses includeLoopback)], told_of_signals ?_, ?_⟩
    · simp [step, start, fresh, queue, signal, Letter.message, Letter.kind, Letter.payload]
    · rw [← ours]
      exact .described (by simp [started]) (by simp [start, fresh, queue, signal, ungathered])

theorem Announced.congr {a b : Agent} {ls : List Letter} (h : Announced a ls)
    (hstate : b.state = .new ↔ a.state = .new) (hgathered : b.gathered = a.gathered)
    (hours : b.ours = a.ours) : Announced b ls := by
  cases h with
  | silent fresh => exact .silent (hstate.2 fresh)
  | described started gathering =>
    rw [← hours]
    exact .described (hstate.not.2 started) (hgathered.trans gathering)
  | finished started gathered ours =>
    exact .finished (hstate.not.2 started) (hgathered.trans gathered) (hours.trans ours)

/-- Only a start begins a negotiation. -/
theorem new_step_iff {a : Agent} (ha : a.Grounded) {e : Event} (other : e.isStart = false) :
    (a.step e).state = .new ↔ a.state = .new := by
  refine ⟨new_of_step ha, fun fresh => ?_⟩
  obtain ⟨-, moved, starts⟩ := step_moves ha e
  rw [fresh, AgentState.successors, List.mem_pair] at moved
  refine moved.resolve_right fun started => ?_
  obtain ⟨_, _, _, _, _, rfl⟩ := starts fresh started
  cases other

/-- **An event tells what comes next of all that there is to tell**, or nothing. -/
theorem step_announces {a : Agent} (ha : a.Reachable) {ls : List Letter} (h : Announced a ls)
    (e : Event) : ∃ ms, a.told e = ms.map (Letter.message a.peer a.session) ∧
      Announced (a.step e) (ls ++ ms) := by
  cases hstart : e.isStart with
  | true =>
    cases e with
    | start now addresses includeLoopback stunServer id =>
      by_cases fresh : a.state = .new
      · obtain ⟨ms, told, announced⟩ :=
          start_announces ha.inquires fresh now addresses includeLoopback stunServer id
        cases h with
        | silent => exact ⟨ms, told, announced⟩
        | described started | finished started => exact absurd fresh started
      · have rests : a.step (.start now addresses includeLoopback stunServer id) = a := by
          simp only [step, start, if_neg fresh]
        refine ⟨[], ?_, ?_⟩
        · rw [told, rests, List.drop_length, List.map_nil]
        · rwa [rests, List.append_nil]
    | _ => cases hstart
  | false =>
    have onward := new_step_iff ha.grounded hstart
    by_cases taken : e = .takeSignals
    · subst taken
      refine ⟨[], List.drop_nil, ?_⟩
      rw [List.append_nil]
      exact h.congr onward rfl rfl
    · obtain ⟨ms, gathers⟩ := step_gathers ha.inquires.gathering hstart taken
      cases gathers with
      | still ours gathered signals =>
        refine ⟨[], told_of_signals (by simpa using signals), ?_⟩
        rw [List.append_nil]
        exact h.congr onward gathered ours
      | ends extra asked _ gathered ours signals =>
        refine ⟨_, told_of_signals signals, ?_⟩
        have gathering := ha.inquires.gathering asked
        cases h with
        | silent fresh => exact absurd (ha.inquires.fresh fresh).1 asked
        | described started => exact .finished (onward.not.2 started) gathered ours
        | finished _ gathered => cases gathering.symm.trans gathered

theorem run_announces (peer : PeerId) (controlling : Bool) (session : UInt64) (created : Nat)
    (es : List Event) : ∃ ls, (new peer controlling session created).correspondence es =
        ls.map (Letter.message peer session) ∧
      Announced ((new peer controlling session created).run es) ls := by
  induction es using List.reverseRecOn with
  | nil => exact ⟨[], rfl, .silent rfl⟩
  | append_singleton es e ih =>
    obtain ⟨ls, correspondence, announced⟩ := ih
    obtain ⟨ms, told, announced⟩ := step_announces ⟨_, _, _, _, _, rfl⟩ announced e
    obtain ⟨hpeer, hsession⟩ := run_identity (new peer controlling session created) es
    refine ⟨ls ++ ms, ?_, run_concat _ es e ▸ announced⟩
    rw [correspondence_concat, correspondence, told, hpeer, hsession, List.map_append]
    rfl

theorem Announced.prefix_series {a : Agent} {ls : List Letter} (h : Announced a ls) :
    ∃ hosts extra, ls <+: Letter.series hosts extra := by
  cases h with
  | silent => exact ⟨[], none, List.nil_prefix⟩
  | described => exact ⟨a.ours, none, List.prefix_append [_] _⟩
  | finished => exact ⟨_, _, List.prefix_refl _⟩

/-- The candidates of an agent are those that it has told of. -/
theorem Announced.ours {a : Agent} (ha : a.Blank) {ls : List Letter} (h : Announced a ls) :
    a.ours = ls.flatMap Letter.candidates := by
  cases h with
  | silent fresh => exact (ha fresh).1
  | described => simp [Letter.candidates]
  | @finished _ extra _ _ ours =>
    rw [ours]
    cases extra <;> simp [Letter.series, Letter.closing, Letter.candidates]

/-! ### What its peer takes -/

/-- What an agent is handed from the server. -/
def Event.heard : Event → Option (MessageKind × String)
  | .signal kind data _ _ => some (kind, data)
  | _ => none

/-- Two states of an agent of which the second one knows of the peer what the first one does, and
perhaps more addresses. -/
structure Recalls (a b : Agent) : Prop where
  remoteSession : b.remoteSession = a.remoteSession
  remoteGathered : b.remoteGathered = a.remoteGathered
  theirs : a.theirs ⊆ b.theirs

theorem Recalls.refl (a : Agent) : Recalls a a := ⟨rfl, rfl, fun _ h => h⟩

theorem Recalls.trans {a b c : Agent} (h : Recalls a b) (h' : Recalls b c) : Recalls a c :=
  ⟨h'.remoteSession.trans h.remoteSession, h'.remoteGathered.trans h.remoteGathered,
    fun _ hc => h'.theirs (h.theirs hc)⟩

theorem Keeps.recalls {a b : Agent} (h : Keeps a b) : Recalls a b :=
  ⟨h.remoteSession, h.remoteGathered, fun _ hc => h.theirs ▸ hc⟩

theorem addTheirs_recalls (a : Agent) (c : Candidate) : Recalls a (a.addTheirs c) := by
  refine ⟨?_, ?_, (a.addTheirs_learns c).theirs⟩ <;>
  · unfold addTheirs
    split
    · rfl
    · simp only
      split <;> rfl

theorem foldl_addTheirs_recalls (cs : List Candidate) (a : Agent) :
    Recalls a (cs.foldl addTheirs a) := by
  induction cs generalizing a with
  | nil => exact .refl a
  | cons c cs ih => exact (a.addTheirs_recalls c).trans (ih _)

theorem start_recalls (a : Agent) (now : Nat) (addresses : List SocketAddress)
    (includeLoopback : Bool) (stunServer : Option SocketAddress) (id : TransactionId) :
    Recalls a (a.start now addresses includeLoopback stunServer id) := by
  unfold start
  split
  · cases stunServer with
    | some server => exact ⟨rfl, rfl, fun _ h => h⟩
    | none =>
      have finish := finishGathering_keeps ({ a with
        state := .checking
        startedAt := some now
        ours := Candidate.gather addresses includeLoopback
        checks := a.checks.start now }.signal .agentLocalDescription
          (Description.payload ⟨a.session, Candidate.gather addresses includeLoopback⟩))
      exact ⟨finish.remoteSession, finish.remoteGathered, finish.recalls.theirs⟩
  · exact .refl a

theorem handleStun_recalls (a : Agent) (octets : Bytes) : Recalls a (a.handleStun octets) := by
  unfold handleStun
  split
  · exact .refl a
  · split
    · exact .refl a
    · rename_i mapped _
      cases a.reflexiveCandidate mapped with
      | none => exact a.finishGathering_keeps.recalls
      | some c =>
        have added : Recalls a (a.addOurs c) := ⟨rfl, rfl, fun _ h => h⟩
        exact added.trans (finishGathering_keeps _).recalls

theorem handleDatagram_recalls (a : Agent) (source : SocketAddress) (octets : Bytes) (now : Nat) :
    Recalls a (a.handleDatagram source octets now).1 := by
  have learns := a.handleDatagram_learns source octets now
  refine ⟨?_, ?_, learns.theirs⟩ <;>
  · unfold handleDatagram
    split
    · first
        | exact (a.handleStun_recalls octets).remoteSession
        | exact (a.handleStun_recalls octets).remoteGathered
    · unfold handleBinding handleRequest learnTheirs answerCheck
      simp only
      repeat' split
      all_goals rfl
    · unfold handleKeepalive
      split <;> rfl
    · split <;> rfl
    · rfl

/-- What an agent knows of its peer's session it has been handed from the server. -/
theorem step_recalls (a : Agent) {e : Event} (h : e.heard = none) : Recalls a (a.step e) := by
  cases e with
  | start => exact a.start_recalls ..
  | signal => cases h
  | datagram source octets now id =>
    exact (a.handleDatagram_recalls source octets now).trans (updateState_keeps _ now id).recalls
  | tick now checkId id => exact (a.tick_keeps now checkId id).recalls
  | setControlling controlling =>
    simp only [step, setControlling]
    split <;> exact ⟨rfl, rfl, fun _ h => h⟩
  | touch | takeDatagrams | takeSignals => exact ⟨rfl, rfl, fun _ h => h⟩

/-- An agent that has been told some letters of a session, and knows what they say. Addresses have
lost their flow information on the way, which their text has no room for. -/
structure Briefed (b : Agent) (session : UInt64) (ls : List Letter) : Prop where
  session : b.remoteSession = some session
  candidates : ∀ c ∈ ls.flatMap Letter.candidates,
    ∃ d ∈ b.theirs, d.address = c.address.withoutFlow
  gathered : b.remoteGathered = true ↔ .gatheringDone ∈ ls

theorem Briefed.recalls {b c : Agent} {session : UInt64} {ls : List Letter}
    (h : Briefed b session ls) (recalls : Recalls b c) : Briefed c session ls where
  session := recalls.remoteSession.trans h.session
  candidates := fun near hnear =>
    have ⟨d, hd, haddress⟩ := h.candidates near hnear
    ⟨d, recalls.theirs hd, haddress⟩
  gathered := recalls.remoteGathered ▸ h.gathered

theorem addTheirs_knows (a : Agent) (c : Candidate) :
    ∃ d ∈ (a.addTheirs c).theirs, d.address = c.address := by
  unfold addTheirs
  split
  · rename_i known
    obtain ⟨d, hd, haddress⟩ := List.any_eq_true.1 known
    exact ⟨d, hd, by simpa using haddress⟩
  · simp only
    split <;> exact ⟨c, by simp, rfl⟩

theorem foldl_addTheirs_knows {cs : List Candidate} (a : Agent) {c : Candidate} (h : c ∈ cs) :
    ∃ d ∈ (cs.foldl addTheirs a).theirs, d.address = c.address := by
  induction cs generalizing a with
  | nil => cases h
  | cons first cs ih =>
    rcases List.mem_cons.1 h with rfl | h
    · obtain ⟨d, hd, haddress⟩ := a.addTheirs_knows c
      exact ⟨d, (foldl_addTheirs_recalls cs (a.addTheirs c)).theirs hd, haddress⟩
    · exact ih _ h

/-- The first letter of a session that was not known is taken. -/
theorem hear_first {b : Agent} {session : UInt64} (unknown : b.remoteSession ≠ some session)
    (cs : List Candidate) (now : Nat) (id : TransactionId) :
    (b.applySignal .agentLocalDescription (Description.payload ⟨session, cs⟩) now id).2 = none ∧
      Briefed (b.applySignal .agentLocalDescription (Description.payload ⟨session, cs⟩) now id).1
        session [.description cs] := by
  have adopted : (b.touch now).adopt session =
      { b.touch now with remoteSession := some session, remoteGathered := false } :=
    if_neg unknown
  rw [applySignal_of_received (received_description (b.touch now) ⟨session, cs⟩), adopted]
  have added := foldl_addTheirs_recalls (cs.map Candidate.withoutFlow)
    { b.touch now with remoteSession := some session, remoteGathered := false }
  refine ⟨rfl, Briefed.recalls ⟨added.remoteSession, fun c hc => ?_, ?_⟩
    (updateState_keeps _ now id).recalls⟩
  · have known : c ∈ cs := by simpa [Letter.candidates] using hc
    exact foldl_addTheirs_knows _ (List.mem_map_of_mem known)
  · rw [added.remoteGathered]
    simp

/-- Hearing of no end changes nothing about it. -/
theorem Briefed.extend {b c : Agent} {session : UInt64} {ls : List Letter}
    (h : Briefed b session ls) (recalls : Recalls b c) {l : Letter} (goes : l ≠ .gatheringDone)
    (known : ∀ near ∈ l.candidates, ∃ d ∈ c.theirs, d.address = near.address.withoutFlow) :
    Briefed c session (ls ++ [l]) := by
  have before := h.recalls recalls
  refine ⟨before.session, fun near hnear => ?_, ?_⟩
  · rw [List.flatMap_append, List.mem_append, List.flatMap_singleton] at hnear
    exact hnear.elim (before.candidates near) (known near)
  · rw [before.gathered, List.mem_append, List.mem_singleton]
    exact (or_iff_left fun ends => goes ends.symm).symm

/-- Every further letter is taken. -/
theorem Briefed.hear {b : Agent} {session : UInt64} {ls : List Letter} (h : Briefed b session ls)
    (l : Letter) (now : Nat) (id : TransactionId) :
    (b.applySignal l.kind (l.payload session) now id).2 = none ∧
      Briefed (b.applySignal l.kind (l.payload session) now id).1 session (ls ++ [l]) := by
  have touched : Recalls b (b.touch now) := ⟨rfl, rfl, fun _ h => h⟩
  have known : (b.touch now).remoteSession = some session := h.session
  cases l with
  | description cs =>
    have adopted : (b.touch now).adopt session = b.touch now := if_pos known
    rw [Letter.kind, Letter.payload,
      applySignal_of_received (received_description (b.touch now) ⟨session, cs⟩), adopted]
    refine ⟨rfl, Briefed.recalls (h.extend (touched.trans (foldl_addTheirs_recalls ..)) nofun ?_)
      (updateState_keeps _ now id).recalls⟩
    exact fun c hc => foldl_addTheirs_knows _ (List.mem_map_of_mem hc)
  | candidate c =>
    rw [Letter.kind, Letter.payload,
      applySignal_of_received (received_candidate (n := ⟨session, c⟩) known)]
    refine ⟨rfl, Briefed.recalls (h.extend (touched.trans (addTheirs_recalls ..)) nofun ?_)
      (updateState_keeps _ now id).recalls⟩
    intro near hnear
    rw [List.mem_singleton.1 hnear]
    exact addTheirs_knows _ c.withoutFlow
  | gatheringDone =>
    rw [Letter.kind, Letter.payload, applySignal_of_received (received_gatheringDone known)]
    refine ⟨rfl, Briefed.recalls (b := { b.touch now with remoteGathered := true }) ⟨known, ?_, ?_⟩
      (updateState_keeps _ now id).recalls⟩
    · intro c hc
      exact h.candidates c (by simpa [Letter.candidates] using hc)
    · simp

/-- In a run of `b` in which it is handed the letters `ls` of a session, each of them is taken, and
from the first one on `b` knows what it has been told. -/
structure Accepts (b : Agent) (session : UInt64) (fs : List Event) (ls : List Letter) : Prop where
  taken : ∀ front kind data now id, front ++ [.signal kind data now id] <+: fs →
    ((b.run front).applySignal kind data now id).2 = none
  briefed : ls ≠ [] → Briefed (b.run fs) session ls

theorem run_recalls (b : Agent) {fs : List Event} (h : fs.filterMap Event.heard = []) :
    Recalls b (b.run fs) := by
  induction fs generalizing b with
  | nil => exact .refl b
  | cons e fs ih =>
    obtain ⟨unheard, rest⟩ := List.forall_mem_cons.1 (List.filterMap_eq_nil_iff.1 h)
    exact (b.step_recalls unheard).trans (ih _ (List.filterMap_eq_nil_iff.2 rest))

section Accepts
variable {b : Agent} {session : UInt64} {fs : List Event} {ls : List Letter} {e : Event}

/-- An event that hands nothing over comes in between. -/
theorem Accepts.unheard (h : Accepts b session fs ls) (he : e.heard = none) :
    Accepts b session (fs ++ [e]) ls := by
  refine ⟨fun front kind data now id hfront => ?_, fun begun => ?_⟩
  · rcases List.prefix_concat_iff.1 hfront with whole | before
    · obtain ⟨-, rfl⟩ := List.append_singleton_inj.1 whole
      cases he
    · exact h.taken front kind data now id before
  · rw [run_concat]
    exact (h.briefed begun).recalls (step_recalls _ he)

/-- One more letter is handed over, and taken. -/
theorem Accepts.heard (h : Accepts b session fs ls) {l : Letter} {now : Nat} {id : TransactionId}
    (hears : ((b.run fs).applySignal l.kind (l.payload session) now id).2 = none ∧
      Briefed ((b.run fs).applySignal l.kind (l.payload session) now id).1 session (ls ++ [l])) :
    Accepts b session (fs ++ [.signal l.kind (l.payload session) now id]) (ls ++ [l]) := by
  refine ⟨fun front kind data now id hfront => ?_, fun _ => ?_⟩
  · rcases List.prefix_concat_iff.1 hfront with whole | before
    · obtain ⟨rfl, same⟩ := List.append_singleton_inj.1 whole
      cases same
      exact hears.1
    · exact h.taken front kind data now id before
  · rw [run_concat]
    exact hears.2

theorem run_accepts (unknown : b.remoteSession ≠ some session) {hosts : List Candidate}
    {extra : Option Candidate} (whole : ls <+: Letter.series hosts extra)
    (heard : fs.filterMap Event.heard = ls.map fun l => (l.kind, l.payload session)) :
    Accepts b session fs ls := by
  induction fs using List.reverseRecOn generalizing ls with
  | nil =>
    obtain rfl : ls = [] := List.map_eq_nil_iff.1 heard.symm
    exact ⟨fun front _ _ _ _ h => by simp at h, fun h => absurd rfl h⟩
  | append_singleton fs e ih =>
    rw [List.filterMap_append] at heard
    cases he : e.heard with
    | none =>
      rw [List.filterMap_cons_none he, List.filterMap_nil, List.append_nil] at heard
      exact (ih whole heard).unheard he
    | some m =>
      rw [List.filterMap_cons_some he, List.filterMap_nil] at heard
      obtain ⟨ls, last, rfl, before, same⟩ := List.map_eq_append_iff.1 heard.symm
      obtain ⟨l, rfl, rfl⟩ := List.map_eq_singleton_iff.1 same
      have earlier := ih ((List.prefix_append ls [l]).trans whole) before.symm
      cases e with
      | signal kind data now id =>
        cases he
        refine earlier.heard ?_
        by_cases begun : ls = []
        · subst begun
          obtain ⟨rfl, -⟩ := List.cons_prefix_cons.1 whole
          have known := (b.run_recalls before.symm).remoteSession
          exact hear_first (known ▸ unknown) hosts now id
        · exact (earlier.briefed begun).hear l now id
      | _ => cases he

end Accepts

/-- **What an agent signals, its peer accepts.** All that an agent ever posts is a front of its
description, perhaps one more candidate, and the end of its gathering, each for its peer and in its
session, and it tells of all its candidates. Whoever has not known the session is handed as much of
this as there is, in order and with anything else in between, and takes it all. -/
theorem announcement_accepted (peer : PeerId) (controlling : Bool) (session : UInt64)
    (created : Nat) (es : List Event) :
    ∃ ls, (new peer controlling session created).correspondence es =
        ls.map (Letter.message peer session) ∧
      (∃ hosts extra, ls <+: Letter.series hosts extra) ∧
      ((new peer controlling session created).run es).ours = ls.flatMap Letter.candidates ∧
      ∀ (b : Agent) (fs : List Event), b.remoteSession ≠ some session →
        fs.filterMap Event.heard <+:
          ((new peer controlling session created).correspondence es).map
            (fun m => (m.kind, m.data)) →
        Accepts b session fs (ls.take (fs.filterMap Event.heard).length) := by
  have reachable : ((new peer controlling session created).run es).Reachable := ⟨_, _, _, _, _, rfl⟩
  obtain ⟨ls, correspondence, announced⟩ := run_announces peer controlling session created es
  obtain ⟨hosts, extra, whole⟩ := announced.prefix_series
  refine ⟨ls, correspondence, ⟨hosts, extra, whole⟩, announced.ours reachable.blank, ?_⟩
  intro b fs unknown handed
  have contents : ((new peer controlling session created).correspondence es).map
      (fun m => (m.kind, m.data)) = ls.map fun l => (l.kind, l.payload session) := by
    rw [correspondence, List.map_map]
    rfl
  rw [contents, List.prefix_iff_eq_take, ← List.map_take] at handed
  exact run_accepts unknown ((List.take_prefix _ ls).trans whole) handed

/-- An agent asks a server, which tells it of its public address. Its peer is handed the three
letters, starts in between, and takes them. -/
theorem announcement_accepted_with_server :
    let peer : PeerId := ⟨List.replicate 16 0, rfl⟩
    let id : UInt8 → TransactionId := fun n => ⟨List.replicate 12 n, List.length_replicate⟩
    let near : SocketAddress := .v4 ⟨10, 0, 0, 1⟩ 5000
    let far : SocketAddress := .v4 ⟨10, 0, 0, 2⟩ 6000
    let server : SocketAddress := .v4 ⟨10, 0, 0, 3⟩ 3478
    let answer : Bytes := [1, 1, 0, 12, 33, 18, 164, 66] ++ List.replicate 12 0 ++
      [0, 32, 0, 8, 0, 1, 50, 154, 234, 18, 213, 69]
    let mapped : Candidate := .serverReflexive (.v4 ⟨203, 0, 113, 7⟩ 5000) near
    let es := [Event.start 0 [near] false (some server) (id 0), .tick 20 (id 1) (id 2),
      .datagram server answer 50 (id 3)]
    let b := new peer false 9 0
    let fs := [
      Event.signal .agentLocalDescription (Description.payload ⟨7, [.host near]⟩) 60 (id 4),
      .start 70 [far] false none (id 5),
      .signal .agentCandidate (CandidateNotice.payload ⟨7, mapped⟩) 80 (id 6),
      .tick 90 (id 7) (id 8),
      .signal .agentGatheringDone (GatheringDone.payload ⟨7⟩) 100 (id 9)]
    b.remoteSession ≠ some 7 ∧
      fs.filterMap Event.heard <+:
        ((new peer true 7 0).correspondence es).map (fun m => (m.kind, m.data)) ∧
      ∃ ls : List Letter, (new peer true 7 0).correspondence es = ls.map (Letter.message peer 7) ∧
        Accepts b 7 fs (ls.take 3) := by
  intro peer id near far server answer mapped es b fs
  have unknown : b.remoteSession ≠ some 7 := nofun
  have handed : fs.filterMap Event.heard <+:
      ((new peer true 7 0).correspondence es).map (fun m => (m.kind, m.data)) := by
    decide +kernel +revert
  obtain ⟨ls, told, -, -, accepts⟩ := announcement_accepted peer true 7 0 es
  exact ⟨unknown, handed, ls, told, accepts b fs unknown handed⟩

end Agent
end Parley

import Parley.Proofs.Link.Lifecycle
import Parley.Proofs.Link.Posting
import Mathlib.Data.List.Infix
/-!
What an agent still sends when it is finished.

An agent that has failed or lost its path does nothing by itself any more: it answers the checks and
the keepalives that still arrive, and that is all (`Dormant`). One thing may be left over, the
question to the STUN server. A search that fails drops it, but a connection that fails does not, and
then the agent goes on asking, and tells its peer of the answer or of the end of its gathering. The
history of a run decides which of the two it is (`dormant_iff`), and `question_outlives_connection`
is a run of the second kind.
-/
namespace Parley
namespace Agent

/-- What a datagram is answered with, whatever the agent is about. -/
def reply (source : SocketAddress) (octets : Bytes) : List (SocketAddress × Bytes) :=
  match Datagram.classify octets with
  | .binding =>
    match BindingMessage.decode octets with
    | .ok (.request r) => [(source, (BindingMessage.response (.accept r.id source)).encode)]
    | _ => []
  | .keepalive false sequence => [(source, Keepalive.response sequence)]
  | _ => []

/-- An agent that only answers. -/
structure Dormant (a : Agent) : Prop where
  /-- Time makes it send nothing, neither from its socket nor through the server. -/
  tick : ∀ now checkId id,
    (a.tick now checkId id).datagrams = a.datagrams ∧ (a.tick now checkId id).signals = a.signals
  /-- A datagram is answered where it calls for an answer, and makes it send nothing else. -/
  datagram : ∀ source octets now id,
    (a.onDatagram source octets now id).1.datagrams = a.datagrams ++ reply source octets ∧
      (a.onDatagram source octets now id).1.signals = a.signals

/-! ### An agent at the end of the line -/

section Terminal
variable {a : Agent} (ha : a.Grounded) (hend : a.state.isTerminal = true)
include hend

theorem inactive_of_terminal :
    ¬(a.state = .checking ∨ a.state = .connected ∨ a.state = .completed) := by
  rintro (h | h | h) <;> rw [h] at hend <;> cases hend

include ha

/-- A path that such an agent still knows of is lost. -/
theorem lost_of_terminal {k : Keepalive} (hk : a.keepalive = some k) : k.lost = true := by
  cases hlost : k.lost with
  | true => rfl
  | false =>
    have usable := connected_or_completed.1 (usable_of_alive ha hk hlost)
    exact absurd (.inr usable) (inactive_of_terminal hend)

theorem tickKeepalive_of_terminal (now : Nat) : a.tickKeepalive now = a := by
  unfold tickKeepalive
  split
  · rfl
  · rename_i k hk
    have lost := lost_of_terminal ha hend hk
    have timeout : k.checkTimeout now = (k, false) := by rw [Keepalive.checkTimeout, if_pos lost]
    have poll : k.poll now = (k, none) := by rw [Keepalive.poll, if_pos (.inl lost)]
    simp only [timeout, poll, ← hk]

/-- Of all that a tick does only the question to the server is left. -/
theorem tick_of_terminal (now : Nat) (checkId id : TransactionId) :
    a.tick now checkId id = a.tickQuery now := by
  have learns := a.tickQuery_learns now
  have asked := learns.grounded ha
  unfold tick
  generalize a.tickQuery now = b at learns asked
  rw [← learns.state] at hend
  have inactive := inactive_of_terminal hend
  rw [tickChecks_of_inactive inactive, tickKeepalive_of_terminal asked hend]
  exact updateState_rests (fun h => inactive (.inl h)) (fun h => inactive (.inr (.inl h))) now id

omit ha in
theorem onDatagram_of_terminal (source : SocketAddress) (octets : Bytes) (now : Nat)
    (id : TransactionId) :
    (a.onDatagram source octets now id).1 = (a.handleDatagram source octets now).1 := by
  have learns := a.handleDatagram_learns source octets now
  have inactive := inactive_of_terminal hend
  rw [← learns.state] at inactive
  exact updateState_rests (fun h => inactive (.inl h)) (fun h => inactive (.inr (.inl h))) now id

omit ha in
/-- When no question is open, what arrives is answered and nothing else. -/
theorem handleDatagram_replies (hquery : a.query = none) (source : SocketAddress) (octets : Bytes)
    (now : Nat) :
    (a.handleDatagram source octets now).1.datagrams = a.datagrams ++ reply source octets ∧
      (a.handleDatagram source octets now).1.signals = a.signals := by
  unfold handleDatagram reply
  cases Datagram.classify octets with
  | stun =>
    show (a.handleStun octets).datagrams = _ ∧ (a.handleStun octets).signals = _
    rw [handleStun, hquery]
    exact ⟨(List.append_nil _).symm, rfl⟩
  | binding =>
    simp only [handleBinding]
    cases BindingMessage.decode octets with
    | error => exact ⟨(List.append_nil _).symm, rfl⟩
    | ok message =>
      cases message with
      | response => exact ⟨(List.append_nil _).symm, rfl⟩
      | request r =>
        simp only [handleRequest]
        rw [if_pos (.inr hend)]
        exact ⟨rfl, rfl⟩
  | keepalive isResponse sequence =>
    cases isResponse with
    | false => exact ⟨rfl, rfl⟩
    | true => exact ⟨(List.append_nil _).symm, rfl⟩
  | data payload =>
    simp only
    split <;> exact ⟨(List.append_nil _).symm, rfl⟩
  | unknown => exact ⟨(List.append_nil _).symm, rfl⟩

/-- The question to the server is all that such an agent may still have to do. -/
theorem dormant_iff_unasked (gathering : a.query ≠ none → a.gathered = false) :
    a.Dormant ↔ a.query = none := by
  constructor
  · intro dormant
    by_contra hquery
    obtain ⟨q, hq⟩ := Option.ne_none_iff_exists'.1 hquery
    -- The tick at which the question is given up ends the gathering, and the peer is told.
    have due : queryTimeout ≤ q.started + queryTimeout - q.started := by omega
    have told := (dormant.tick (q.started + queryTimeout) q.id q.id).2
    rw [tick_of_terminal ha hend, tickQuery, hq] at told
    simp only [if_pos due, finishGathering, gathering hquery] at told
    exact absurd told (by simp [signal])
  · intro hquery
    refine ⟨fun now checkId id => ?_, fun source octets now id => ?_⟩
    · rw [tick_of_terminal ha hend, tickQuery, hquery]
      exact ⟨rfl, rfl⟩
    · rw [onDatagram_of_terminal hend]
      exact handleDatagram_replies hend hquery source octets now

end Terminal

/-! ### What becomes of the question -/

/-- The question that is open, and since when. -/
def question (a : Agent) : Option (TransactionId × Nat) := a.query.map fun q => (q.id, q.started)

/-- Whether an event ends the question of an agent that has asked: its time is over, or the server
answers it. -/
def Event.Closes (id : TransactionId) (started : Nat) : Event → Prop
  | .tick now _ _ => queryTimeout ≤ now - started
  | .datagram _ octets _ _ => Datagram.classify octets = .stun ∧
      ∃ mapped, Stun.parseResponse id octets = .ok mapped
  | _ => False

/-- An agent that has a question open is still gathering, and one that has not started has none. -/
structure Inquires (a : Agent) : Prop where
  gathering : a.query ≠ none → a.gathered = false
  fresh : a.state = .new → a.query = none ∧ a.gathered = false

theorem question_eq_none {a : Agent} : a.question = none ↔ a.query = none := Option.map_eq_none_iff

/-- What an event does to the question before the state follows. -/
inductive Treats (a : Agent) (e : Event) (c : Agent) : Prop where
  | leaves (unclosed : ∀ id started, a.question = some (id, started) → ¬e.Closes id started)
      (question : c.question = a.question) (gathered : c.gathered = a.gathered)
  | closes {id : TransactionId} {started : Nat} (asked : a.question = some (id, started))
      (closes : e.Closes id started) (question : c.question = none)

/-- What it does to it in all. -/
inductive Pursues (a : Agent) (e : Event) : Prop where
  | leaves (unclosed : ∀ id started, a.question = some (id, started) → ¬e.Closes id started)
      (question : (a.step e).question = a.question) (gathered : (a.step e).gathered = a.gathered)
      (searching : a.state = .checking → (a.step e).state ≠ .failed)
  | closes {id : TransactionId} {started : Nat} (asked : a.question = some (id, started))
      (closes : e.Closes id started) (question : (a.step e).question = none)
  | drops (searching : a.state = .checking) (failed : (a.step e).state = .failed)
      (question : (a.step e).question = none)

theorem Listens.treats {a c : Agent} {e : Event} (h : Listens a c)
    (unclosed : ∀ id started, a.question = some (id, started) → ¬e.Closes id started) :
    Treats a e c := .leaves unclosed (congrArg (Option.map _) h.query) h.gathered

/-- An agent without a question to put has nothing to lose. -/
theorem Treats.unasked {a : Agent} (hquery : a.query = none) (e : Event) : Treats a e a := by
  refine .leaves (fun id started asked => ?_) rfl rfl
  rw [question_eq_none.2 hquery] at asked
  cases asked

theorem Treats.gathering {a c : Agent} {e : Event} (h : Treats a e c) (ha : a.Inquires)
    (hquery : c.query ≠ none) : c.gathered = false := by
  cases h with
  | leaves _ question gathered =>
    rw [gathered]
    refine ha.gathering fun hnone => hquery ?_
    rwa [← question_eq_none, question, question_eq_none]
  | closes _ _ question => exact absurd (question_eq_none.1 question) hquery

theorem finishGathering_query {a : Agent} (h : a.query ≠ none → a.gathered = false) :
    a.finishGathering.query = none := by
  unfold finishGathering
  split
  · rename_i hgathered
    by_contra hquery
    rw [h hquery] at hgathered
    cases hgathered
  · rfl

theorem handleStun_treats {a : Agent} (ha : a.Inquires) (source : SocketAddress) {octets : Bytes}
    (stun : Datagram.classify octets = .stun) (now : Nat) (id : TransactionId) :
    Treats a (.datagram source octets now id) (a.handleStun octets) := by
  unfold handleStun
  split
  · rename_i hquery
    exact .unasked hquery _
  · rename_i q hquery
    have asked : a.question = some (q.id, q.started) := congrArg (Option.map _) hquery
    split
    · rename_i herror
      refine .leaves (fun id started asked' => ?_) rfl rfl
      cases asked.symm.trans asked'
      rintro ⟨-, mapped, hok⟩
      rw [hok] at herror
      cases herror
    · rename_i mapped hok
      refine .closes asked ⟨stun, mapped, hok⟩ (question_eq_none.2 ?_)
      have gathering := ha.gathering
      cases a.reflexiveCandidate mapped with
      | none => exact finishGathering_query gathering
      | some c => exact finishGathering_query (a := a.addOurs c) gathering

theorem tickQuery_treats {a : Agent} (ha : a.Inquires) (now : Nat) (checkId id : TransactionId) :
    Treats a (.tick now checkId id) (a.tickQuery now) := by
  unfold tickQuery
  split
  · rename_i hquery
    exact .unasked hquery _
  · rename_i q hquery
    have asked : a.question = some (q.id, q.started) := congrArg (Option.map _) hquery
    split
    · rename_i late
      exact .closes asked late (question_eq_none.2 (finishGathering_query ha.gathering))
    · rename_i early
      have unclosed : ∀ id started, a.question = some (id, started) →
          ¬(Event.tick now checkId id).Closes id started := by
        intro id started asked'
        cases asked.symm.trans asked'
        exact early
      split
      · exact .leaves unclosed asked.symm rfl
      · exact .leaves unclosed rfl rfl

/-- Two states of an agent that agree on the gathering. -/
def SameInquiry (a b : Agent) : Prop := b.question = a.question ∧ b.gathered = a.gathered

theorem selectBest_inquiry (a : Agent) (now : Nat) : SameInquiry a (a.selectBest now) := by
  unfold selectBest
  split <;> exact ⟨rfl, rfl⟩

theorem settle_inquiry (a : Agent) (now : Nat) (id : TransactionId) :
    SameInquiry a (a.settle now id) := by
  have withdrawn : SameInquiry a a.withdrawNomination := by
    unfold withdrawNomination
    split <;> exact ⟨rfl, rfl⟩
  have nominated : SameInquiry a (a.withdrawNomination.nominate now id) := by
    unfold nominate
    repeat' split
    all_goals exact withdrawn
  unfold settle complete
  split <;> exact nominated

/-- Only a search that fails drops the question. -/
theorem updateState_inquiry (a : Agent) (now : Nat) (id : TransactionId) :
    (SameInquiry a (a.updateState now id) ∧
      (a.state = .checking → (a.updateState now id).state ≠ .failed)) ∨
    (a.state = .checking ∧ (a.updateState now id).state = .failed ∧
      (a.updateState now id).query = none) := by
  have follows := updateState_follows a now id
  generalize a.updateState now id = b at follows ⊢
  cases follows with
  | connects =>
    have best := selectBest_inquiry { a with firstSuccess := some now, state := .connected } now
    have settled := settle_inquiry
      ({ a with firstSuccess := some now, state := .connected }.selectBest now) now id
    refine .inl ⟨⟨settled.1.trans best.1, settled.2.trans best.2⟩, fun _ => ?_⟩
    have state := settle_state
      ({ a with firstSuccess := some now, state := .connected }.selectBest now) now id
    rw [selectBest_state] at state
    rcases state with h | h <;> simp [h]
  | exhausts searching => exact .inr ⟨searching, rfl, rfl⟩
  | searches searching => exact .inl ⟨⟨rfl, rfl⟩, fun _ => by simp [searching]⟩
  | collapses connected => exact .inl ⟨⟨rfl, rfl⟩, fun h => by simp [connected] at h⟩
  | settles connected =>
    have best := a.selectBest_inquiry now
    have settled := settle_inquiry (a.selectBest now) now id
    exact .inl ⟨⟨settled.1.trans best.1, settled.2.trans best.2⟩, fun h => by simp [connected] at h⟩
  | rests searching => exact .inl ⟨⟨rfl, rfl⟩, fun h => absurd h searching⟩

/-! ### One event -/

/-- An event treats the question, and then the state follows. -/
theorem pursues_of_treats {a c : Agent} {e : Event} {now : Nat} {id : TransactionId}
    (same : a.state = .checking ↔ c.state = .checking) (treats : Treats a e c)
    (hstep : a.step e = c.updateState now id) : Pursues a e := by
  have follows := updateState_inquiry c now id
  rw [← hstep] at follows
  cases treats with
  | closes asked closes question =>
    refine .closes asked closes ?_
    rcases follows with ⟨⟨still, -⟩, -⟩ | ⟨-, -, dropped⟩
    · exact still.trans question
    · exact question_eq_none.2 dropped
  | leaves unclosed question gathered =>
    rcases follows with ⟨⟨still, gathers⟩, live⟩ | ⟨searching, failed, dropped⟩
    · exact .leaves unclosed (still.trans question) (gathers.trans gathered)
        fun searching => live (same.1 searching)
    · exact .drops (same.2 searching) failed (question_eq_none.2 dropped)

/-- An event that neither time nor the server has a part in. -/
theorem pursues_of_still {a : Agent} {e : Event} (unclosed : ∀ id started, ¬e.Closes id started)
    (still : SameInquiry a (a.step e)) (state : (a.step e).state = a.state) : Pursues a e := by
  refine .leaves (fun id started _ => unclosed id started) still.1 still.2 fun searching => ?_
  rw [state, searching]
  exact nofun

theorem handleDatagram_treats {a : Agent} (ha : a.Inquires) (source : SocketAddress)
    (octets : Bytes) (now : Nat) (id : TransactionId) :
    Treats a (.datagram source octets now id) (a.handleDatagram source octets now).1 := by
  have other {c : Agent} (h : Listens a c) (notStun : Datagram.classify octets ≠ .stun) :
      Treats a (.datagram source octets now id) c :=
    h.treats fun _ _ _ closes => notStun closes.1
  unfold handleDatagram
  cases hclass : Datagram.classify octets with
  | stun => exact handleStun_treats ha source hclass now id
  | binding => exact other (a.handleBinding_listens source octets) (by simp [hclass])
  | keepalive => exact other (a.handleKeepalive_listens ..) (by simp [hclass])
  | data =>
    simp only
    split <;> exact other ⟨rfl, rfl, rfl, rfl⟩ (by simp [hclass])
  | unknown => exact other (.refl a) (by simp [hclass])

theorem tick_pursues {a : Agent} (ground : a.Grounded) (ha : a.Inquires) (now : Nat)
    (checkId id : TransactionId) : Pursues a (.tick now checkId id) := by
  have learns := (a.tickQuery_learns now).trans (tickChecks_learns _ now checkId)
  have listens := (tickChecks_listens (a.tickQuery now) now checkId).trans
    (tickKeepalive_listens _ now)
  have treats : Treats a (.tick now checkId id)
      (((a.tickQuery now).tickChecks now checkId).tickKeepalive now) := by
    have question := congrArg (Option.map fun q : StunQuery => (q.id, q.started)) listens.query
    cases tickQuery_treats ha now checkId id with
    | leaves unclosed same gathered =>
      exact .leaves unclosed (question.trans same) (listens.gathered.trans gathered)
    | closes asked closes none => exact .closes asked closes (question.trans none)
  refine pursues_of_treats ?_ treats rfl
  rcases (tickKeepalive_moves (learns.grounded ground) now).2 with state | ⟨usable, lost⟩
  · rw [state, learns.state]
  · rw [learns.state] at usable
    rw [lost]
    rcases connected_or_completed.1 usable with h | h <;> rw [h] <;> decide

/-- Whether an event starts an agent. -/
def Event.isStart : Event → Bool
  | .start .. => true
  | _ => false

theorem step_pursues {a : Agent} (ground : a.Grounded) (ha : a.Inquires) {e : Event}
    (started : a.state ≠ .new ∨ e.isStart = false) : Pursues a e := by
  cases e with
  | start now addresses includeLoopback stunServer id =>
    have started := started.resolve_right (by simp [Event.isStart])
    have same : a.step (.start now addresses includeLoopback stunServer id) = a := if_neg started
    refine pursues_of_still (fun _ _ => False.elim) ?_ (congrArg state same)
    rw [same]
    exact ⟨rfl, rfl⟩
  | signal kind data now id =>
    rcases a.applySignal_cases kind data now id with ⟨b, received, applied⟩ | ⟨_, -, applied⟩
    · have hstep : a.step (.signal kind data now id) = b.updateState now id :=
        congrArg Prod.fst applied
      have touched : Listens a (a.touch now) := ⟨rfl, rfl, rfl, rfl⟩
      have listens := touched.trans received.listens
      have state : b.state = a.state := received.learns.state
      exact pursues_of_treats (by rw [state]) (listens.treats fun _ _ _ => False.elim) hstep
    · have same : a.step (.signal kind data now id) = a.touch now := congrArg Prod.fst applied
      refine pursues_of_still (fun _ _ => False.elim) ?_ ?_
      · rw [same]
        exact ⟨rfl, rfl⟩
      · rw [same]
        rfl
  | datagram source octets now id =>
    have state := (a.handleDatagram_learns source octets now).state
    exact pursues_of_treats (by rw [state]) (handleDatagram_treats ha source octets now id) rfl
  | tick => exact tick_pursues ground ha ..
  | setControlling controlling =>
    have same : SameInquiry a (a.setControlling controlling) ∧
        (a.setControlling controlling).state = a.state := by
      unfold setControlling
      split <;> exact ⟨⟨rfl, rfl⟩, rfl⟩
    exact pursues_of_still (fun _ _ => False.elim) same.1 same.2
  | touch | takeDatagrams | takeSignals =>
    exact pursues_of_still (fun _ _ => False.elim) ⟨rfl, rfl⟩ rfl

theorem Pursues.question_none {a : Agent} {e : Event} (h : Pursues a e)
    (unasked : a.question = none) : (a.step e).question = none := by
  cases h with
  | leaves _ question => exact question.trans unasked
  | closes _ _ question | drops _ _ question => exact question

/-- A start puts the question, when there is a server to put it to. -/
theorem start_question {a : Agent} (h : a.state = .new) (ha : a.Inquires) (now : Nat)
    (addresses : List SocketAddress) (includeLoopback : Bool) (stunServer : Option SocketAddress)
    (id : TransactionId) :
    (a.start now addresses includeLoopback stunServer id).question =
        stunServer.map (fun _ => (id, now)) ∧
      (a.start now addresses includeLoopback stunServer id).Inquires := by
  have state := (start_learns h now addresses includeLoopback stunServer id).state
  have fresh : (a.start now addresses includeLoopback stunServer id).state = .new → False := by
    rw [state]
    exact nofun
  cases stunServer with
  | none =>
    have gathering : ({ a with
        state := .checking
        startedAt := some now
        ours := Candidate.gather addresses includeLoopback
        checks := a.checks.start now }.signal .agentLocalDescription
          (Description.payload ⟨a.session, Candidate.gather addresses includeLoopback⟩)).query ≠
        none → a.gathered = false := ha.gathering
    have none : (a.start now addresses includeLoopback none id).query = .none := by
      unfold start
      rw [if_pos h]
      exact finishGathering_query gathering
    exact ⟨question_eq_none.2 none, fun h => absurd none h, fun h => (fresh h).elim⟩
  | some server =>
    have asked :
        (a.start now addresses includeLoopback (some server) id).question = some (id, now) ∧
        (a.start now addresses includeLoopback (some server) id).gathered = a.gathered := by
      unfold start
      rw [if_pos h]
      exact ⟨rfl, rfl⟩
    exact ⟨asked.1, fun _ => asked.2.trans (ha.fresh h).2, fun h => (fresh h).elim⟩

theorem Pursues.inquires {a : Agent} {e : Event} (h : Pursues a e) (ground : a.Grounded)
    (ha : a.Inquires) : (a.step e).Inquires := by
  have back : (a.step e).state = .new → a.state = .new := fun h => by
    have moved := (step_moves ground e).2.1
    rw [h] at moved
    cases hstate : a.state <;> simp [hstate, AgentState.successors] at moved
    rfl
  cases h with
  | leaves unclosed question gathered =>
    have query : (a.step e).query = none ↔ a.query = none := by
      rw [← question_eq_none, question, question_eq_none]
    refine ⟨fun h => gathered.trans (ha.gathering (query.not.1 h)), fun h => ?_⟩
    have fresh := ha.fresh (back h)
    exact ⟨query.2 fresh.1, gathered.trans fresh.2⟩
  | closes asked _ question =>
    refine ⟨fun h => absurd (question_eq_none.1 question) h, fun h => ?_⟩
    rw [question_eq_none.2 (ha.fresh (back h)).1] at asked
    cases asked
  | drops searching _ question =>
    refine ⟨fun h => absurd (question_eq_none.1 question) h, fun h => ?_⟩
    rw [back h] at searching
    cases searching

theorem step_inquires {a : Agent} (ground : a.Grounded) (ha : a.Inquires) (e : Event) :
    (a.step e).Inquires := by
  by_cases started : a.state ≠ .new ∨ e.isStart = false
  · exact (step_pursues ground ha started).inquires ground ha
  · simp only [ne_eq, not_or, Decidable.not_not, Bool.not_eq_false] at started
    obtain ⟨fresh, start⟩ := started
    cases e with
    | start => exact (start_question fresh ha ..).2
    | _ => cases start

/-! ### A run -/

/-- Some path has been in use in the run. -/
def Connects (a : Agent) (es : List Event) : Prop :=
  ∃ front, front <+: es ∧ (a.run front).state.isUsable = true

theorem connects_concat {a : Agent} {es : List Event} {e : Event} :
    a.Connects (es ++ [e]) ↔ a.Connects es ∨ (a.run (es ++ [e])).state.isUsable = true := by
  simp only [Connects, List.prefix_concat_iff]
  constructor
  · rintro ⟨front, rfl | front_es, usable⟩
    · exact .inr usable
    · exact .inl ⟨front, front_es, usable⟩
  · rintro (⟨front, front_es, usable⟩ | usable)
    · exact ⟨front, .inr front_es, usable⟩
    · exact ⟨_, .inl rfl, usable⟩

theorem connects_cons {a : Agent} (unusable : a.state.isUsable = false) {e : Event}
    {es : List Event} : a.Connects (e :: es) ↔ (a.step e).Connects es := by
  simp only [Connects, List.prefix_cons_iff]
  constructor
  · rintro ⟨front, rfl | ⟨rest, rfl, rest_es⟩, usable⟩
    · rw [run_nil, unusable] at usable
      cases usable
    · exact ⟨rest, rest_es, usable⟩
  · rintro ⟨rest, rest_es, usable⟩
    exact ⟨e :: rest, .inr ⟨rest, rfl, rest_es⟩, usable⟩

/-- What the states that may follow keep holds along a run. -/
theorem run_along {P : AgentState → Prop} (onward : ∀ s t, t ∈ s.successors → P s → P t) {a : Agent}
    (ground : a.Grounded) (h : P a.state) (es : List Event) : P (a.run es).state := by
  induction es generalizing a with
  | nil => exact h
  | cons e es ih =>
    have moves := step_moves ground e
    exact ih moves.1 (onward _ _ moves.2.1 h)

theorem run_started {a : Agent} (ground : a.Grounded) (started : a.state ≠ .new) (es : List Event) :
    (a.run es).state ≠ .new := by
  refine run_along (P := (· ≠ .new)) (fun s t => ?_) ground started es
  cases s <;> cases t <;> decide

/-- An agent that has had a path in use does not search again. -/
theorem Connects.not_searching {a : Agent} (ground : a.Grounded) {es : List Event}
    (h : a.Connects es) : (a.run es).state ≠ .checking := by
  obtain ⟨front, ⟨rest, rfl⟩, usable⟩ := h
  have past : (a.run front).state ≠ .new ∧ (a.run front).state ≠ .checking := by
    rcases connected_or_completed.1 usable with h | h <;> rw [h] <;> decide
  rw [run_append]
  refine (run_along (P := fun s => s ≠ .new ∧ s ≠ .checking) (fun s t => ?_)
    (run_grounded ground front) past rest).2
  cases s <;> cases t <;> decide

/-- How the question of an agent that has asked stands after a run. -/
inductive Outcome (a : Agent) (id : TransactionId) (started : Nat) (es : List Event) : Prop where
  | unclosed (unclosed : ∀ e ∈ es, ¬e.Closes id started)
      (question : (a.run es).question = some (id, started))
      (live : (a.run es).state = .checking ∨ a.Connects es)
  | closed {e : Event} (mem : e ∈ es) (closes : e.Closes id started)
      (question : (a.run es).question = none)
  | dropped (failed : (a.run es).state = .failed) (never : ¬a.Connects es)
      (question : (a.run es).question = none)

theorem run_outcome {a : Agent} (ground : a.Grounded) (ha : a.Inquires)
    (searching : a.state = .checking) {id : TransactionId} {started : Nat}
    (asked : a.question = some (id, started)) (es : List Event) :
    Outcome a id started es ∧ (a.run es).Inquires := by
  induction es using List.reverseRecOn with
  | nil => exact ⟨.unclosed (fun e h => nomatch h) asked (.inl searching), ha⟩
  | append_singleton es e ih =>
    obtain ⟨outcome, inquires⟩ := ih
    have before := run_grounded ground es
    have started := run_started ground (by simp [searching]) es
    have pursues := step_pursues (e := e) before inquires (.inl started)
    refine ⟨?_, run_concat a es e ▸ pursues.inquires before inquires⟩
    have run : a.run (es ++ [e]) = (a.run es).step e := run_concat a es e
    cases outcome with
    | closed mem closes question =>
      exact .closed (List.mem_append_left _ mem) closes (run ▸ pursues.question_none question)
    | dropped failed never question =>
      have stays := terminal_of_mem (by rw [failed]; rfl) (step_moves before e).2.1
      have failed' : (a.run (es ++ [e])).state = .failed := run ▸ stays.trans failed
      refine .dropped failed' (fun connects => ?_) (run ▸ pursues.question_none question)
      rcases connects_concat.1 connects with earlier | usable
      · exact never earlier
      · rw [failed'] at usable
        cases usable
    | unclosed unclosed question live =>
      cases pursues with
      | leaves unclosed' question' _ alive =>
        refine .unclosed (fun f mem => ?_) (run ▸ question'.trans question) ?_
        · rcases List.mem_append.1 mem with mem | mem
          · exact unclosed f mem
          · rw [List.mem_singleton.1 mem]
            exact unclosed' id _ question
        · rw [connects_concat, run]
          rcases live with searching | connects
          · have moved := (step_moves before e).2.1
            have alive := alive searching
            rw [searching] at moved
            generalize ((a.run es).step e).state = s at moved alive
            cases s <;> simp [AgentState.successors, AgentState.isUsable] at moved alive ⊢
          · exact .inr (.inl connects)
      | closes asked closes question' =>
        cases question.symm.trans asked
        exact .closed (List.mem_append_right _ (List.mem_singleton.2 rfl)) closes (run ▸ question')
      | drops searching failed question' =>
        refine .dropped (run ▸ failed) (fun connects => ?_) (run ▸ question')
        rcases connects_concat.1 connects with earlier | usable
        · exact earlier.not_searching ground searching
        · rw [run, failed] at usable
          cases usable

/-- An agent without an open question puts none later on. -/
theorem run_unasked {a : Agent} (ground : a.Grounded) (ha : a.Inquires) (started : a.state ≠ .new)
    (unasked : a.question = none) (es : List Event) : (a.run es).question = none := by
  induction es generalizing a with
  | nil => exact unasked
  | cons e es ih =>
    have pursues := step_pursues (e := e) ground ha (.inl started)
    have started := run_started ground started [e]
    exact ih (step_moves ground e).1 (pursues.inquires ground ha) started
      (pursues.question_none unasked)

/-- Once an agent that has asked is finished, its question is open exactly if no event has closed it
and a path has been in use. -/
theorem started_open_iff {a : Agent} (ground : a.Grounded) (ha : a.Inquires)
    (searching : a.state = .checking) {id : TransactionId} {started : Nat}
    (asked : a.question = some (id, started)) {es : List Event}
    (hend : (a.run es).state.isTerminal = true) :
    (a.run es).question ≠ none ↔ (∀ e ∈ es, ¬e.Closes id started) ∧ a.Connects es := by
  cases (run_outcome ground ha searching asked es).1 with
  | unclosed unclosed question live =>
    have connects := live.resolve_left fun searching => by
      rw [searching] at hend
      cases hend
    refine iff_of_true (fun h => ?_) ⟨unclosed, connects⟩
    rw [question] at h
    cases h
  | closed mem closes question =>
    exact iff_of_false (fun h => h question) fun h => h.1 _ mem closes
  | dropped failed never question => exact iff_of_false (fun h => h question) fun h => never h.2

/-- The start of the run puts a question to a server, and no event since then closes it. -/
inductive Asks (id : TransactionId) (started : Nat) : List Event → Prop where
  | starts {addresses includeLoopback server es} (unclosed : ∀ e ∈ es, ¬e.Closes id started) :
      Asks id started (.start started addresses includeLoopback (some server) id :: es)
  | later {e es} (other : e.isStart = false) (asks : Asks id started es) : Asks id started (e :: es)

/-- The same of an agent that has not started yet. -/
theorem question_open_iff {a : Agent} (ground : a.Grounded) (ha : a.Inquires)
    (fresh : a.state = .new) {es : List Event}
    (hend : (a.run es).state.isTerminal = true) :
    (a.run es).question ≠ none ↔ (∃ id started, Asks id started es) ∧ a.Connects es := by
  induction es generalizing a with
  | nil =>
    rw [run_nil, fresh] at hend
    cases hend
  | cons e es ih =>
    have moves := step_moves ground e
    have run : a.run (e :: es) = (a.step e).run es := rfl
    have unusable : a.state.isUsable = false := by rw [fresh]; rfl
    rw [run] at hend ⊢
    rw [connects_cons unusable]
    cases hstart : e.isStart with
    | false =>
      have still : (a.step e).state = .new := by
        have moved := moves.2.1
        rw [fresh, AgentState.successors, List.mem_pair] at moved
        refine moved.resolve_right fun starts => ?_
        obtain ⟨_, _, _, _, _, rfl⟩ := moves.2.2 fresh starts
        cases hstart
      refine (ih moves.1 (step_inquires ground ha e) still hend).trans
        (and_congr_left fun _ => ⟨?_, ?_⟩)
      · rintro ⟨id, started, asks⟩
        exact ⟨id, started, .later hstart asks⟩
      · rintro ⟨id, started, asks⟩
        cases asks with
        | starts => cases hstart
        | later _ asks => exact ⟨id, started, asks⟩
    | true =>
      cases e with
      | start now addresses includeLoopback stunServer id =>
        obtain ⟨asked, inquires⟩ :=
          start_question fresh ha now addresses includeLoopback stunServer id
        have searching : (a.step (.start now addresses includeLoopback stunServer id)).state =
          .checking := (start_learns fresh ..).state
        cases stunServer with
        | none =>
          have unasked := run_unasked moves.1 inquires (by simp [searching]) asked es
          refine iff_of_false (fun h => h unasked) ?_
          rintro ⟨⟨id, started, asks⟩, -⟩
          cases asks with
          | later other => cases other
        | some server =>
          refine (started_open_iff moves.1 inquires searching asked hend).trans
            (and_congr_left fun _ => ⟨fun unclosed => ⟨id, now, .starts unclosed⟩, ?_⟩)
          rintro ⟨id, started, asks⟩
          cases asks with
          | starts unclosed => exact unclosed
          | later other => cases other
      | _ => cases hstart

theorem new_inquires (peer : PeerId) (controlling : Bool) (session : UInt64) (created : Nat) :
    (new peer controlling session created).Inquires := ⟨fun h => absurd rfl h, fun _ => ⟨rfl, rfl⟩⟩

theorem Reachable.inquires {a : Agent} (h : a.Reachable) : a.Inquires :=
  h.induct_along new_inquires fun _ e reachable ha => step_inquires reachable.grounded ha e

/-- **A finished agent only answers**, unless it has had a path in use and its question to the
server is still open. -/
theorem dormant_iff (peer : PeerId) (controlling : Bool) (session : UInt64) (created : Nat)
    (es : List Event)
    (hend : ((new peer controlling session created).run es).state.isTerminal = true) :
    ((new peer controlling session created).run es).Dormant ↔
      ¬((∃ id started, Asks id started es) ∧ (new peer controlling session created).Connects es) := by
  have reachable : ((new peer controlling session created).run es).Reachable :=
    ⟨_, _, _, _, es, rfl⟩
  have question := question_open_iff (new_grounded ..) (new_inquires ..) rfl hend
  rw [dormant_iff_unasked reachable.grounded hend reachable.inquires.gathering, ← question,
    ← question_eq_none, ne_eq, Decidable.not_not]

/-- An agent without a server to ask has failed for want of a path, and only answers. -/
theorem dormant_without_server :
    let peer : PeerId := ⟨List.replicate 16 0, rfl⟩
    let id : TransactionId := ⟨List.replicate 12 0, rfl⟩
    let es := [Event.start 0 [.v4 ⟨10, 0, 0, 1⟩ 5000] false none id, .tick 10000 id id]
    ((new peer true 7 0).run es).state.isTerminal = true ∧ ((new peer true 7 0).run es).Dormant := by
  refine ⟨by decide +kernel, (dormant_iff _ _ _ _ _ (by decide +kernel)).2 ?_⟩
  rintro ⟨⟨id, started, asks⟩, -⟩
  cases asks with
  | later other => cases other

/-- The only path works, is nominated and refused: the agent has failed and still asks the server,
and tells its peer of the end of its gathering. -/
theorem question_outlives_connection :
    let peer : PeerId := ⟨List.replicate 16 0, rfl⟩
    let id : UInt8 → TransactionId := fun n => ⟨List.replicate 12 n, List.length_replicate⟩
    let near : SocketAddress := .v4 ⟨10, 0, 0, 1⟩ 5000
    let far : SocketAddress := .v4 ⟨10, 0, 0, 2⟩ 6000
    let server : SocketAddress := .v4 ⟨10, 0, 0, 3⟩ 3478
    let a := (new peer true 7 0).run [
      .start 0 [near] false (some server) (id 0),
      .datagram far (BindingMessage.request ⟨id 1, 2, false⟩).encode 10 (id 2),
      .tick 20 (id 3) (id 4),
      .datagram far (BindingMessage.response ⟨id 3, true, none⟩).encode 50 (id 5),
      .datagram far (BindingMessage.response ⟨id 5, false, none⟩).encode 70 (id 6)]
    a.state = .failed ∧
      (a.tick 600 (id 7) (id 8)).datagrams = a.datagrams ++ [(server, Stun.request (id 0))] ∧
      (a.tick 1500 (id 7) (id 8)).signals =
        a.signals ++ [⟨peer, .agentGatheringDone, GatheringDone.payload ⟨7⟩⟩] := by
  decide +kernel

end Agent
end Parley

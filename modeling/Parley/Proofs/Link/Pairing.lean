import Parley.Proofs.Link.CheckList.Form
import Parley.Proofs.Link.Knowledge
/-!
The candidates of the two sides and the pairs that they form.

Candidates come in five ways: ours with the start and with the answer of a STUN server, the peer's
in a description, in a notice, and as the address from which a check comes; and those of the peer
may come before the start. `pairing_complete` says that none is lost on any of these ways: each
address of the peer's for which we have a candidate of its version has one pair, and there is no
other pair. What each way adds to the two sides of that is said once (`Matched`).

The check list is in form at any time, `checks_in_form`, because an event acts on it in ways that
fit (`Permits.fits`).
-/
namespace Parley
open CheckList (Action)

namespace Agent

/-! ### The form of the checks -/

/-- What an event permits fits the check list, unless the event sets the role. -/
theorem Permits.fits {a b : Agent} {e : Event} {x : Action} (h : Permits a b e x)
    (he : ∀ controlling, e ≠ .setControlling controlling) : x.Fits := by
  cases h with
  | reset => exact absurd rfl (he _)
  | pair h =>
    obtain ⟨_, _, rfl, -, -⟩ := h
    trivial
  | check _ h =>
    cases h with
    | learn _ _ hsource hversion => exact hversion.trans (by rw [hsource])
    | trigger | mark => trivial
  | start | answer | expire | send => trivial

/-- A list in form, of the role of its agent. -/
def Ordered (a : Agent) : Prop :=
  a.checks.InForm ∧ a.checks.controlling = a.controlling

theorem step_ordered {a : Agent} (ha : a.Blank) (h : a.Ordered) (e : Event) :
    (a.step e).Ordered := by
  by_cases he : ∀ controlling, e ≠ .setControlling controlling
  · obtain ⟨xs, ys, unfolds⟩ := step_unfolds a e
    obtain ⟨first, role⟩ :=
      CheckList.acts_inForm h.1 fun x hx => (unfolds.permits x hx).fits he
    have nominates : ∀ y ∈ ys, y.Fits := by
      intro y hy
      obtain ⟨_, _, _, rfl⟩ := unfolds.nomination hy
      trivial
    obtain ⟨second, role'⟩ := CheckList.acts_inForm first nominates
    refine ⟨unfolds.checks ▸ second, ?_⟩
    rw [unfolds.checks, role', role, h.2, (step_persists ha he).controlling]
  · obtain ⟨controlling, he⟩ := not_forall.1 he
    rw [not_not.1 he, step, setControlling]
    split
    · exact ⟨CheckList.new_inForm controlling, rfl⟩
    · exact h

theorem Reachable.ordered {a : Agent} (h : a.Reachable) : a.Ordered :=
  h.induct_along (fun _ controlling _ _ => ⟨CheckList.new_inForm controlling, rfl⟩)
    fun _ e ha hordered => step_ordered ha.blank hordered e

/-- **A check list is in form at any time**, between the events and in the course of one, whatever
fitting actions `xs` have been taken since. There is one pair for an address, the pairs fall in
priority, each is what its candidates and the role make of it, and a check that is under way has its
identifier, its times and one to five sends. So an address names its pair; and the next request is
that of a check under way, or it begins a check, which is of a pair of the highest priority among
those that wait, if any does. -/
theorem checks_in_form {a : Agent} (h : a.Reachable) {xs : List Action}
    (hxs : ∀ x ∈ xs, x.Fits) :
    let l := a.checks.acts xs
    (l.pairs.map Pair.remote).Nodup ∧
    l.pairs.Pairwise (fun p q => q.priority ≤ p.priority) ∧
    (∀ p ∈ l.pairs, p.ours.address.isV4 = p.theirs.address.isV4 ∧
      p.priority = pairPriority p.ours.priority p.theirs.priority a.controlling ∧
      p.foundation = p.ours.foundation ++ ":" ++ p.theirs.foundation) ∧
    (∀ p ∈ l.pairs, p.state = .inProgress → p.transaction.isSome = true ∧
      p.firstSent.isSome = true ∧ p.lastSent.isSome = true ∧ 1 ≤ p.sends ∧ p.sends ≤ 5) ∧
    (∀ address index, l.findByRemote address = some index ↔
      ∃ p, l.pairs[index]? = some p ∧ p.remote = address) ∧
    ∀ now id check, (l.nextRequest now id).2 = some check →
      ∃ p, l.pairs[check.index]? = some p ∧ check.destination = p.remote ∧
        (p.state = .inProgress ∧ p.transaction = some check.request.id ∨
          ((∃ w ∈ l.pairs, w.state = .waiting) → p.state = .waiting ∧
            ∀ w ∈ l.pairs, w.state = .waiting → w.priority ≤ p.priority)) := by
  obtain ⟨first, role⟩ := h.ordered
  obtain ⟨form, role'⟩ := CheckList.acts_inForm first hxs
  refine ⟨form.distinct, form.sorted, fun p hp => ?_, fun p hp hstate => ?_,
    fun _ _ => form.findByRemote_iff, fun _ _ _ => form.nextRequest_best⟩
  · have apt := form.apt p hp
    rw [role', role] at apt
    exact ⟨apt.version, apt.priority, apt.foundation⟩
  · have tracked := form.tracked p hp hstate
    exact ⟨tracked.transaction, tracked.firstSent, tracked.lastSent, tracked.sent,
      tracked.sends_le⟩

/-- While the check of a known address is under way, another address checks us. -/
theorem checks_in_form_while_checking :
    let peer : PeerId := ⟨List.replicate 16 0, rfl⟩
    let id : UInt8 → TransactionId := fun n => ⟨List.replicate 12 n, List.length_replicate⟩
    let near : SocketAddress := .v4 ⟨10, 0, 0, 1⟩ 5000
    let far : SocketAddress := .v4 ⟨10, 0, 0, 2⟩ 6000
    let farther : SocketAddress := .v4 ⟨10, 0, 0, 3⟩ 6000
    let a := (new peer true 7 0).run [
      .start 0 [near] false none (id 0),
      .datagram far (BindingMessage.request ⟨id 1, 1, false⟩).encode 10 (id 2),
      .tick 20 (id 3) (id 4),
      .datagram farther (BindingMessage.request ⟨id 5, 2, false⟩).encode 30 (id 6)]
    a.checks.findByRemote farther = some 0 ∧
      ((a.checks.act (.expire 35)).pairs.map Pair.remote).Nodup ∧
      ∀ p ∈ (a.checks.act (.expire 35)).pairs, p.state = .inProgress → p.sends ≤ 5 := by
  intro peer id near far farther a
  have reachable : a.Reachable := ⟨_, _, _, _, _, rfl⟩
  have found : a.checks.findByRemote farther = some 0 := by decide +kernel
  clear_value a
  have fits : ∀ x ∈ [Action.expire 35], x.Fits := by
    intro x hx
    rw [List.mem_singleton.1 hx]
    trivial
  obtain ⟨distinct, -, -, tracked, -⟩ := checks_in_form reachable fits
  exact ⟨found, distinct, fun p hp hstate => (tracked p hp hstate).2.2.2.2⟩

/-! ### No candidate is lost -/

/-- The addresses of the peer's are distinct, and each has one pair if we have a candidate of its
version, and else none. -/
structure Matched (a : Agent) : Prop where
  theirs : (a.theirs.map Candidate.address).Nodup
  single : a.checks.remotes.Nodup
  paired : ∀ address, address ∈ a.checks.remotes ↔
    address ∈ a.theirs.map Candidate.address ∧ a.Covers address

theorem new_matched (peer : PeerId) (controlling : Bool) (session : UInt64) (now : Nat) :
    (new peer controlling session now).Matched :=
  ⟨List.nodup_nil, List.nodup_nil,
    fun address => by simp [new, CheckList.new, CheckList.remotes]⟩

theorem Matched.congr {a b : Agent} (h : a.Matched) (hours : b.ours = a.ours)
    (htheirs : b.theirs = a.theirs) (hremotes : b.checks.remotes = a.checks.remotes) :
    b.Matched := by
  refine ⟨htheirs ▸ h.theirs, hremotes ▸ h.single, fun address => ?_⟩
  rw [hremotes, htheirs, Covers, hours]
  exact h.paired address

theorem Effect.remotes {a b : Agent} {xs : List Action}
    {answers : List (SocketAddress × BindingResponse)} (h : Effect a b xs answers)
    (hxs : ∀ x ∈ xs, x.InPlace) : b.checks.remotes = a.checks.remotes := by
  rw [h.checks, CheckList.acts_remotes hxs]

/-- Following the checks changes no candidates and forms no pairs. -/
theorem Matched.updateState {a : Agent} (h : a.Matched) (now : Nat) (id : TransactionId) :
    (a.updateState now id).Matched := by
  have keeps := a.updateState_keeps now id
  refine h.congr keeps.ours keeps.theirs ?_
  rcases updateState_settles a now id with settled | ⟨-, i, settled⟩
  · exact settled.remotes (by simp)
  · refine settled.remotes fun x hx => ?_
    rw [List.mem_singleton.1 hx]
    trivial

theorem Matched.finishGathering {a : Agent} (h : a.Matched) : a.finishGathering.Matched := by
  have keeps := a.finishGathering_keeps
  exact h.congr keeps.ours keeps.theirs (by rw [finishGathering_checks])

/-- Our candidates that are gathered meet all of the peer's that have come before. -/
theorem Matched.start {a : Agent} (h : a.Matched) (ha : a.Blank) (hnew : a.state = .new) (now : Nat)
    (addresses : List SocketAddress) (includeLoopback : Bool) (stunServer : Option SocketAddress)
    (id : TransactionId) : (a.start now addresses includeLoopback stunServer id).Matched := by
  have uncovered : ∀ address, address ∉ a.checks.remotes := by
    intro address hmem
    obtain ⟨c, hc, -⟩ := ((h.paired address).1 hmem).2
    rw [(ha hnew).1] at hc
    cases hc
  have started : (a.checks.start now).remotes = a.checks.remotes :=
    CheckList.act_remotes a.checks (x := .start now) trivial
  have met : ({ a with
      ours := Candidate.gather addresses includeLoopback
      checks := (a.checks.start now).addPairs (Candidate.gather addresses includeLoopback)
        a.theirs } : Agent).Matched := by
    have single := h.single
    rw [← started] at single
    refine ⟨h.theirs, CheckList.addPairs_distinct single _ _, fun address => ?_⟩
    rw [CheckList.mem_addPairs_remotes single, started]
    exact or_iff_right (uncovered address)
  have effect := start_effect hnew now addresses includeLoopback stunServer id
  have candidates : (a.start now addresses includeLoopback stunServer id).ours =
      Candidate.gather addresses includeLoopback ∧
      (a.start now addresses includeLoopback stunServer id).theirs = a.theirs := by
    unfold Agent.start
    rw [if_pos hnew]
    cases stunServer with
    | none => exact ⟨(finishGathering_keeps _).ours, (finishGathering_keeps _).theirs⟩
    | some server => exact ⟨rfl, rfl⟩
  exact met.congr candidates.1 candidates.2 (by rw [effect.checks]; rfl)

/-- A candidate of ours meets all of the peer's. -/
theorem Matched.addOurs {a : Agent} (h : a.Matched) (c : Candidate) : (a.addOurs c).Matched := by
  refine ⟨h.theirs, CheckList.addPairs_distinct h.single _ _, fun address => ?_⟩
  have added : (a.addOurs c).Covers address ↔
      a.Covers address ∨ ∃ near ∈ [c], near.address.isV4 = address.isV4 := by
    simp [Covers, Agent.addOurs, signal, or_and_right, exists_or]
  rw [added, show (a.addOurs c).theirs = a.theirs from rfl,
    show (a.addOurs c).checks = a.checks.addPairs [c] a.theirs from rfl,
    CheckList.mem_addPairs_remotes h.single, h.paired, and_or_left]

theorem Matched.handleStun {a : Agent} (h : a.Matched) (datagram : Bytes) :
    (a.handleStun datagram).Matched := by
  unfold Agent.handleStun
  split
  · exact h
  · split
    · exact h
    · rename_i mapped _
      cases a.reflexiveCandidate mapped with
      | none => exact h.finishGathering
      | some c => exact (h.addOurs c).finishGathering

/-- A candidate of the peer's meets all of ours. Before the start there are none, and no pairs. -/
theorem Matched.addTheirs {a : Agent} (h : a.Matched) (hblank : a.state = .new → a.ours = [])
    (c : Candidate) : (a.addTheirs c).Matched := by
  unfold Agent.addTheirs
  split
  · exact h
  · rename_i hknown
    have fresh : c.address ∉ a.theirs.map Candidate.address := by simpa using hknown
    have distinct : ((a.theirs ++ [c]).map Candidate.address).Nodup := by
      rw [List.map_append]
      exact nodup_append_singleton h.theirs fresh
    have members : ∀ address, address ∈ (a.theirs ++ [c]).map Candidate.address ↔
        address ∈ a.theirs.map Candidate.address ∨ address ∈ [c].map Candidate.address := by
      simp [List.map_append]
    simp only
    split
    · rename_i hnew
      have uncovered : ∀ address, ¬a.Covers address := by
        rintro address ⟨near, hnear, -⟩
        rw [hblank hnew] at hnear
        cases hnear
      refine ⟨distinct, h.single, fun address => ?_⟩
      exact (h.paired address).trans
        (iff_of_false (fun hmem => uncovered address hmem.2) fun hmem => uncovered address hmem.2)
    · refine ⟨distinct, CheckList.addPairs_distinct h.single _ _, fun address => ?_⟩
      rw [CheckList.mem_addPairs_remotes h.single, h.paired, members, or_and_right]
      rfl

theorem Matched.foldl_addTheirs {a : Agent} (h : a.Matched) (hblank : a.state = .new → a.ours = [])
    (cs : List Candidate) : (cs.foldl Agent.addTheirs a).Matched := by
  induction cs generalizing a with
  | nil => exact h
  | cons c cs ih =>
    refine ih (h.addTheirs hblank c) fun hnew => ?_
    rw [(a.addTheirs_listens c).ours]
    exact hblank ((a.addTheirs_learns c).state.symm.trans hnew)

theorem Received.matched {a b : Agent} {kind : MessageKind} {data : String}
    (received : Received a kind data b) (h : a.Matched) (hblank : a.state = .new → a.ours = []) :
    b.Matched := by
  cases received with
  | description =>
    rename_i d _ _
    have adopted : (a.adopt d.session).theirs = a.theirs := by
      unfold adopt
      split <;> rfl
    have ours := (a.adopt_listens d.session).ours
    refine (h.congr ours adopted (by rw [(a.adopt_checks d.session).1])).foldl_addTheirs ?_ _
    rw [ours, (a.adopt_learns d.session).state]
    exact hblank
  | candidate _ _ hs =>
    rw [takeSession_eq_none hs]
    exact Matched.addTheirs (a := { a with remoteSession := some _ })
      ⟨h.theirs, h.single, h.paired⟩ hblank _
  | ping => exact h
  | gatheringDone _ _ _ hs =>
    rw [takeSession_eq_none hs]
    exact ⟨h.theirs, h.single, h.paired⟩

/-- The address from which a check comes is new when it has no pair and we have a candidate of its
version, and then it is paired. -/
theorem Matched.learnTheirs {a : Agent} (h : a.Matched) (source : SocketAddress) (priority : UInt32) :
    (a.learnTheirs source priority).Matched := by
  unfold Agent.learnTheirs
  split
  · exact h
  · rename_i hmissing
    split
    · exact h
    · rename_i near hnear
      have covers : a.Covers source :=
        ⟨near, List.mem_of_find?_eq_some hnear, by simpa using List.find?_some hnear⟩
      have unpaired : source ∉ a.checks.remotes := fun hmem =>
        have ⟨p, hp, hremote⟩ := CheckList.mem_remotes.1 hmem
        CheckList.findByRemote_eq_none.1 hmissing p hp hremote
      have fresh : source ∉ a.theirs.map Candidate.address :=
        fun hmem => unpaired ((h.paired source).2 ⟨hmem, covers⟩)
      have added : (a.checks.addPeerReflexive near
          { Candidate.peerReflexive source with priority }).remotes.Perm
            (a.checks.remotes ++ [source]) :=
        CheckList.addPeerReflexive_remotes hmissing
      refine ⟨?_, added.nodup_iff.2 (nodup_append_singleton h.single unpaired),
        fun address => ?_⟩
      · rw [List.map_append]
        exact nodup_append_singleton h.theirs fresh
      · rw [added.mem_iff, List.mem_append, h.paired, List.map_append, List.mem_append, or_and_right]
        refine or_congr_right ⟨fun hmem => ⟨hmem, ?_⟩, And.left⟩
        rw [List.mem_singleton.1 hmem]
        exact covers

theorem Matched.handleRequest {a : Agent} (h : a.Matched) (source : SocketAddress)
    (r : BindingRequest) : (a.handleRequest source r).Matched := by
  have queued : (a.queue source (BindingMessage.response (.accept r.id source)).encode).Matched :=
    ⟨h.theirs, h.single, h.paired⟩
  unfold Agent.handleRequest
  simp only
  split
  · exact queued
  · have learned := queued.learnTheirs source r.priority
    unfold answerCheck
    split
    · exact learned
    · rename_i index _
      refine learned.congr rfl rfl ?_
      simp only
      split
      · exact (CheckList.act_remotes _ (x := .mark index) trivial).trans
          (CheckList.act_remotes _ (x := .trigger index) trivial)
      · exact CheckList.act_remotes _ (x := .trigger index) trivial

theorem Matched.handleDatagram {a : Agent} (h : a.Matched) (source : SocketAddress) (octets : Bytes)
    (now : Nat) : (a.handleDatagram source octets now).1.Matched := by
  unfold Agent.handleDatagram
  split
  · exact h.handleStun octets
  · unfold handleBinding
    split
    · exact h.handleRequest source _
    · rename_i r _
      exact h.congr rfl rfl ((a.handleResponse_effect r).remotes (by simp [Action.InPlace]))
    · exact h
  · unfold handleKeepalive
    split <;> exact ⟨h.theirs, h.single, h.paired⟩
  · split
    · exact ⟨h.theirs, h.single, h.paired⟩
    · exact h
  · exact h

theorem Matched.tick {a : Agent} (h : a.Matched) (now : Nat) (checkId id : TransactionId) :
    (a.tick now checkId id).Matched := by
  have keeps := (a.tickQuery_keeps now).trans
    ((tickChecks_keeps _ now checkId).trans (tickKeepalive_keeps _ now))
  refine Matched.updateState (h.congr keeps.ours keeps.theirs ?_) now id
  rcases tickChecks_effect (a.tickQuery now) now checkId with checks | checks
  · exact ((a.tickQuery_effect now).trans (checks.trans (tickKeepalive_effect _ now))).remotes
      (by simp)
  · exact ((a.tickQuery_effect now).trans (checks.trans (tickKeepalive_effect _ now))).remotes
      (by simp [Action.InPlace])

/-- **No event loses a candidate.** -/
theorem step_matched {a : Agent} (ha : a.Blank) (h : a.Matched) (e : Event) :
    (a.step e).Matched := by
  cases e with
  | start now addresses includeLoopback stunServer id =>
    by_cases hnew : a.state = .new
    · exact h.start ha hnew ..
    · simpa only [step, Agent.start, if_neg hnew] using h
  | signal kind data now id =>
    have touched : (a.touch now).Matched := ⟨h.theirs, h.single, h.paired⟩
    rcases a.applySignal_cases kind data now id with ⟨b, received, applied⟩ | ⟨_, -, applied⟩
    · simp only [step, applied]
      exact (received.matched touched fun hnew => (ha hnew).1).updateState now id
    · simp only [step, applied]
      exact touched
  | datagram source octets now id => exact (h.handleDatagram source octets now).updateState now id
  | tick now checkId id => exact h.tick now checkId id
  | setControlling controlling =>
    simp only [step, setControlling]
    split
    · rename_i hnew
      refine ⟨h.theirs, List.nodup_nil, fun address => iff_of_false List.not_mem_nil ?_⟩
      rintro ⟨-, near, hnear, -⟩
      rw [show a.ours = [] from (ha hnew.1).1] at hnear
      cases hnear
    · exact h
  | touch | takeDatagrams | takeSignals => exact ⟨h.theirs, h.single, h.paired⟩

theorem Reachable.matched {a : Agent} (h : a.Reachable) : a.Matched :=
  h.induct_along new_matched fun _ e ha hmatched => step_matched ha.blank hmatched e

/-- Before the start there are no pairs. -/
theorem Reachable.unpaired {a : Agent} (h : a.Reachable) (hnew : a.state = .new) :
    a.checks.pairs = [] := by
  refine List.eq_nil_iff_forall_not_mem.2 fun p hp => ?_
  obtain ⟨-, near, hnear, -⟩ := (h.matched.paired _).1 (CheckList.mem_remotes.2 ⟨p, hp, rfl⟩)
  rw [(h.blank hnew).1] at hnear
  cases hnear

/-- **No combination of candidates is lost.** Once an agent has started, the addresses of the peer's
candidates are distinct; each of them for which there is a candidate of ours of its version has one
pair; and there is no pair but for these. Before it has started there are no pairs. -/
theorem pairing_complete {a : Agent} (h : a.Reachable) :
    (a.state ≠ .new → (a.theirs.map Candidate.address).Nodup ∧
      (∀ c ∈ a.theirs, (∃ near ∈ a.ours, near.address.isV4 = c.address.isV4) →
        (a.checks.pairs.map Pair.remote).count c.address = 1) ∧
      ∀ p ∈ a.checks.pairs, (∃ c ∈ a.theirs, c.address = p.remote) ∧
        ∃ near ∈ a.ours, near.address.isV4 = p.remote.isV4) ∧
    (a.state = .new → a.checks.pairs = []) := by
  have matched := h.matched
  have pair_covered : ∀ p ∈ a.checks.pairs,
      p.remote ∈ a.theirs.map Candidate.address ∧ a.Covers p.remote :=
    fun p hp => (matched.paired _).1 (CheckList.mem_remotes.2 ⟨p, hp, rfl⟩)
  refine ⟨fun _ => ⟨matched.theirs, fun c hc hcovers => ?_, fun p hp => ?_⟩, h.unpaired⟩
  · exact List.count_eq_one_of_mem matched.single
      ((matched.paired _).2 ⟨List.mem_map_of_mem hc, hcovers⟩)
  · exact (pair_covered p hp).imp_left List.mem_map.1

/-- An address that is told of before the start, and one from which a check comes after it, have
their pair each. -/
theorem pairing_complete_after_check :
    let peer : PeerId := ⟨List.replicate 16 0, rfl⟩
    let id : UInt8 → TransactionId := fun n => ⟨List.replicate 12 n, List.length_replicate⟩
    let near : SocketAddress := .v4 ⟨10, 0, 0, 1⟩ 5000
    let far : SocketAddress := .v4 ⟨10, 0, 0, 2⟩ 6000
    let farther : SocketAddress := .v4 ⟨10, 0, 0, 3⟩ 6000
    let a := (new peer true 7 0).run [
      .signal .agentCandidate (CandidateNotice.payload ⟨3, Candidate.peerReflexive far⟩) 0 (id 0),
      .start 5 [near] false none (id 1),
      .datagram farther (BindingMessage.request ⟨id 2, 0, false⟩).encode 10 (id 3)]
    a.theirs.map Candidate.address = [far, farther] ∧
      (a.checks.pairs.map Pair.remote).count far = 1 ∧
      (a.checks.pairs.map Pair.remote).count farther = 1 := by
  intro peer id near far farther a
  have reachable : a.Reachable := ⟨_, _, _, _, _, rfl⟩
  have started : a.state ≠ .new := by decide +kernel
  have known : a.theirs.map Candidate.address = [far, farther] := by decide +kernel
  have ours : a.ours.map Candidate.address = [near] := by decide +kernel
  clear_value a
  have paired := ((pairing_complete reachable).1 started).2.1
  have version : ∀ address : SocketAddress, near.isV4 = address.isV4 →
      ∃ c ∈ a.ours, c.address.isV4 = address.isV4 := by
    intro address hversion
    obtain ⟨c, hc, hnear⟩ := List.mem_map.1 (ours ▸ List.mem_singleton_self near)
    exact ⟨c, hc, hnear ▸ hversion⟩
  have counted : ∀ address ∈ [far, farther], near.isV4 = address.isV4 →
      (a.checks.pairs.map Pair.remote).count address = 1 := by
    intro address hmem hversion
    rw [← known] at hmem
    obtain ⟨c, hc, rfl⟩ := List.mem_map.1 hmem
    exact paired c hc (version c.address hversion)
  exact ⟨known, counted far (by simp) rfl, counted farther (by simp) rfl⟩

end Agent
end Parley

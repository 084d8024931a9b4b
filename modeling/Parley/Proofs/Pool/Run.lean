import Parley.Pool
import Parley.Proofs.Link.Knowledge
/-!
Runs of a pool.

An `Event` is one call of the pool with what it finds outside, and a pool is `Reachable` when it is
what a run has made of an empty one. What an operation does is said peer by peer, by what the pool
holds for each (`held_update`, `held_work`, `held_removeIf`, `held_ensure`). That is never more than
one agent (`Reachable.distinct`), so that a broadcast sends to each peer once
(`Reachable.broadcast_sends`).
-/
namespace Parley

namespace Slot

/-- The slot after its agent has gone through a run. -/
def run (s : Slot) (es : List Agent.Event) : Slot := { s with agent := s.agent.run es }

@[simp] theorem run_nil (s : Slot) : s.run [] = s := rfl

@[simp] theorem peer_run (s : Slot) (es : List Agent.Event) : (s.run es).peer = s.peer :=
  (s.agent.run_identity es).1

theorem peer_run_of (g : Slot → List Agent.Event) {peer : PeerId} (s : Slot) (h : s.peer = peer) :
    (s.run (g s)).peer = peer := (s.peer_run (g s)).trans h

theorem run_run (s : Slot) (es fs : List Agent.Event) : (s.run es).run fs = s.run (es ++ fs) :=
  congrArg (Slot.mk · s.port) (s.agent.run_append es fs).symm

end Slot

namespace Pool

/-- What can be done with a pool. -/
inductive Event where
  | ensure (peer : PeerId) (o : Occasion)
  | negotiate (peer : PeerId) (kind : MessageKind) (data : String) (o : Occasion)
  | ping (peer : PeerId) (o : Occasion)
  | datagram (peer : PeerId) (source : SocketAddress) (octets : Bytes) (o : Occasion)
  | tick (peer : PeerId) (o : Occasion)
  | touch (peer : PeerId) (now : Nat)
  | setLocalId (id : PeerId)
  | prune (now : Nat)
  | sent (n : Nat)
  | pop (now : Nat)
  | drain (now : Nat)
  | shutdown

/-- The pool after an event. An agent that cannot be created leaves it as it is. -/
def step (p : Pool) : Event → Pool
  | .ensure peer o => (p.ensure peer o).toOption.getD p
  | .negotiate peer kind data o => (p.negotiate peer kind data o).1
  | .ping peer o => (p.ping peer o).1
  | .datagram peer source octets o => (p.onDatagram peer source octets o).1
  | .tick peer o => (p.tick peer o).1
  | .touch peer now => p.touch peer now
  | .setLocalId id => p.setLocalId id
  | .prune now => p.prune now
  | .sent n => p.countSent n
  | .pop now => { p with inbox := (p.inbox.pop now).1 }
  | .drain now => { p with inbox := (p.inbox.drain now).1 }
  | .shutdown => p.shutdown

/-- The pool after a run. -/
def run (p : Pool) (es : List Event) : Pool := es.foldl step p

theorem run_concat (p : Pool) (es : List Event) (e : Event) :
    p.run (es ++ [e]) = (p.run es).step e := List.foldl_append

/-- A pool that a run has made of an empty one. -/
def Reachable (p : Pool) : Prop := ∃ includeLoopback es, p = (new includeLoopback).run es

/-- The agents that a pool holds for a peer. -/
def held (p : Pool) (peer : PeerId) : List Slot := p.slots.filter (·.peer == peer)

theorem slot?_eq (p : Pool) (peer : PeerId) : p.slot? peer = (p.held peer).head? :=
  List.head?_filter.symm

theorem peer_of_held {p : Pool} {peer : PeerId} {s : Slot} (h : s ∈ p.held peer) :
    s.peer = peer := beq_iff_eq.1 (List.mem_filter.1 h).2

theorem peer_of_slot? {p : Pool} {peer : PeerId} {s : Slot} (h : p.slot? peer = some s) :
    s.peer = peer := by
  rw [slot?_eq] at h
  exact peer_of_held (List.mem_of_mem_head? h)

/-- There is at most one agent for each peer. -/
def Distinct (p : Pool) : Prop := ∀ peer, (p.held peer).length ≤ 1

theorem Distinct.cases {p : Pool} (h : p.Distinct) (peer : PeerId) :
    p.held peer = [] ∨ ∃ s, p.held peer = [s] := by
  have few := h peer
  match hheld : p.held peer with
  | [] => exact .inl rfl
  | [s] => exact .inr ⟨s, rfl⟩
  | _ :: _ :: _ =>
    rw [hheld] at few
    simp at few

/-! ### What the operations leave of the agents -/

theorem held_map {p q : Pool} {f : Slot → Slot} (mapped : q.slots = p.slots.map f)
    (same : ∀ s, (f s).peer = s.peer) (peer : PeerId) : q.held peer = (p.held peer).map f := by
  rw [held, mapped, List.filter_map]
  refine congrArg _ (List.filter_congr fun s _ => ?_)
  show ((f s).peer == peer) = (s.peer == peer)
  rw [same]

/-- Changing the agent of a peer changes what is held for that peer, and nothing else. -/
theorem held_update {p : Pool} {peer : PeerId} {f : Slot → Slot}
    (keeps : ∀ s, s.peer = peer → (f s).peer = peer) (other : PeerId) :
    (p.update peer f).held other =
      if other = peer then (p.held other).map f else p.held other := by
  have same : ∀ s : Slot, (if s.peer = peer then f s else s).peer = s.peer := by
    intro s
    by_cases hs : s.peer = peer
    · rw [if_pos hs, keeps s hs, hs]
    · rw [if_neg hs]
  have mapped : (p.update peer f).held other =
      (p.held other).map fun s => if s.peer = peer then f s else s := held_map rfl same other
  rw [mapped]
  by_cases hother : other = peer
  · rw [if_pos hother]
    exact List.map_congr_left fun s hs => if_pos ((peer_of_held hs).trans hother)
  · rw [if_neg hother]
    refine (List.map_congr_left fun s hs => ?_).trans (List.map_id _)
    exact if_neg fun h => hother ((peer_of_held hs).symm.trans h)

theorem held_work {p : Pool} (h : p.Distinct) {peer : PeerId} {f : Slot → Slot}
    (keeps : ∀ s, s.peer = peer → (f s).peer = peer) (other : PeerId) :
    (p.work peer f).1.held other =
      if other = peer then (p.held other).map fun s => (f s).run [.takeDatagrams, .takeSignals]
      else p.held other := by
  unfold work
  rw [slot?_eq]
  -- The agent that is found takes the place of all that are held for the peer: it is the only one.
  rcases h.cases peer with none | ⟨s, one⟩
  · rw [none]
    show p.held other = _
    split
    · rename_i same
      rw [same, none]
      rfl
    · rfl
  · have hs : s.peer = peer := peer_of_held (one ▸ List.mem_singleton_self s)
    rw [one]
    show (p.update peer fun _ => (f s).run [.takeDatagrams, .takeSignals]).held other = _
    rw [held_update fun _ _ => (Slot.peer_run ..).trans (keeps s hs)]
    split
    · rename_i same
      rw [same, one]
      rfl
    · rfl

theorem held_remove (p : Pool) (peer other : PeerId) :
    (p.remove peer).held other = if other = peer then [] else p.held other := by
  rw [held, remove, List.filter_filter]
  split
  · rename_i same
    rw [List.filter_eq_nil_iff]
    intro s _
    simp [same]
  · rename_i different
    refine List.filter_congr fun s _ => ?_
    by_cases hs : s.peer = other
    · simp [hs, different]
    · simp [hs]

/-- Of what is held for the peer only an agent stays that is not as the condition says. -/
theorem held_removeIf {p : Pool} (h : p.Distinct) (peer : PeerId) (condition : Agent → Bool)
    (other : PeerId) : (p.removeIf peer condition).held other =
      if other = peer then (p.held other).filter fun s => !condition s.agent
      else p.held other := by
  unfold removeIf agent?
  rw [slot?_eq]
  rcases h.cases peer with none | ⟨s, one⟩
  · rw [none]
    show p.held other = _
    split
    · rename_i same
      rw [same, none]
      rfl
    · rfl
  · rw [one]
    show (if condition s.agent then p.remove peer else p).held other = _
    by_cases hs : condition s.agent
    · rw [if_pos hs, held_remove]
      split
      · rename_i same
        simp [same, one, hs]
      · rfl
    · rw [if_neg hs]
      split
      · rename_i same
        simp [same, one, hs]
      · rfl

/-! ### Creation -/

/-- The agent that is created for a peer, with the port of its socket. -/
def fresh (p : Pool) (peer : PeerId) (o : Occasion) : Slot :=
  ⟨Agent.new peer (p.controls peer) (o.supply peer).session o.now, (o.supply peer).port⟩

/-- Whether an agent may be created for a peer. -/
structure Admits (p : Pool) (peer : PeerId) : Prop where
  running : p.running = true
  notServer : peer ≠ PeerId.server
  notLocal : p.localId ≠ some peer

/-- A pool has an agent for a peer after its creation: the one that was there, or a new one. -/
theorem ensure_eq_ok {p q : Pool} {peer : PeerId} {o : Occasion} (h : p.ensure peer o = .ok q) :
    p.held peer ≠ [] ∧ q = p ∨
      p.held peer = [] ∧ p.Admits peer ∧ q = { p with slots := p.slots ++ [p.fresh peer o] } := by
  unfold ensure at h
  rw [slot?_eq] at h
  cases hrunning : p.running with
  | false => simp [hrunning] at h
  | true =>
    cases hheld : p.held peer with
    | nil =>
      right
      simp only [hrunning, hheld, Bool.not_true, Bool.false_eq_true, if_false,
        List.head?_nil] at h
      split at h
      · cases h
      · rename_i hvalid
        cases h
        exact ⟨rfl, ⟨hrunning, fun hs => hvalid (.inl hs), fun hl => hvalid (.inr hl)⟩, rfl⟩
    | cons s rest =>
      simp only [hrunning, hheld, Bool.not_true, Bool.false_eq_true, if_false,
        List.head?_cons, Except.ok.injEq] at h
      exact .inl ⟨List.cons_ne_nil s rest, h.symm⟩

theorem Admits.ensure {p : Pool} {peer : PeerId} (h : p.Admits peer) (o : Occasion) :
    ∃ q, p.ensure peer o = .ok q := by
  unfold Pool.ensure
  rw [if_neg (by rw [h.running]; decide)]
  cases p.slot? peer with
  | some s => exact ⟨p, rfl⟩
  | none =>
    refine ⟨_, if_neg ?_⟩
    rintro (hs | hl)
    · exact h.notServer hs
    · exact h.notLocal hl

theorem held_ensure {p q : Pool} {peer : PeerId} {o : Occasion} (h : p.ensure peer o = .ok q)
    (other : PeerId) : q.held other =
      if other = peer ∧ p.held peer = [] then [p.fresh peer o] else p.held other := by
  rcases ensure_eq_ok h with ⟨there, rfl⟩ | ⟨missing, -, rfl⟩
  · rw [if_neg fun hboth => there hboth.2]
  · have appended : held { p with slots := p.slots ++ [p.fresh peer o] } other =
        p.held other ++ if peer = other then [p.fresh peer o] else [] := by
      rw [held, List.filter_append, held]
      by_cases same : peer = other <;> simp [same, Slot.peer, fresh, Agent.new]
    rw [appended]
    by_cases same : peer = other
    · subst same
      rw [if_pos rfl, if_pos ⟨rfl, missing⟩, missing, List.nil_append]
    · rw [if_neg same, List.append_nil, if_neg fun hboth => same hboth.1.symm]

/-! ### Negotiation -/

/-- The event by which a pool starts an agent. -/
def startEvent (p : Pool) (o : Occasion) (s : Slot) : Agent.Event :=
  .start o.now (localAddresses o.interfaces s.port p.includeLoopback) p.includeLoopback
    o.stunServer (o.supply s.peer).queryId

theorem startSlot_eq (p : Pool) (o : Occasion) (s : Slot) :
    p.startSlot o s = s.run [p.startEvent o s] := rfl

@[simp] theorem startEvent_run (p : Pool) (o : Occasion) (s : Slot) (es : List Agent.Event) :
    p.startEvent o (s.run es) = p.startEvent o s := by
  unfold startEvent
  rw [Slot.peer_run]
  rfl

/-- Whether an inbound message shows an agent to be out of date. -/
def outdates (kind : MessageKind) (data : String) (a : Agent) : Bool :=
  if Message.isPing kind data then a.state.isTerminal
  else if kind = .agentLocalDescription then
    match Description.ofPayload? data with
    | some d => a.shouldReplace d.session
    | none => false
  else false

theorem removeIf_never (p : Pool) (peer : PeerId) : (p.removeIf peer fun _ => false) = p := by
  unfold removeIf
  split <;> rfl

theorem replaceFor_eq (p : Pool) (peer : PeerId) (kind : MessageKind) (data : String) :
    p.replaceFor peer kind data = p.removeIf peer (outdates kind data) := by
  unfold replaceFor
  by_cases ping : Message.isPing kind data
  · rw [if_pos ping]
    refine congrArg (p.removeIf peer) (funext fun a => ?_)
    rw [outdates, if_pos ping]
  · rw [if_neg ping]
    by_cases described : kind = .agentLocalDescription
    · rw [if_pos described]
      cases hd : Description.ofPayload? data with
      | some d =>
        refine congrArg (p.removeIf peer) (funext fun a => ?_)
        rw [outdates, if_neg ping, if_pos described, hd]
      | none =>
        refine (p.removeIf_never peer).symm.trans (congrArg _ (funext fun a => ?_))
        rw [outdates, if_neg ping, if_pos described, hd]
    · rw [if_neg described]
      refine (p.removeIf_never peer).symm.trans (congrArg _ (funext fun a => ?_))
      rw [outdates, if_neg ping, if_neg described]

/-- What the agent of a peer goes through when a message of that peer is handed to it. -/
def hearing (p : Pool) (peer : PeerId) (kind : MessageKind) (data : String) (o : Occasion)
    (s : Slot) : List Agent.Event :=
  .signal kind data o.now (o.supply peer).nominationId ::
    if starts kind data then [p.startEvent o s] else []

/-- A message that finds no agent, and cannot have one created, drops the agent that it outdates at
most. -/
theorem negotiate_of_error {p : Pool} {peer : PeerId} {kind : MessageKind} {data : String}
    {o : Occasion} {e : PoolError}
    (h : (p.removeIf peer (outdates kind data)).ensure peer o = .error e) :
    p.negotiate peer kind data o = (p.removeIf peer (outdates kind data), .error e) := by
  unfold negotiate
  simp only [replaceFor_eq, h]

/-- Otherwise the agent, which may be new, hears it. -/
theorem negotiate_of_ok {p q : Pool} {peer : PeerId} {kind : MessageKind} {data : String}
    {o : Occasion} (h : (p.removeIf peer (outdates kind data)).ensure peer o = .ok q) :
    p.negotiate peer kind data o =
      ((q.work peer fun s => s.run (q.hearing peer kind data o s)).1,
        .ok (q.work peer fun s => s.run (q.hearing peer kind data o s)).2) := by
  have heard : (fun s => s.run (q.hearing peer kind data o s)) = fun s : Slot =>
      let a := (s.agent.applySignal kind data o.now (o.supply peer).nominationId).1
      let s := { s with agent := a }
      if starts kind data then q.startSlot o s else s := by
    funext s
    by_cases starting : starts kind data
    · rw [hearing, if_pos starting]
      simp only [if_pos starting]
      show _ = q.startSlot o (s.run [.signal kind data o.now (o.supply peer).nominationId])
      rw [startSlot_eq, startEvent_run, Slot.run_run]
      rfl
    · rw [hearing, if_neg starting]
      simp only [if_neg starting]
      rfl
  rw [heard]
  unfold negotiate
  simp only [replaceFor_eq, h]

/-- A ping drops a finished agent, and starts one that has not started. -/
theorem ping_of_ok {p q : Pool} {peer : PeerId} {o : Occasion}
    (h : (p.removeIf peer (·.state.isTerminal)).ensure peer o = .ok q) :
    p.ping peer o = ((q.work peer fun s => s.run [q.startEvent o s]).1,
      .ok { (q.work peer (q.startSlot o)).2 with
        signals := Message.ping peer :: (q.work peer (q.startSlot o)).2.signals }) := by
  unfold ping replaceFinished
  simp only [h]
  rfl

theorem ping_of_error {p : Pool} {peer : PeerId} {o : Occasion} {e : PoolError}
    (h : (p.removeIf peer (·.state.isTerminal)).ensure peer o = .error e) :
    p.ping peer o = (p.removeIf peer (·.state.isTerminal), .error e) := by
  unfold ping replaceFinished
  simp only [h]

/-! ### One agent for each peer -/

theorem new_distinct (includeLoopback : Bool) : (new includeLoopback).Distinct :=
  fun _ => Nat.zero_le _

theorem Distinct.of_le {p q : Pool} (h : p.Distinct)
    (le : ∀ peer, (q.held peer).length ≤ (p.held peer).length) : q.Distinct :=
  fun peer => Nat.le_trans (le peer) (h peer)

theorem Distinct.work {p : Pool} (h : p.Distinct) {peer : PeerId} {f : Slot → Slot}
    (keeps : ∀ s, s.peer = peer → (f s).peer = peer) : (p.work peer f).1.Distinct := by
  refine h.of_le fun other => ?_
  rw [held_work h keeps]
  split
  · rw [List.length_map]
  · exact Nat.le_refl _

theorem Distinct.removeIf {p : Pool} (h : p.Distinct) (peer : PeerId) (condition : Agent → Bool) :
    (p.removeIf peer condition).Distinct := by
  refine h.of_le fun other => ?_
  rw [held_removeIf h]
  split
  · exact List.length_filter_le ..
  · exact Nat.le_refl _

theorem Distinct.ensure {p q : Pool} (h : p.Distinct) {peer : PeerId} {o : Occasion}
    (ok : p.ensure peer o = .ok q) : q.Distinct := by
  intro other
  rw [held_ensure ok]
  split
  · exact Nat.le_refl _
  · exact h other

/-- Whatever is dropped, created and changed, no peer comes to have two agents. -/
theorem step_distinct {p : Pool} (h : p.Distinct) (e : Event) : (p.step e).Distinct := by
  cases e with
  | ensure peer o =>
    rw [step]
    cases ok : p.ensure peer o with
    | error => exact h
    | ok q => exact h.ensure ok
  | negotiate peer kind data o =>
    rw [step]
    have removed := h.removeIf peer (outdates kind data)
    cases ok : (p.removeIf peer (outdates kind data)).ensure peer o with
    | error =>
      rw [negotiate_of_error ok]
      exact removed
    | ok q =>
      rw [negotiate_of_ok ok]
      exact (removed.ensure ok).work (Slot.peer_run_of _)
  | ping peer o =>
    rw [step]
    have removed := h.removeIf peer (·.state.isTerminal)
    cases ok : (p.removeIf peer (·.state.isTerminal)).ensure peer o with
    | error =>
      rw [ping_of_error ok]
      exact removed
    | ok q =>
      rw [ping_of_ok ok]
      exact (removed.ensure ok).work (Slot.peer_run_of _)
  | datagram peer source octets o =>
    rw [step, onDatagram]
    cases found : p.slot? peer with
    | none => exact h
    | some s =>
      have hs := peer_of_slot? found
      have heard := (s.agent.step_identity
        (.datagram source octets o.now (o.supply peer).nominationId)).1
      have keeps : ∀ t : Slot, t.peer = peer → Slot.peer { t with
          agent := (s.agent.onDatagram source octets o.now (o.supply peer).nominationId).1 } =
            peer := fun _ _ => heard.trans hs
      simp only
      split
      · refine Distinct.work ?_ keeps
        exact h
      · exact h.work keeps
  | tick peer o =>
    show (p.work peer fun s => s.run [.tick o.now (o.supply peer).checkId
      (o.supply peer).nominationId]).1.Distinct
    exact h.work (Slot.peer_run_of _)
  | touch peer now =>
    refine h.of_le fun other => ?_
    show ((p.update peer fun s => s.run [.touch now]).held other).length ≤ _
    rw [held_update (Slot.peer_run_of _)]
    split
    · rw [List.length_map]
    · exact Nat.le_refl _
  | setLocalId id =>
    refine h.of_le fun other => ?_
    have mapped : (p.setLocalId id).slots =
        p.slots.map fun s => s.run [.setControlling (id.isAbove s.peer)] := rfl
    rw [step, held_map mapped fun _ => Slot.peer_run .., List.length_map]
  | prune now =>
    refine h.of_le fun other => ?_
    exact (List.Sublist.filter _ List.filter_sublist).length_le
  | sent | pop | drain => exact h
  | shutdown =>
    rw [step, shutdown]
    split
    · exact fun _ => Nat.zero_le _
    · exact h

/-- **No run gives a peer a second agent.** -/
theorem Reachable.distinct {p : Pool} (h : p.Reachable) : p.Distinct := by
  obtain ⟨includeLoopback, es, rfl⟩ := h
  induction es using List.reverseRecOn with
  | nil => exact new_distinct includeLoopback
  | append_singleton es e ih =>
    rw [run_concat]
    exact step_distinct ih e

/-! ### Game data -/

section GameData
variable {p : Pool} {payload octets : Bytes} {peer : PeerId} {destination : SocketAddress}

theorem mem_prepareBroadcast : (peer, destination, octets) ∈ p.prepareBroadcast payload ↔
    ∃ s ∈ p.held peer, s.agent.prepareSend payload = .ok (destination, octets) := by
  constructor
  · intro h
    obtain ⟨s, hs, prepared⟩ := List.mem_filterMap.1 h
    split at prepared
    · rename_i ready
      cases prepared
      exact ⟨s, List.mem_filter.2 ⟨hs, beq_self_eq_true _⟩, ready⟩
    · cases prepared
  · rintro ⟨s, hs, ready⟩
    refine List.mem_filterMap.2 ⟨s, (List.mem_filter.1 hs).1, ?_⟩
    rw [ready, peer_of_held hs]

theorem Distinct.prepareSend_eq_ok (h : p.Distinct) :
    p.prepareSend peer payload = .ok (destination, octets) ↔
      ∃ s ∈ p.held peer, s.agent.prepareSend payload = .ok (destination, octets) := by
  unfold prepareSend agent?
  rw [slot?_eq]
  rcases h.cases peer with none | ⟨s, one⟩
  · simp [none]
  · simp [one]

theorem Distinct.peers_nodup (h : p.Distinct) : (p.slots.map Slot.peer).Nodup := by
  refine List.nodup_iff_count_le_one.2 fun peer => ?_
  rw [List.count_eq_countP, List.countP_map, List.countP_eq_length_filter]
  exact h peer

/-- **A broadcast sends to each peer once, and just what is sent to that peer alone.** -/
theorem Reachable.broadcast_sends (h : p.Reachable) (payload : Bytes) :
    ((p.prepareBroadcast payload).map Prod.fst).Nodup ∧
      ∀ peer destination octets, (peer, destination, octets) ∈ p.prepareBroadcast payload ↔
        p.prepareSend peer payload = .ok (destination, octets) := by
  refine ⟨?_, fun peer destination octets => ?_⟩
  · rw [List.Nodup, List.pairwise_map, prepareBroadcast, List.pairwise_filterMap]
    refine (List.pairwise_map.1 h.distinct.peers_nodup).imp fun {s t} differ a ha b hb same => ?_
    split at ha <;> cases ha
    split at hb <;> cases hb
    exact differ same
  · rw [mem_prepareBroadcast, h.distinct.prepareSend_eq_ok]

/-- A broadcast is one more event of the run. -/
theorem Reachable.broadcast (h : p.Reachable) (payload : Bytes)
    (takes : PeerId × SocketAddress × Bytes → Bool) : (p.broadcast payload takes).1.Reachable := by
  obtain ⟨includeLoopback, es, rfl⟩ := h
  refine ⟨includeLoopback,
    es ++ [.sent (((new includeLoopback).run es).broadcast payload takes).2], ?_⟩
  rw [run_concat]
  rfl

end GameData

end Pool
end Parley

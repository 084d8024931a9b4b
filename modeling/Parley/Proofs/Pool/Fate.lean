import Parley.Proofs.Link.Activity
import Parley.Proofs.Pool.Replacement
/-!
What becomes of the agent of a peer.

`Fate` lists what an event may make of the agent that a pool holds for a peer: it goes on, it is
dropped, or one that has just been created takes its place. A peer for which an agent may be created
loses its own by pruning only, and the others, which are the server and ourselves, also by a message
or a ping that finds the agent out of date (`Discards`). What follows for runs of a pool is who has
an agent afterwards, and since when the agents have heard of their peers.
-/
namespace Parley

theorem Agent.start_unfinished (a : Agent) (unfinished : a.state.isTerminal = false) (now : Nat)
    (addresses : List SocketAddress) (includeLoopback : Bool) (stunServer : Option SocketAddress)
    (id : TransactionId) :
    (a.start now addresses includeLoopback stunServer id).state.isTerminal = false := by
  by_cases h : a.state = .new
  · rw [(start_learns h now addresses includeLoopback stunServer id).state]
    rfl
  · rwa [start, if_neg h]

namespace Pool

/-- When an event happens. What is done without looking at the time has none. -/
def Event.now? : Event → Option Nat
  | .ensure _ o | .negotiate _ _ _ o | .ping _ o | .datagram _ _ _ o | .tick _ o => some o.now
  | .touch _ now | .prune now | .pop now | .drain now => some now
  | .setLocalId _ | .sent _ | .shutdown => none

/-- Why an event drops an agent and leaves its peer without one. -/
inductive Discards (p : Pool) (s : Slot) : Event → Prop where
  | idle {now : Nat} (idle : isIdle now s = true) : Discards p s (.prune now)
  | outdated {peer : PeerId} {kind : MessageKind} {data : String} {o : Occasion}
      (own : s.peer = peer) (outdated : outdates kind data s.agent = true)
      (refused : ¬p.Admits peer) : Discards p s (.negotiate peer kind data o)
  | finished {peer : PeerId} {o : Occasion} (own : s.peer = peer)
      (finished : s.agent.state.isTerminal = true) (refused : ¬p.Admits peer) :
      Discards p s (.ping peer o)
  | shutdown (running : p.running = true) : Discards p s .shutdown

/-- Why an event ends the time of an agent, which is dropped or gives way to a new one. -/
inductive Ends (p : Pool) (s : Slot) : Event → Prop where
  | idle {now : Nat} (idle : isIdle now s = true) : Ends p s (.prune now)
  | outdated {peer : PeerId} {kind : MessageKind} {data : String} {o : Occasion}
      (own : s.peer = peer) (outdated : outdates kind data s.agent = true) :
      Ends p s (.negotiate peer kind data o)
  | finished {peer : PeerId} {o : Occasion} (own : s.peer = peer)
      (finished : s.agent.state.isTerminal = true) : Ends p s (.ping peer o)
  | shutdown (running : p.running = true) : Ends p s .shutdown

/-- What an agent goes through at an event of the pool: it happens when that does, and gives no role
unless that gives us an identity. -/
structure Brings (e : Event) (es : List Agent.Event) : Prop where
  timed : ∀ x ∈ es, ∀ now, x.now? = some now → e.now? = some now
  role : ∀ controlling, .setControlling controlling ∈ es → ∃ id, e = .setLocalId id

/-- What an event makes of the agent that is held for a peer. -/
inductive Fate (p : Pool) (e : Event) (peer : PeerId) : Prop where
  | missing (before : p.held peer = []) (after : (p.step e).held peer = [])
  | goesOn {s : Slot} {es : List Agent.Event} (before : p.held peer = [s])
      (after : (p.step e).held peer = [s.run es]) (brings : Brings e es) (spared : ¬p.Ends s e)
  | created {o : Occasion} {es : List Agent.Event} (admits : p.Admits peer)
      (now : e.now? = some o.now) (after : (p.step e).held peer = [(p.fresh peer o).run es])
      (brings : Brings e es) (vacant : ∀ s, p.held peer = [s] → p.Ends s e)
  | dropped {s : Slot} (before : p.held peer = [s]) (after : (p.step e).held peer = [])
      (discards : p.Discards s e)

theorem Discards.ends {p : Pool} {s : Slot} {e : Event} (h : p.Discards s e) : p.Ends s e := by
  cases h with
  | idle idle => exact .idle idle
  | outdated own outdated => exact .outdated own outdated
  | finished own finished => exact .finished own finished
  | shutdown running => exact .shutdown running

theorem brings_nil (e : Event) : Brings e [] := by
  constructor
  · exact fun _ h => nomatch h
  · exact fun _ h => nomatch h

theorem brings_one {e : Event} {x : Agent.Event}
    (timed : ∀ now, x.now? = some now → e.now? = some now)
    (role : ∀ controlling, x = .setControlling controlling → ∃ id, e = .setLocalId id) :
    Brings e [x] := by
  refine ⟨fun y hy now hnow => ?_, fun controlling given => ?_⟩
  · rw [List.mem_singleton.1 hy] at hnow
    exact timed now hnow
  · exact role controlling (List.mem_singleton.1 given).symm

theorem Brings.append {e : Event} {es fs : List Agent.Event} (h : Brings e es)
    (h' : Brings e fs) : Brings e (es ++ fs) :=
  ⟨fun x hx => (List.mem_append.1 hx).elim (h.timed x) (h'.timed x),
    fun controlling given => (List.mem_append.1 given).elim (h.role controlling)
      (h'.role controlling)⟩

theorem Brings.taken {e : Event} {es : List Agent.Event} (h : Brings e es) :
    Brings e (es ++ [.takeDatagrams, .takeSignals]) :=
  have datagrams : Brings e [.takeDatagrams] := brings_one (by rintro _ ⟨⟩) (by rintro _ ⟨⟩)
  have signals : Brings e [.takeSignals] := brings_one (by rintro _ ⟨⟩) (by rintro _ ⟨⟩)
  h.append (datagrams.append signals)

/-- An event in which an agent that is there goes through some events of its own. -/
theorem Fate.of_run {p : Pool} (h : p.Distinct) {e : Event} {peer : PeerId}
    (g : Slot → List Agent.Event) (brings : ∀ s, Brings e (g s))
    (spared : ∀ s ∈ p.held peer, ¬p.Ends s e)
    (after : (p.step e).held peer = (p.held peer).map fun s => s.run (g s)) : p.Fate e peer := by
  rcases h.cases peer with none | ⟨s, one⟩
  · exact .missing none (by rw [after, none]; rfl)
  · exact .goesOn one (by rw [after, one]; rfl) (brings s)
      (spared s (one ▸ List.mem_singleton_self s))

theorem Fate.same {p : Pool} (h : p.Distinct) {e : Event} {peer : PeerId}
    (spared : ∀ s ∈ p.held peer, ¬p.Ends s e)
    (same : (p.step e).held peer = p.held peer) : p.Fate e peer :=
  .of_run h (fun _ => []) (fun _ => brings_nil e) spared (same.trans (List.map_id _).symm)

/-! ### Operations that may drop an agent -/

theorem admits_of_removeIf {p : Pool} {peer : PeerId} {condition : Agent → Bool}
    (h : (p.removeIf peer condition).Admits peer) : p.Admits peer := by
  unfold removeIf at h
  split at h
  · split at h
    · exact ⟨h.running, h.notServer, h.notLocal⟩
    · exact h
  · exact h

/-- An operation that drops the agent of a peer on some condition, and has the agent that is there
then, which it creates if it can, go through some events. -/
structure Renews (p : Pool) (e : Event) (peer : PeerId) (o : Occasion) (condition : Agent → Bool)
    (g : Pool → Slot → List Agent.Event) : Prop where
  now : e.now? = some o.now
  brings : ∀ q s, Brings e (g q s)
  ok : ∀ q, (p.removeIf peer condition).ensure peer o = .ok q →
    p.step e = (q.work peer fun s => s.run (g q s)).1
  error : ∀ err, (p.removeIf peer condition).ensure peer o = .error err →
    p.step e = p.removeIf peer condition
  ends : ∀ s : Slot, p.Ends s e ↔ s.peer = peer ∧ condition s.agent = true
  discards : ∀ s : Slot, s.peer = peer → condition s.agent = true → ¬p.Admits peer →
    p.Discards s e

section Renews
variable {p : Pool} {e : Event} {peer : PeerId} {o : Occasion} {condition : Agent → Bool}
  {g : Pool → Slot → List Agent.Event} (renews : p.Renews e peer o condition g) (h : p.Distinct)
include renews h

theorem Renews.held_others {other : PeerId} (different : other ≠ peer) :
    (p.step e).held other = p.held other := by
  have removed := held_removeIf h peer condition other
  rw [if_neg different] at removed
  cases ensured : (p.removeIf peer condition).ensure peer o with
  | error err => rw [renews.error err ensured, removed]
  | ok q =>
    have keeps : ∀ s : Slot, s.peer = peer → (s.run (g q s)).peer = peer := Slot.peer_run_of (g q)
    have held := held_work ((h.removeIf peer condition).ensure ensured) keeps other
    rw [renews.ok q ensured, held, if_neg different, held_ensure ensured,
      if_neg fun both => different both.1, removed]

/-- An agent on which the condition is not met goes on, if there is anything to go through. -/
theorem Renews.held_kept {s : Slot} (one : p.held peer = [s]) (met : condition s.agent = false) :
    (p.step e).held peer = [s] ∨
      ∃ q, (p.step e).held peer = [s.run (g q s ++ [.takeDatagrams, .takeSignals])] := by
  have removed : (p.removeIf peer condition).held peer = [s] := by
    rw [held_removeIf h, if_pos rfl, one]
    simp [met]
  cases ensured : (p.removeIf peer condition).ensure peer o with
  | error err => exact .inl (by rw [renews.error err ensured, removed])
  | ok q =>
    have kept : q.held peer = [s] := by
      rw [held_ensure ensured, removed, if_neg fun both => List.cons_ne_nil _ _ both.2]
    refine .inr ⟨q, ?_⟩
    rw [renews.ok q ensured,
      held_work ((h.removeIf peer condition).ensure ensured) (Slot.peer_run_of (g q)), if_pos rfl,
      kept, List.map_singleton, Slot.run_run]

/-- Where there is no agent, or one on which the condition is met, a new one takes the place if it
can be created. -/
theorem Renews.held_vacant (vacant : (p.removeIf peer condition).held peer = []) :
    (¬p.Admits peer ∧ (p.step e).held peer = []) ∨
      (p.Admits peer ∧ ∃ q, (p.step e).held peer =
        [(p.fresh peer o).run (g q (p.fresh peer o) ++ [.takeDatagrams, .takeSignals])]) := by
  cases ensured : (p.removeIf peer condition).ensure peer o with
  | error err =>
    refine .inl ⟨fun admits => ?_, by rw [renews.error err ensured, vacant]⟩
    obtain ⟨q, ok⟩ := (removeIf_admits admits condition).ensure o
    rw [ok] at ensured
    cases ensured
  | ok q =>
    rcases ensure_eq_ok ensured with ⟨there, -⟩ | ⟨-, admits, -⟩
    · exact absurd vacant there
    · refine .inr ⟨admits_of_removeIf admits, q, ?_⟩
      rw [renews.ok q ensured,
        held_work ((h.removeIf peer condition).ensure ensured) (Slot.peer_run_of (g q)),
        if_pos rfl, held_ensure ensured, if_pos ⟨rfl, vacant⟩, removeIf_fresh, List.map_singleton,
        Slot.run_run]

theorem Renews.fate (other : PeerId) : p.Fate e other := by
  by_cases same : other = peer
  · subst same
    have removed := held_removeIf h other condition other
    rw [if_pos rfl] at removed
    rcases h.cases other with none | ⟨s, one⟩
    · rw [none] at removed
      rcases renews.held_vacant h removed with ⟨-, after⟩ | ⟨admits, q, after⟩
      · exact .missing none after
      · exact .created admits renews.now after (renews.brings q _).taken (by simp [none])
    · rw [one] at removed
      have hs : s.peer = other := peer_of_held (one ▸ List.mem_singleton_self s)
      cases met : condition s.agent with
      | true =>
        rcases renews.held_vacant h (removed.trans (by simp [met])) with
          ⟨refused, after⟩ | ⟨admits, q, after⟩
        · exact .dropped one after (renews.discards s hs met refused)
        · refine .created admits renews.now after (renews.brings q _).taken fun t ht => ?_
          obtain rfl : s = t := List.head_eq_of_cons_eq (one.symm.trans ht)
          exact (renews.ends s).2 ⟨hs, met⟩
      | false =>
        have spared : ¬p.Ends s e := fun ends =>
          Bool.noConfusion (met.symm.trans ((renews.ends s).1 ends).2)
        rcases renews.held_kept h one met with after | ⟨q, after⟩
        · exact .goesOn one (after.trans (by rw [Slot.run_nil])) (brings_nil e) spared
        · exact .goesOn one after (renews.brings q s).taken spared
  · refine .same h (fun s hs ends => ?_) (renews.held_others h same)
    exact same ((peer_of_held hs).symm.trans ((renews.ends s).1 ends).1)

end Renews

theorem negotiate_renews (p : Pool) (peer : PeerId) (kind : MessageKind) (data : String)
    (o : Occasion) : p.Renews (.negotiate peer kind data o) peer o (outdates kind data)
      fun q s => q.hearing peer kind data o s := by
  refine ⟨rfl, fun q s => ?_, fun q ok => ?_, fun err error => ?_, fun s => ⟨?_, ?_⟩, ?_⟩
  · have heard : Brings (.negotiate peer kind data o)
        [.signal kind data o.now (o.supply peer).nominationId] :=
      brings_one (fun _ h => h) (by rintro _ ⟨⟩)
    have started : Brings (.negotiate peer kind data o) [q.startEvent o s] :=
      brings_one (fun _ h => h) (by rintro _ ⟨⟩)
    unfold hearing
    split
    · exact heard.append started
    · exact heard
  · rw [step, negotiate_of_ok ok]
  · rw [step, negotiate_of_error error]
  · rintro ⟨⟩
    exact ⟨‹_›, ‹_›⟩
  · rintro ⟨own, outdated⟩
    exact .outdated own outdated
  · intro s own outdated refused
    exact .outdated own outdated refused

theorem ping_renews (p : Pool) (peer : PeerId) (o : Occasion) :
    p.Renews (.ping peer o) peer o (·.state.isTerminal) fun q s => [q.startEvent o s] := by
  refine ⟨rfl, fun q s => brings_one (fun _ h => h) (by rintro _ ⟨⟩), fun q ok => ?_,
    fun err error => ?_, fun s => ⟨?_, ?_⟩, ?_⟩
  · rw [step, ping_of_ok ok]
  · rw [step, ping_of_error error]
  · rintro ⟨⟩
    exact ⟨‹_›, ‹_›⟩
  · rintro ⟨own, finished⟩
    exact .finished own finished
  · intro s own finished refused
    exact .finished own finished refused

/-! ### One event -/

/-- An event in which the agent of one peer goes through some events of its own. -/
theorem Fate.of_peer {p : Pool} (h : p.Distinct) {e : Event} {peer other : PeerId}
    (g : Slot → List Agent.Event) (brings : ∀ s, Brings e (g s)) (spared : ∀ s, ¬p.Ends s e)
    (after : (p.step e).held other =
      if other = peer then (p.held other).map fun s => s.run (g s) else p.held other) :
    p.Fate e other := by
  by_cases same : other = peer
  · exact .of_run h g brings (fun s _ => spared s) (after.trans (if_pos same))
  · exact .same h (fun s _ => spared s) (after.trans (if_neg same))

theorem Distinct.held_of_mem {p : Pool} (h : p.Distinct) {peer : PeerId} {s : Slot}
    (hs : s ∈ p.held peer) : p.held peer = [s] := by
  rcases h.cases peer with none | ⟨t, one⟩
  · rw [none] at hs
    cases hs
  · rw [one, List.mem_singleton] at hs
    rw [one, hs]

theorem Distinct.held_of_slot? {p : Pool} (h : p.Distinct) {peer : PeerId} {s : Slot}
    (found : p.slot? peer = some s) : p.held peer = [s] := by
  rw [slot?_eq] at found
  rcases h.cases peer with none | ⟨t, one⟩
  · rw [none] at found
    cases found
  · rw [one] at found ⊢
    cases found
    rfl

theorem onDatagram_fate {p : Pool} (h : p.Distinct) (peer : PeerId) (source : SocketAddress)
    (octets : Bytes) (o : Occasion) (other : PeerId) :
    p.Fate (.datagram peer source octets o) other := by
  cases found : p.slot? peer with
  | none =>
    have step : p.step (.datagram peer source octets o) = p := by
      show (p.onDatagram peer source octets o).1 = p
      rw [onDatagram, found]
    exact .same h (by rintro _ _ ⟨⟩) (by rw [step])
  | some s =>
    have one := h.held_of_slot? found
    have hs : s.peer = peer := peer_of_held (one ▸ List.mem_singleton_self s)
    let heard : Agent.Event := .datagram source octets o.now (o.supply peer).nominationId
    -- The agent hears the datagram before it is put back, whatever the queue takes from it.
    have put (q : Pool) (slots : q.slots = p.slots) :
        (q.work peer fun t => { t with agent := s.agent.step heard }).1.held other =
          if other = peer then
            (p.held other).map fun t => t.run [heard, .takeDatagrams, .takeSignals]
          else p.held other := by
      have same (x : PeerId) : q.held x = p.held x := by rw [held, slots, held]
      have distinct : q.Distinct := fun x => same x ▸ h x
      have keeps : ∀ t : Slot, t.peer = peer →
          Slot.peer { t with agent := s.agent.step heard } = peer :=
        fun _ _ => (s.agent.step_identity heard).1.trans hs
      rw [held_work distinct keeps, same]
      split
      · rename_i same
        rw [same, one]
        rfl
      · rfl
    have brings : Brings (.datagram peer source octets o) [heard] :=
      brings_one (fun _ h => h) (by simp [heard])
    have after : (p.step (.datagram peer source octets o)).held other = if other = peer then
        (p.held other).map fun t => t.run [heard, .takeDatagrams, .takeSignals]
        else p.held other := by
      rw [step, onDatagram, found]
      simp only
      split
      · exact put _ rfl
      · exact put p rfl
    exact .of_peer h _ (fun _ => brings.taken) (by rintro _ ⟨⟩) after

theorem held_setLocalId (p : Pool) (id peer : PeerId) : (p.step (.setLocalId id)).held peer =
    (p.held peer).map fun s => s.run [.setControlling (id.isAbove s.peer)] :=
  held_map rfl (fun _ => Slot.peer_run ..) peer

/-- **Every event makes one of these of the agent of a peer.** -/
theorem step_fate {p : Pool} (h : p.Distinct) (e : Event) (other : PeerId) : p.Fate e other := by
  cases e with
  | ensure peer o =>
    cases ensured : p.ensure peer o with
    | error err =>
      have step : p.step (.ensure peer o) = p := by rw [step, ensured]; rfl
      exact .same h (by rintro _ _ ⟨⟩) (by rw [step])
    | ok q =>
      have step : p.step (.ensure peer o) = q := by rw [step, ensured]; rfl
      have held := held_ensure ensured other
      rw [← step] at held
      rcases ensure_eq_ok ensured with ⟨there, rfl⟩ | ⟨vacant, admits, -⟩
      · exact .same h (by rintro _ _ ⟨⟩) (by rw [step])
      · by_cases same : other = peer
        · subst same
          rw [if_pos ⟨rfl, vacant⟩] at held
          exact .created admits rfl (held.trans (by rw [Slot.run_nil])) (brings_nil _)
            (by simp [vacant])
        · exact .same h (by rintro _ _ ⟨⟩) (by rw [held, if_neg fun h => same h.1])
  | negotiate peer kind data o => exact (p.negotiate_renews peer kind data o).fate h other
  | ping peer o => exact (p.ping_renews peer o).fate h other
  | datagram peer source octets o => exact onDatagram_fate h peer source octets o other
  | tick peer o =>
    let due : Agent.Event := .tick o.now (o.supply peer).checkId (o.supply peer).nominationId
    have keeps : ∀ s : Slot, s.peer = peer → (s.run [due]).peer = peer := Slot.peer_run_of _
    have brings : Brings (.tick peer o) [due] := brings_one (fun _ h => h) (by simp [due])
    exact .of_peer h _ (fun _ => brings.taken) (by rintro _ ⟨⟩) (held_work h keeps other)
  | touch peer now =>
    have keeps : ∀ s : Slot, s.peer = peer → (s.run [.touch now]).peer = peer := Slot.peer_run_of _
    have brings : Brings (.touch peer now) [.touch now] :=
      brings_one (fun _ h => h) (by rintro _ ⟨⟩)
    exact .of_peer h _ (fun _ => brings) (by rintro _ ⟨⟩) (held_update keeps other)
  | setLocalId id =>
    have brings (s : Slot) : Brings (.setLocalId id) [.setControlling (id.isAbove s.peer)] :=
      brings_one (by rintro _ ⟨⟩) fun _ _ => ⟨id, rfl⟩
    exact .of_run h _ brings (by rintro _ _ ⟨⟩) (p.held_setLocalId id other)
  | prune now =>
    have held : (p.step (.prune now)).held other = (p.held other).filter fun s => !isIdle now s :=
      List.filter_comm ..
    rcases h.cases other with none | ⟨s, one⟩
    · exact .missing none (by rw [held, none]; rfl)
    · rw [one] at held
      cases idle : isIdle now s with
      | true => exact .dropped one (by simp [held, idle]) (.idle idle)
      | false =>
        have spared : ¬p.Ends s (.prune now) := by
          rintro ⟨late⟩
          simp [idle] at late
        exact .goesOn one (by simpa [idle] using held) (brings_nil _) spared
  | sent | pop | drain => exact .same h (by rintro _ _ ⟨⟩) rfl
  | shutdown =>
    cases hrunning : p.running with
    | false =>
      have step : p.step .shutdown = p := if_neg (by simp [hrunning])
      have spared (s : Slot) : ¬p.Ends s .shutdown := by
        rintro (_ | _ | _ | running)
        exact Bool.noConfusion (hrunning.symm.trans running)
      exact .same h (fun s _ => spared s) (by rw [step])
    | true =>
      have gone : (p.step .shutdown).held other = [] := by
        rw [step, shutdown, if_pos hrunning]
        rfl
      rcases h.cases other with none | ⟨s, one⟩
      · exact .missing none gone
      · exact .dropped one gone (.shutdown hrunning)

/-- An agent whose time an event does not end goes on. -/
theorem held_spared {p : Pool} (h : p.Distinct) {e : Event} {peer : PeerId} {s : Slot}
    (one : p.held peer = [s]) (spared : ¬p.Ends s e) :
    ∃ es, (p.step e).held peer = [s.run es] := by
  cases step_fate h e peer with
  | missing before =>
    rw [one] at before
    cases before
  | goesOn before after =>
    obtain rfl := List.head_eq_of_cons_eq (one.symm.trans before)
    exact ⟨_, after⟩
  | created _ _ _ _ vacant => exact absurd (vacant s one) spared
  | dropped before _ discards =>
    obtain rfl := List.head_eq_of_cons_eq (one.symm.trans before)
    exact absurd discards.ends spared

/-- One that it ends is dropped, or gives way to one that has been created. -/
theorem held_ended {p : Pool} (h : p.Distinct) {e : Event} {peer : PeerId} {s : Slot}
    (one : p.held peer = [s]) (ends : p.Ends s e) :
    (p.step e).held peer = [] ∨
      ∃ o es, p.Admits peer ∧ (p.step e).held peer = [(p.fresh peer o).run es] := by
  cases step_fate h e peer with
  | missing _ after | dropped _ after => exact .inl after
  | goesOn before _ _ spared =>
    obtain rfl := List.head_eq_of_cons_eq (one.symm.trans before)
    exact absurd ends spared
  | created admits _ after => exact .inr ⟨_, _, admits, after⟩

/-! ### Who has an agent -/

/-- There is an agent for a peer. -/
def HasAgent (p : Pool) (peer : PeerId) : Prop := ∃ a, p.agent? peer = some a

theorem mem_held {p : Pool} {s : Slot} (h : s ∈ p.slots) : s ∈ p.held s.peer :=
  List.mem_filter.2 ⟨h, beq_self_eq_true _⟩

theorem agent?_of_held {p : Pool} {peer : PeerId} {s : Slot} (one : p.held peer = [s]) :
    p.agent? peer = some s.agent := by
  rw [agent?, slot?_eq, one]
  rfl

theorem hasAgent_iff {p : Pool} {peer : PeerId} : p.HasAgent peer ↔ p.held peer ≠ [] := by
  unfold HasAgent agent?
  rw [slot?_eq]
  cases p.held peer <;> simp

/-- A peer loses its agent by an event that discards it. -/
theorem discards_of_lost {p : Pool} (h : p.Distinct) {e : Event} {peer : PeerId}
    (has : p.HasAgent peer) (lost : ¬(p.step e).HasAgent peer) :
    ∃ s, p.held peer = [s] ∧ p.Discards s e := by
  rw [hasAgent_iff] at has lost
  cases step_fate h e peer with
  | missing before => exact absurd before has
  | goesOn _ after | created _ _ after => exact absurd (after ▸ List.cons_ne_nil _ _) lost
  | dropped before _ discards => exact ⟨_, before, discards⟩

/-- The server never gets an agent. -/
theorem step_unserved {p : Pool} (h : p.Distinct) (unserved : ¬p.HasAgent PeerId.server)
    (e : Event) : ¬(p.step e).HasAgent PeerId.server := by
  rw [hasAgent_iff, not_not] at unserved ⊢
  cases step_fate h e PeerId.server with
  | missing _ after | dropped _ after => exact after
  | goesOn before =>
    rw [unserved] at before
    cases before
  | created admits => exact absurd rfl admits.notServer

/-- Who has heard of the peer since some time still has after an event that comes later. -/
theorem step_heard {p : Pool} (h : p.Distinct) {e : Event} {peer : PeerId} {t : Nat}
    (heard : ∀ s ∈ p.held peer, t ≤ s.agent.lastActivity)
    (later : ∀ now, e.now? = some now → t ≤ now) :
    ∀ s ∈ (p.step e).held peer, t ≤ s.agent.lastActivity := by
  intro s hs
  cases step_fate h e peer with
  | missing _ after | dropped _ after =>
    rw [after] at hs
    cases hs
  | @goesOn before es one after brings =>
    rw [after, List.mem_singleton] at hs
    rw [hs]
    have before := heard before (one ▸ List.mem_singleton_self before)
    exact Agent.run_heard before fun x hx now hnow =>
      later now (brings.timed x hx now hnow)
  | created _ now after brings =>
    rw [after, List.mem_singleton] at hs
    rw [hs]
    exact Agent.run_heard (later _ now) fun x hx now hnow =>
      later now (brings.timed x hx now hnow)

/-! ### Settings -/

/-- Whether an event leaves the pool open and our identity as it is. -/
def Event.isSteady : Event → Bool
  | .setLocalId _ | .shutdown => false
  | _ => true

/-- Two pools that are open or not alike, and agree on who we are. -/
def SameSettings (p q : Pool) : Prop := q.running = p.running ∧ q.localId = p.localId

theorem SameSettings.trans {p q r : Pool} (h : SameSettings p q) (h' : SameSettings q r) :
    SameSettings p r := ⟨h'.1.trans h.1, h'.2.trans h.2⟩

theorem SameSettings.admits {p q : Pool} (h : SameSettings p q) {peer : PeerId}
    (admits : p.Admits peer) : q.Admits peer :=
  ⟨h.1.trans admits.running, admits.notServer, h.2 ▸ admits.notLocal⟩

theorem work_settings (p : Pool) (peer : PeerId) (f : Slot → Slot) :
    SameSettings p (p.work peer f).1 := by
  unfold work
  split <;> exact ⟨rfl, rfl⟩

theorem removeIf_settings (p : Pool) (peer : PeerId) (condition : Agent → Bool) :
    SameSettings p (p.removeIf peer condition) := by
  unfold removeIf
  split
  · split <;> exact ⟨rfl, rfl⟩
  · exact ⟨rfl, rfl⟩

theorem ensure_settings {p q : Pool} {peer : PeerId} {o : Occasion} (ok : p.ensure peer o = .ok q) :
    SameSettings p q := by
  rcases ensure_eq_ok ok with ⟨-, rfl⟩ | ⟨-, -, rfl⟩ <;> exact ⟨rfl, rfl⟩

theorem Renews.settings {p : Pool} {e : Event} {peer : PeerId} {o : Occasion}
    {condition : Agent → Bool} {g : Pool → Slot → List Agent.Event}
    (renews : p.Renews e peer o condition g) : SameSettings p (p.step e) := by
  have removed := p.removeIf_settings peer condition
  cases ensured : (p.removeIf peer condition).ensure peer o with
  | error err => exact renews.error err ensured ▸ removed
  | ok q =>
    rw [renews.ok q ensured]
    exact removed.trans ((ensure_settings ensured).trans (work_settings ..))

theorem step_settings (p : Pool) {e : Event} (steady : e.isSteady = true) :
    SameSettings p (p.step e) := by
  cases e with
  | ensure peer o =>
    show SameSettings p ((p.ensure peer o).toOption.getD p)
    cases ensured : p.ensure peer o with
    | error => exact ⟨rfl, rfl⟩
    | ok q => exact ensure_settings ensured
  | negotiate peer kind data o => exact (p.negotiate_renews peer kind data o).settings
  | ping peer o => exact (p.ping_renews peer o).settings
  | datagram peer source octets o =>
    show SameSettings p (p.onDatagram peer source octets o).1
    unfold onDatagram
    split
    · exact ⟨rfl, rfl⟩
    · simp only
      split
      · exact SameSettings.trans ⟨rfl, rfl⟩ (work_settings ..)
      · exact work_settings ..
  | tick peer o => exact work_settings ..
  | setLocalId | shutdown => cases steady
  | touch | prune | sent | pop | drain => exact ⟨rfl, rfl⟩

/-- Our identity stays what it is until it is set. -/
theorem step_localId (p : Pool) {e : Event} (unset : ∀ id, e ≠ .setLocalId id) :
    (p.step e).localId = p.localId := by
  by_cases steady : e.isSteady = true
  · exact (p.step_settings steady).2
  · cases e with
    | setLocalId id => exact absurd rfl (unset id)
    | shutdown =>
      show p.shutdown.localId = p.localId
      unfold shutdown
      split <;> rfl
    | _ => exact absurd rfl steady

/-! ### Runs -/

theorem Distinct.run {p : Pool} (h : p.Distinct) (es : List Event) : (p.run es).Distinct := by
  induction es generalizing p with
  | nil => exact h
  | cons e es ih => exact ih (step_distinct h e)

/-- What every event keeps, every run keeps. -/
theorem Distinct.run_keeps {P : Pool → Prop}
    (keeps : ∀ {p : Pool}, p.Distinct → P p → ∀ e, P (p.step e)) {p : Pool} (h : p.Distinct)
    (holds : P p) (es : List Event) : P (p.run es) := by
  induction es generalizing p with
  | nil => exact holds
  | cons e es ih => exact ih (step_distinct h e) (keeps h holds e)

theorem run_settings {p : Pool} {es : List Event} (steady : ∀ e ∈ es, e.isSteady = true) :
    SameSettings p (p.run es) := by
  induction es generalizing p with
  | nil => exact ⟨rfl, rfl⟩
  | cons e es ih =>
    have first := p.step_settings (steady e List.mem_cons_self)
    exact first.trans (ih fun f hf => steady f (List.mem_cons_of_mem _ hf))

theorem run_unserved {p : Pool} (h : p.Distinct) (unserved : ¬p.HasAgent PeerId.server)
    (es : List Event) : ¬(p.run es).HasAgent PeerId.server :=
  h.run_keeps (P := fun p => ¬p.HasAgent PeerId.server) step_unserved unserved es

theorem run_heard {p : Pool} (h : p.Distinct) {peer : PeerId} {t : Nat}
    (heard : ∀ s ∈ p.held peer, t ≤ s.agent.lastActivity) {es : List Event}
    (later : ∀ e ∈ es, ∀ now, e.now? = some now → t ≤ now) :
    ∀ s ∈ (p.run es).held peer, t ≤ s.agent.lastActivity := by
  induction es generalizing p with
  | nil => exact heard
  | cons e es ih =>
    have first := step_heard h heard (later e List.mem_cons_self)
    exact ih (step_distinct h e) first fun f hf => later f (List.mem_cons_of_mem _ hf)

theorem run_localId {p : Pool} {es : List Event} (unset : ∀ id, .setLocalId id ∉ es) :
    (p.run es).localId = p.localId := by
  induction es generalizing p with
  | nil => rfl
  | cons e es ih =>
    have first : ∀ id, e ≠ .setLocalId id := fun id given => unset id (given ▸ List.mem_cons_self)
    exact (ih fun id h => unset id (List.mem_cons_of_mem _ h)).trans (p.step_localId first)

/-! ### How long an agent lasts -/

/-- No event of a run ends the time of the agent that is held for a peer. -/
def Lasts (p : Pool) (peer : PeerId) (es : List Event) : Prop :=
  ∀ before e after s, es = before ++ e :: after → (p.run before).held peer = [s] →
    ¬(p.run before).Ends s e

theorem lasts_nil (p : Pool) (peer : PeerId) : p.Lasts peer [] :=
  fun before _ _ _ split => absurd split.symm (by simp)

theorem lasts_cons {p : Pool} {peer : PeerId} {e : Event} {es : List Event} :
    p.Lasts peer (e :: es) ↔ (∀ s, p.held peer = [s] → ¬p.Ends s e) ∧ (p.step e).Lasts peer es := by
  constructor
  · intro lasts
    refine ⟨fun s => lasts [] e es s rfl, fun before f after s split => ?_⟩
    exact lasts (e :: before) f after s (congrArg (e :: ·) split)
  · rintro ⟨spared, lasts⟩ before f after s split
    cases before with
    | nil =>
      cases split
      exact spared s
    | cons first before =>
      cases split
      exact lasts before f after s rfl

/-- An agent that lasts goes on. -/
theorem held_lasting {p : Pool} (h : p.Distinct) {peer : PeerId} {s : Slot}
    (one : p.held peer = [s]) {es : List Event} (lasts : p.Lasts peer es) :
    ∃ xs, (p.run es).held peer = [s.run xs] := by
  induction es generalizing p s with
  | nil => exact ⟨[], one⟩
  | cons e es ih =>
    obtain ⟨spared, rest⟩ := lasts_cons.1 lasts
    obtain ⟨xs, after⟩ := held_spared h one (spared s one)
    obtain ⟨ys, final⟩ := ih (step_distinct h e) after rest
    exact ⟨xs ++ ys, final.trans (by rw [Slot.run_run])⟩

/-- What a run discards, one of its events discards. -/
theorem discards_of_lost_run {p : Pool} (h : p.Distinct) {peer : PeerId} (has : p.HasAgent peer)
    {es : List Event} (lost : ¬(p.run es).HasAgent peer) :
    ∃ before e after s, es = before ++ e :: after ∧ (p.run before).held peer = [s] ∧
      (p.run before).Discards s e := by
  induction es generalizing p with
  | nil => exact absurd has lost
  | cons e es ih =>
    by_cases still : (p.step e).HasAgent peer
    · obtain ⟨before, f, after, s, rfl, one, discards⟩ := ih (step_distinct h e) still lost
      exact ⟨e :: before, f, after, s, rfl, one, discards⟩
    · obtain ⟨s, one, discards⟩ := discards_of_lost h has still
      exact ⟨[], e, es, s, rfl, one, discards⟩

/-- The peer to an agent of which an event sees. -/
def Event.called? : Event → Option PeerId
  | .ensure peer _ | .negotiate peer _ _ _ | .ping peer _ => some peer
  | _ => none

/-- Who may have an agent has one after an event that sees to it. -/
theorem step_called {p : Pool} (h : p.Distinct) {peer : PeerId} (admits : p.Admits peer) {e : Event}
    (called : e.called? = some peer) : (p.step e).HasAgent peer := by
  rw [hasAgent_iff]
  cases e with
  | ensure other o =>
    cases called
    obtain ⟨q, ok⟩ := admits.ensure o
    have step : p.step (.ensure peer o) = q := by rw [step, ok]; rfl
    rw [step, held_ensure ok]
    by_cases vacant : p.held peer = []
    · rw [if_pos ⟨rfl, vacant⟩]
      exact List.cons_ne_nil _ _
    · rwa [if_neg fun both => vacant both.2]
  | negotiate other kind data o =>
    cases called
    obtain ⟨q, ok, work⟩ := work_chosen h admits o (outdates kind data)
    rw [step, negotiate_of_ok ok, (work (q.hearing peer kind data o)).1]
    exact List.cons_ne_nil _ _
  | ping other o =>
    cases called
    obtain ⟨s, one, -⟩ := ping_held h admits o
    rw [step, one]
    exact List.cons_ne_nil _ _
  | _ => cases called

/-- And it keeps it, but for pruning. -/
theorem run_called {p : Pool} (h : p.Distinct) {peer : PeerId} (admits : p.Admits peer)
    {es : List Event} (steady : ∀ e ∈ es, e.isSteady = true ∧ ∀ now, e ≠ .prune now)
    (called : p.HasAgent peer ∨ ∃ e ∈ es, e.called? = some peer) : (p.run es).HasAgent peer := by
  induction es generalizing p with
  | nil => exact called.resolve_right fun h => by simp at h
  | cons e es ih =>
    have admits' := (p.step_settings (steady e List.mem_cons_self).1).admits admits
    refine ih (step_distinct h e) admits' (fun f hf => steady f (List.mem_cons_of_mem _ hf)) ?_
    rcases called with has | ⟨f, hf, called⟩
    · left
      by_contra lost
      obtain ⟨s, one, discards⟩ := discards_of_lost h has lost
      have hs : s.peer = peer := peer_of_held (one ▸ List.mem_singleton_self s)
      cases discards with
      | idle => exact (steady _ List.mem_cons_self).2 _ rfl
      | outdated own _ refused | finished own _ refused => exact refused (own ▸ hs ▸ admits)
      | shutdown => cases (steady _ List.mem_cons_self).1
    · rcases List.mem_cons.1 hf with rfl | hf
      · exact .inl (step_called h admits called)
      · exact .inr ⟨f, hf, called⟩

/-- Pings never drop an agent that is not finished. -/
theorem run_pings {p : Pool} (h : p.Distinct) {peer : PeerId} {s : Slot} (one : p.held peer = [s])
    (unfinished : s.agent.state.isTerminal = false) (o : Occasion) (peers : List PeerId) :
    (p.run (peers.map (.ping · o))).HasAgent peer := by
  induction peers generalizing p s with
  | nil => exact ⟨_, agent?_of_held one⟩
  | cons other peers ih =>
    have renews := p.ping_renews other o
    have kept : ∃ s', (p.step (.ping other o)).held peer = [s'] ∧
        s'.agent.state.isTerminal = false := by
      by_cases same : peer = other
      · subst same
        rcases renews.held_kept h one unfinished with after | ⟨q, after⟩
        · exact ⟨s, after, unfinished⟩
        · exact ⟨_, after, s.agent.start_unfinished unfinished ..⟩
      · exact ⟨s, (renews.held_others h same).trans one, unfinished⟩
    obtain ⟨s', one', unfinished'⟩ := kept
    exact ih (step_distinct h _) one' unfinished'

end Pool
end Parley

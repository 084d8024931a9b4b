import Parley.Proofs.Link.Unfold
import Mathlib.Logic.Function.Basic
/-!
Two agents on a network that may lose, delay, repeat and reorder what they send.

All that a side has ever sent stays on the network, and any of it may arrive at the other side, at
any time and as often as it likes; what is lost just never arrives. A datagram comes from an address
of the version that it was sent to, and other than that its source is free. No binding message
arrives that has not been sent, but whatever else may. The server brings the messages of each side
to the other one, each once and in order.
-/
namespace Parley

/-- Whether a side settles the path. -/
def Side.controls : Side → Bool
  | .controlling => true
  | .controlled => false

/-- Two agents, all the datagrams that each has sent, and the messages that the server has for
each. -/
structure Network where
  agent : Side → Agent
  sent : Side → List (SocketAddress × Bytes)
  mail : Side → List Message

namespace Network
open Agent (Event)

/-- What there is of a side before anything happens. -/
structure Origin where
  peer : PeerId
  session : UInt64
  created : Nat

/-- What can happen. -/
inductive Move where
  | start (side : Side) (now : Nat) (addresses : List SocketAddress) (includeLoopback : Bool)
      (stunServer : Option SocketAddress) (id : TransactionId)
  | tick (side : Side) (now : Nat) (checkId nominationId : TransactionId)
  | touch (side : Side) (now : Nat)
  /-- The server brings a side its next message. -/
  | relay (side : Side) (now : Nat) (id : TransactionId)
  /-- The datagram at the index, of those that the other side has sent, arrives. -/
  | deliver (side : Side) (index : Nat) (source : SocketAddress) (now : Nat) (id : TransactionId)
  /-- Something that is no binding message arrives. -/
  | stray (side : Side) (source : SocketAddress) (octets : Bytes) (now : Nat) (id : TransactionId)

namespace Move

/-- The side at which it happens. -/
def side : Move → Side
  | start side _ _ _ _ _ | tick side _ _ _ | touch side _ | relay side _ _
  | deliver side _ _ _ _ | stray side _ _ _ _ => side

/-- The identifiers that are handed in. -/
def ids : Move → List TransactionId
  | start _ _ _ _ _ id | relay _ _ id | deliver _ _ _ _ id | stray _ _ _ _ id => [id]
  | tick _ _ checkId nominationId => [checkId, nominationId]
  | touch _ _ => []

end Move

/-- The network before anything happens. -/
def begin (P : Side → Origin) : Network where
  agent side := .new (P side).peer side.controls (P side).session (P side).created
  sent _ := []
  mail _ := []

/-- What a move is to the agent at whose side it happens. There may be no message to bring, and no
such datagram to deliver. -/
def event? (w : Network) : Move → Option Event
  | .start _ now addresses includeLoopback stunServer id =>
    some (.start now addresses includeLoopback stunServer id)
  | .tick _ now checkId nominationId => some (.tick now checkId nominationId)
  | .touch _ now => some (.touch now)
  | .relay side now id => (w.mail side).head?.map fun m => .signal m.kind m.data now id
  | .deliver side index source now id =>
    (w.sent side.other)[index]?.bind fun (destination, octets) =>
      if source.isV4 = destination.isV4 then some (.datagram source octets now id) else none
  | .stray _ source octets now id =>
    if octets.head? = some BindingMessage.tag then none
    else some (.datagram source octets now id)

/-- The messages that the server still has for a side after a move. -/
def undelivered (w : Network) : Move → Side → List Message
  | .relay side _ _ => Function.update w.mail side (w.mail side).tail
  | _ => w.mail

/-- The network when an event has made `a` of the agent of a side: what it has queued is sent and
handed to the server. -/
def become (w : Network) (side : Side) (a : Agent) : Network where
  agent := Function.update w.agent side a.clearDatagrams.clearSignals
  sent := Function.update w.sent side (w.sent side ++ a.datagrams)
  mail := Function.update w.mail side.other (w.mail side.other ++ a.signals)

/-- The network after a move. -/
def step (w : Network) (m : Move) : Network :=
  match w.event? m with
  | none => w
  | some e => { w with mail := w.undelivered m }.become m.side ((w.agent m.side).step e)

/-- The network after some moves. -/
def run (w : Network) (ms : List Move) : Network := ms.foldl step w

theorem run_concat (w : Network) (ms : List Move) (m : Move) :
    w.run (ms ++ [m]) = (w.run ms).step m := by
  simp [run]

/-! ### What a move brings -/

theorem event?_deliver {w : Network} {side : Side} {index : Nat} {source : SocketAddress}
    {now : Nat} {id : TransactionId} {e : Event}
    (h : w.event? (.deliver side index source now id) = some e) : ∃ destination octets,
      (w.sent side.other)[index]? = some (destination, octets) ∧
      source.isV4 = destination.isV4 ∧ e = .datagram source octets now id := by
  obtain ⟨⟨destination, octets⟩, hpacket, harrives⟩ := Option.bind_eq_some_iff.1 h
  simp only [Option.ite_none_right_eq_some, Option.some.injEq] at harrives
  exact ⟨destination, octets, hpacket, harrives.1, harrives.2.symm⟩

theorem event?_stray {w : Network} {side : Side} {source : SocketAddress} {octets : Bytes}
    {now : Nat} {id : TransactionId} {e : Event}
    (h : w.event? (.stray side source octets now id) = some e) :
    octets.head? ≠ some BindingMessage.tag ∧ e = .datagram source octets now id := by
  simp only [event?, Option.ite_none_left_eq_some, Option.some.injEq] at h
  exact ⟨h.1, h.2.symm⟩

/-- What an event at a side brings comes from the other side: a check or an answer has been sent,
and a message is one that the server has. The owner of the agent neither sets its role nor takes
anything from it. -/
structure Brings (w : Network) (side : Side) (e : Event) : Prop where
  request : ∀ source r, e.request? = some (source, r) →
    ∃ d, (d, r) ∈ requestsIn (w.sent side.other) ∧ source.isV4 = d.isV4
  answer : ∀ source r, e.answer? = some (source, r) → ∃ d, (d, r) ∈ answersIn (w.sent side.other)
  message : ∀ kind data now id, e = .signal kind data now id →
    ∃ m ∈ w.mail side, m.kind = kind ∧ m.data = data
  keeps : ∀ controlling, e ≠ .setControlling controlling
  leaves : e ≠ .takeSignals

theorem brings_datagram {w : Network} {side : Side} {destination source : SocketAddress}
    {octets : Bytes} {now : Nat} {id : TransactionId}
    (h : (destination, octets) ∈ w.sent side.other) (hv : source.isV4 = destination.isV4) :
    w.Brings side (.datagram source octets now id) where
  request := fun source' r hr => by
    obtain ⟨rfl, hdecode⟩ := requestIn?_eq_some hr
    exact ⟨destination, mem_requestsIn.2 ⟨octets, h, hdecode⟩, hv⟩
  answer := fun source' r hr => by
    obtain ⟨rfl, hdecode⟩ := answerIn?_eq_some hr
    exact ⟨destination, mem_answersIn.2 ⟨octets, h, hdecode⟩⟩
  message := nofun
  keeps := nofun
  leaves := nofun

/-- What brings neither a binding message nor a message of the server's. -/
theorem brings_nothing {w : Network} {side : Side} {e : Event} (hrequest : e.request? = none)
    (hanswer : e.answer? = none) (hsignal : ∀ kind data now id, e ≠ .signal kind data now id)
    (hset : ∀ controlling, e ≠ .setControlling controlling) (htake : e ≠ .takeSignals) :
    w.Brings side e where
  request := fun source r hr => by rw [hrequest] at hr; cases hr
  answer := fun source r hr => by rw [hanswer] at hr; cases hr
  message := fun kind data now id he => absurd he (hsignal kind data now id)
  keeps := hset
  leaves := htake

theorem event?_brings {w : Network} {m : Move} {e : Event} (h : w.event? m = some e) :
    w.Brings m.side e := by
  cases m with
  | start | tick | touch =>
    cases h
    exact brings_nothing rfl rfl nofun nofun nofun
  | relay side now id =>
    obtain ⟨m, hm, rfl⟩ := Option.map_eq_some_iff.1 h
    exact {
      request := nofun
      answer := nofun
      message := fun kind data now id he => by
        cases he
        exact ⟨m, List.mem_of_mem_head? hm, rfl, rfl⟩
      keeps := nofun
      leaves := nofun }
  | deliver side index source now id =>
    obtain ⟨destination, octets, hpacket, hv, rfl⟩ := event?_deliver h
    exact brings_datagram (List.mem_of_getElem? hpacket) hv
  | stray side source octets now id =>
    obtain ⟨htag, rfl⟩ := event?_stray h
    exact brings_nothing (requestIn?_eq_none htag) (answerIn?_eq_none htag) nofun nofun nofun

theorem event?_ids {w : Network} {m : Move} {e : Event} (h : w.event? m = some e) :
    e.ids = m.ids := by
  cases m with
  | start | tick | touch =>
    cases h
    rfl
  | relay side now id =>
    obtain ⟨m, -, rfl⟩ := Option.map_eq_some_iff.1 h
    rfl
  | deliver side index source now id =>
    obtain ⟨_, _, -, -, rfl⟩ := event?_deliver h
    rfl
  | stray side source octets now id =>
    obtain ⟨-, rfl⟩ := event?_stray h
    rfl

/-! ### What a move changes -/

/-- From `w` to `w'` an event has happened at a side: its agent has taken a step, what that has
queued is on the network, and the other side is as it was. -/
structure Turn (w : Network) (side : Side) (e : Event) (w' : Network) : Prop where
  brings : w.Brings side e
  own : w'.agent side = ((w.agent side).step e).clearDatagrams.clearSignals
  other : w'.agent side.other = w.agent side.other
  sent : w'.sent side = w.sent side ++ ((w.agent side).step e).datagrams
  unsent : w'.sent side.other = w.sent side.other
  mail : w'.mail side ⊆ w.mail side
  posted : w'.mail side.other ⊆ w.mail side.other ++ ((w.agent side).step e).signals

theorem undelivered_subset (w : Network) (m : Move) (side : Side) :
    w.undelivered m side ⊆ w.mail side := by
  cases m with
  | relay side' now id =>
    by_cases hside : side = side'
    · subst hside
      simp only [undelivered, Function.update_self]
      exact (List.tail_sublist _).subset
    · simp only [undelivered, Function.update_of_ne hside]
      exact fun _ h => h
  | _ => exact fun _ h => h

/-- **A move is the turn of a side**, if it happens at all. -/
theorem step_cases (w : Network) (m : Move) : w.event? m = none ∧ w.step m = w ∨
    ∃ e, w.event? m = some e ∧ w.Turn m.side e (w.step m) := by
  cases he : w.event? m with
  | none => exact .inl ⟨rfl, by rw [step, he]⟩
  | some e =>
    refine .inr ⟨e, rfl, ?_⟩
    have differ := m.side.other_ne
    have hstep : w.step m =
        { w with mail := w.undelivered m }.become m.side ((w.agent m.side).step e) := by
      rw [step, he]
    rw [hstep]
    exact {
      brings := event?_brings he
      own := Function.update_self ..
      other := Function.update_of_ne differ ..
      sent := Function.update_self ..
      unsent := Function.update_of_ne differ ..
      mail := by
        simp only [become, Function.update_of_ne differ.symm]
        exact w.undelivered_subset m m.side
      posted := by
        simp only [become, Function.update_self]
        exact List.append_subset.2 ⟨fun _ h => List.mem_append_left _ (w.undelivered_subset m _ h),
          List.subset_append_right ..⟩ }

/-- Nothing that has been sent leaves the network. -/
theorem step_sent (w : Network) (m : Move) : ∀ side, w.sent side ⊆ (w.step m).sent side := by
  rcases step_cases w m with ⟨-, hstep⟩ | ⟨e, -, turn⟩
  · rw [hstep]
    exact fun _ _ h => h
  · refine m.side.both ?_ ?_
    · rw [turn.sent]
      exact List.subset_append_left ..
    · rw [turn.unsent]
      exact fun _ h => h

theorem run_sent (w : Network) (ms : List Move) (side : Side) :
    w.sent side ⊆ (w.run ms).sent side := by
  induction ms generalizing w with
  | nil => exact fun _ h => h
  | cons m ms ih => exact fun _ h => ih (w.step m) (w.step_sent m side h)

end Network
end Parley

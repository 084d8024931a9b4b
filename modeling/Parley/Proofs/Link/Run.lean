import Parley.Link.Agent
import Mathlib.Data.List.Induction
/-!
Runs of an agent.

An `Event` is one call of the agent with all that it is handed: the time, what has arrived, and the
identifiers that the call may use. A run is a list of events, and an agent is `Reachable` when it is
what a run has made of a new one. The owner takes the queues whenever it likes, so what an event has
queued is what stands behind the queue as it was (`sent`), and `outbox` is all that a run has
queued.
-/
namespace Parley

/-- The two sides of a negotiation. -/
inductive Side where
  | controlling
  | controlled
  deriving DecidableEq

/-- The other side. -/
def Side.other : Side → Side
  | .controlling => .controlled
  | .controlled => .controlling

@[simp] theorem Side.other_other (side : Side) : side.other.other = side := by cases side <;> rfl

theorem Side.other_ne (side : Side) : side.other ≠ side := by cases side <;> decide

/-- What holds of a side and of the other one holds of both. -/
theorem Side.both {P : Side → Prop} (side : Side) (own : P side) (other : P side.other)
    (side' : Side) : P side' := by
  cases side <;> cases side' <;> assumption

namespace Agent

/-- What can be done with an agent. -/
inductive Event where
  | start (now : Nat) (addresses : List SocketAddress) (includeLoopback : Bool)
      (stunServer : Option SocketAddress) (id : TransactionId)
  | signal (kind : MessageKind) (data : String) (now : Nat) (id : TransactionId)
  | datagram (source : SocketAddress) (octets : Bytes) (now : Nat) (id : TransactionId)
  | tick (now : Nat) (checkId nominationId : TransactionId)
  | touch (now : Nat)
  | setControlling (controlling : Bool)
  | takeDatagrams
  | takeSignals

namespace Event

/-- The identifiers that are handed in. -/
def ids : Event → List TransactionId
  | start _ _ _ _ id | signal _ _ _ id | datagram _ _ _ id => [id]
  | tick _ checkId nominationId => [checkId, nominationId]
  | _ => []

end Event

/-- The agent after an event. -/
def step (a : Agent) : Event → Agent
  | .start now addresses includeLoopback stunServer id =>
    a.start now addresses includeLoopback stunServer id
  | .signal kind data now id => (a.applySignal kind data now id).1
  | .datagram source octets now id => (a.onDatagram source octets now id).1
  | .tick now checkId nominationId => a.tick now checkId nominationId
  | .touch now => a.touch now
  | .setControlling controlling => a.setControlling controlling
  | .takeDatagrams => a.clearDatagrams
  | .takeSignals => a.clearSignals

/-- The agent after a run. -/
def run (a : Agent) (es : List Event) : Agent := es.foldl step a

@[simp] theorem run_nil (a : Agent) : a.run [] = a := rfl

theorem run_append (a : Agent) (es fs : List Event) : a.run (es ++ fs) = (a.run es).run fs :=
  List.foldl_append

theorem run_concat (a : Agent) (es : List Event) (e : Event) :
    a.run (es ++ [e]) = (a.run es).step e := run_append a es [e]

/-- An agent that a run has made of a new one. -/
def Reachable (a : Agent) : Prop :=
  ∃ peer controlling session now es, a = (new peer controlling session now).run es

theorem Reachable.step {a : Agent} (h : Reachable a) (e : Event) : Reachable (a.step e) := by
  obtain ⟨peer, controlling, session, now, es, rfl⟩ := h
  exact ⟨peer, controlling, session, now, es ++ [e], (run_concat ..).symm⟩

/-- What holds of new agents and is kept by every event holds of every reachable agent. -/
theorem Reachable.induct {P : Agent → Prop}
    (new : ∀ peer controlling session now, P (new peer controlling session now))
    (step : ∀ a e, P a → P (a.step e)) {a : Agent} (h : Reachable a) : P a := by
  obtain ⟨peer, controlling, session, now, es, rfl⟩ := h
  induction es using List.reverseRecOn with
  | nil => exact new ..
  | append_singleton es e ih =>
    rw [run_concat]
    exact step _ e ih

/-- The same, of agents that are reachable themselves. -/
theorem Reachable.induct_along {P : Agent → Prop}
    (new : ∀ peer controlling session now, P (new peer controlling session now))
    (step : ∀ a e, Reachable a → P a → P (a.step e)) {a : Agent} (h : Reachable a) : P a :=
  (h.induct (P := fun a => Reachable a ∧ P a)
    (fun peer controlling session now =>
      ⟨⟨peer, controlling, session, now, [], rfl⟩, new peer controlling session now⟩)
    fun a e ⟨ha, hp⟩ => ⟨ha.step e, step a e ha hp⟩).2

/-- What an event makes the agent queue, and where it goes. -/
def sent (a : Agent) (e : Event) : List (SocketAddress × Bytes) :=
  (a.step e).datagrams.drop a.datagrams.length

/-- All that a run makes the agent queue. -/
def outbox (a : Agent) : List Event → List (SocketAddress × Bytes)
  | [] => []
  | e :: es => a.sent e ++ (a.step e).outbox es

theorem outbox_append (a : Agent) (es fs : List Event) :
    a.outbox (es ++ fs) = a.outbox es ++ (a.run es).outbox fs := by
  induction es generalizing a with
  | nil => rfl
  | cons e es ih =>
    rw [List.cons_append, outbox, outbox, ih, List.append_assoc]
    rfl

theorem outbox_concat (a : Agent) (es : List Event) (e : Event) :
    a.outbox (es ++ [e]) = a.outbox es ++ (a.run es).sent e := by
  rw [outbox_append, outbox, outbox, List.append_nil]

end Agent
end Parley

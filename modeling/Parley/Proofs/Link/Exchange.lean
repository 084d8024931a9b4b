import Parley.Proofs.Link.Run
import Parley.Proofs.Link.Single
import Mathlib.Logic.Function.Basic
/-!
Two agents on a network that loses nothing.

Each agent has one address, and a datagram on its way arrives once, at the side whose address it is
sent to and from the address of the side that has sent it. The order of all that happens is free.
An `Outline` of an exchange is where each side stands and which binding messages are on their way,
and `Outlines.step` says that the outline moves along with the exchange.
-/
namespace Parley

/-- A datagram on its way. -/
structure Exchange.Packet where
  source : SocketAddress
  destination : SocketAddress
  octets : Bytes
  deriving DecidableEq

/-- Two agents and the datagrams on their way between them. -/
structure Exchange where
  agent : Side → Agent
  flying : List Exchange.Packet

namespace Exchange

/-- What can happen in an exchange. -/
inductive Move where
  | tick (side : Side) (now : Nat) (checkId nominationId : TransactionId)
  /-- The datagram at the index arrives. -/
  | deliver (index now : Nat) (id : TransactionId)

namespace Move

/-- When it happens. -/
def time : Move → Nat
  | tick _ now _ _ | deliver _ now _ => now

/-- The identifiers that are handed in. -/
def ids : Move → List TransactionId
  | tick _ _ checkId nominationId => [checkId, nominationId]
  | deliver _ _ id => [id]

end Move

section Network
variable (home : Side → SocketAddress)

/-- The side that has an address. -/
def owner (address : SocketAddress) : Option Side :=
  [Side.controlling, Side.controlled].find? fun side => home side == address

/-- The exchange when one side has become `a`: what it has queued is on its way. -/
def become (w : Exchange) (side : Side) (a : Agent) : Exchange where
  agent := Function.update w.agent side a.clearDatagrams
  flying := w.flying ++ a.datagrams.map fun (destination, octets) =>
    ⟨home side, destination, octets⟩

/-- The exchange after a move. An index at which there is no datagram makes none arrive. -/
def step (w : Exchange) : Move → Exchange
  | .tick side now checkId nominationId =>
    w.become home side ((w.agent side).tick now checkId nominationId)
  | .deliver index now id =>
    match w.flying[index]? with
    | none => w
    | some packet =>
      let w := { w with flying := w.flying.eraseIdx index }
      match owner home packet.destination with
      | none => w
      | some side =>
        w.become home side ((w.agent side).onDatagram packet.source packet.octets now id).1

/-- The exchange after some moves. -/
def run (w : Exchange) (ms : List Move) : Exchange := ms.foldl (step home) w

theorem run_concat (w : Exchange) (ms : List Move) (m : Move) :
    w.run home (ms ++ [m]) = (w.run home ms).step home m := by
  simp [run]

end Network
end Exchange

/-! ### Outlines -/

/-- Where the sides stand, and the messages on their way with the sides that have sent them. -/
structure Outline where
  standing : Side → Standing
  flying : List (Side × BindingMessage)

namespace Outline

/-- The outline when one side has moved and sent some messages. -/
def become (o : Outline) (side : Side) (s : Standing) (out : List BindingMessage) : Outline where
  standing := Function.update o.standing side s
  flying := o.flying ++ out.map (Prod.mk side)

/-- The outline after a message has left the network. -/
def without (o : Outline) (index : Nat) : Outline := { o with flying := o.flying.eraseIdx index }

/-- How an outline moves. -/
inductive Step (home : Side → SocketAddress) : Outline → Exchange.Move → Outline → Prop
  | tick {o side now checkId id s out} :
      (o.standing side).Moves (home side.other) (.tick checkId) s out →
      Step home o (.tick side now checkId id) (o.become side s out)
  | deliver {o index now id side m s out} : o.flying[index]? = some (side.other, m) →
      (o.standing side).Moves (home side.other) (.message m id) s out →
      Step home o (.deliver index now id) ((o.without index).become side s out)
  | idle {o index now id} : o.flying[index]? = none → Step home o (.deliver index now id) o

end Outline

/-- An exchange whose outline is `o`, since `t₀`. -/
structure Outlines (home : Side → SocketAddress) (t₀ : Nat) (o : Outline) (w : Exchange) :
    Prop where
  stands : ∀ side, Agent.Stands (home side.other) t₀ (o.standing side) (w.agent side)
  silent : ∀ side, (w.agent side).datagrams = []
  flying : w.flying = o.flying.map fun (side, m) => ⟨home side, home side.other, m.encode⟩
  success : ∀ side r, (side, .response r) ∈ o.flying → r.success = true

namespace Outlines
variable {home : Side → SocketAddress} {t₀ : Nat} {o : Outline} {w : Exchange}

/-- One side has moved. -/
theorem become (h : Outlines home t₀ o w) {side : Side} {i : Standing.Input} {s : Standing}
    {out : List BindingMessage} (moves : (o.standing side).Moves (home side.other) i s out)
    {a : Agent} (stands : Agent.Stands (home side.other) t₀ s a)
    (sent : a.datagrams = out.map fun m => (home side.other, m.encode)) :
    Outlines home t₀ (o.become side s out) (w.become home side a) where
  stands := fun side' => by
    by_cases hside : side' = side
    · subst hside
      simp only [Outline.become, Exchange.become, Function.update_self]
      exact stands.queued []
    · simp only [Outline.become, Exchange.become, Function.update_of_ne hside]
      exact h.stands side'
  silent := fun side' => by
    by_cases hside : side' = side
    · subst hside
      simp [Exchange.become, Agent.clearDatagrams]
    · simp only [Exchange.become, Function.update_of_ne hside]
      exact h.silent side'
  flying := by
    simp [Exchange.become, Outline.become, sent, h.flying, Function.comp_def]
  success := fun side' r hr => by
    rcases List.mem_append.1 hr with hr | hr
    · exact h.success side' r hr
    · obtain ⟨m, hm, heq⟩ := List.mem_map.1 hr
      cases heq
      exact moves.answers hm

/-- **The outline moves along**, in the first four seconds. -/
theorem step (h : Outlines home t₀ o w) (hhome : home .controlling ≠ home .controlled)
    (m : Exchange.Move) (hm : t₀ ≤ m.time ∧ m.time ≤ t₀ + 4000) :
    ∃ o', o.Step home m o' ∧ Outlines home t₀ o' (w.step home m) := by
  cases m with
  | tick side now checkId id =>
    obtain ⟨s, out, moves, stands, sent⟩ := (h.stands side).tick hm checkId id
    rw [h.silent side, List.nil_append] at sent
    exact ⟨_, .tick moves, h.become moves stands sent⟩
  | deliver index now id =>
    cases hpacket : o.flying[index]? with
    | none =>
      have nothing : w.flying[index]? = none := by rw [h.flying, List.getElem?_map, hpacket]; rfl
      refine ⟨o, .idle hpacket, ?_⟩
      simp only [Exchange.step, nothing]
      exact h
    | some packet =>
      obtain ⟨sender, m⟩ := packet
      obtain ⟨side, rfl⟩ : ∃ side : Side, sender = side.other := ⟨sender.other, by simp⟩
      have something : w.flying[index]? = some ⟨home side.other, home side, m.encode⟩ := by
        rw [h.flying, List.getElem?_map, hpacket]
        simp
      have arrives : Exchange.owner home (home side) = some side := by
        cases side with
        | controlling => simp [Exchange.owner]
        | controlled => simp [Exchange.owner, hhome]
      have hsuccess : ∀ r, m = .response r → r.success = true := by
        rintro r rfl
        exact h.success side.other r (List.mem_of_getElem? hpacket)
      have landed : Outlines home t₀ (o.without index)
          { w with flying := w.flying.eraseIdx index } :=
        ⟨h.stands, h.silent, by simp [h.flying, Outline.without, List.eraseIdx_map],
          fun side r hr => h.success side r (List.mem_of_mem_eraseIdx hr)⟩
      obtain ⟨s, out, moves, stands, sent⟩ := (h.stands side).message hm hsuccess id
      rw [h.silent side, List.nil_append] at sent
      refine ⟨_, .deliver hpacket moves, ?_⟩
      simp only [Exchange.step, something, arrives]
      exact landed.become moves stands sent

end Outlines
end Parley

import Parley.Proofs.Link.Wording
import Parley.Proofs.Pool.Fate
/-!
What a pool has sent through the server.

Every agent that a pool holds has come about by a run (`Grown`), so that all it has to say is
letters to its peer. What an operation hands out is therefore letters, and a ping where it pings
(`Negotiates`): no operation of a pool speaks to the server itself, and no dash stands in what any
of them says.
-/
namespace Parley

theorem Letter.isNegotiation (l : Letter) : l.kind.isNegotiation = true := by cases l <;> rfl

/-- A message of a negotiation, with no dash in its payload. -/
structure Message.Negotiates (m : Message) : Prop where
  kind : m.kind.isNegotiation = true
  undashed : Text.Undashed m.data

theorem Message.ping_negotiates (peer : PeerId) : (ping peer).Negotiates :=
  ⟨rfl, (by decide : Text.Undashed pingPayload)⟩

/-- Nothing is to be sent through the server but messages of negotiations. -/
def Outgoing.Negotiates (out : Outgoing) : Prop := ∀ m ∈ out.signals, m.Negotiates

theorem Outgoing.negotiates_none : Outgoing.none.Negotiates := nofun

theorem Outgoing.Negotiates.append {a b : Outgoing} (h : a.Negotiates) (h' : b.Negotiates) :
    (a.append b).Negotiates := fun m hm => (List.mem_append.1 hm).elim (h m) (h' m)

namespace Agent

theorem Reachable.run {a : Agent} (h : a.Reachable) (es : List Event) : (a.run es).Reachable := by
  induction es generalizing a with
  | nil => exact h
  | cons e es ih => exact ih (h.step e)

/-- What an agent has queued for its peer is letters. -/
theorem Reachable.signals_negotiate {a : Agent} (h : a.Reachable) :
    ∀ m ∈ a.signals, m.Negotiates := by
  refine h.induct_along (P := fun a => ∀ m ∈ a.signals, m.Negotiates)
    (fun _ _ _ _ => nofun) fun a e reachable queued => ?_
  by_cases taken : e = .takeSignals
  · subst taken
    exact nofun
  · obtain ⟨ms, signals, -⟩ := a.step_posts taken
    obtain ⟨peer, controlling, session, created, es, rfl⟩ := reachable
    obtain ⟨ls, -, announced⟩ := run_announces peer controlling session created es
    obtain ⟨letters, told, announced⟩ := step_announces ⟨_, _, _, _, es, rfl⟩ announced e
    rw [told_of_signals signals] at told
    have after : (((new peer controlling session created).run es).step e).Reachable :=
      Reachable.step ⟨_, _, _, _, es, rfl⟩ e
    have ours := announced.ours after.blank
    intro m hm
    rw [signals, told] at hm
    rcases List.mem_append.1 hm with old | new
    · exact queued m old
    · obtain ⟨l, hl, rfl⟩ := List.mem_map.1 new
      refine ⟨l.isNegotiation, l.undashed_payload _ fun c hc => after.labelled c ?_⟩
      rw [ours]
      exact List.mem_flatMap.2 ⟨l, List.mem_append_right ls hl, hc⟩

end Agent

namespace Pool

/-- Every agent that a pool holds has come about by a run. -/
def Grown (p : Pool) : Prop := ∀ peer, ∀ s ∈ p.held peer, s.agent.Reachable

theorem new_grown (includeLoopback : Bool) : (new includeLoopback).Grown :=
  fun _ _ hs => nomatch hs

theorem fresh_reachable (p : Pool) (peer : PeerId) (o : Occasion) :
    (p.fresh peer o).agent.Reachable := ⟨_, _, _, _, [], rfl⟩

theorem step_grown {p : Pool} (h : p.Distinct) (grown : p.Grown) (e : Event) :
    (p.step e).Grown := by
  intro peer s hs
  cases step_fate h e peer with
  | missing _ after | dropped _ after =>
    rw [after] at hs
    cases hs
  | goesOn one after =>
    rw [after, List.mem_singleton] at hs
    rw [hs]
    exact (grown peer _ (one ▸ List.mem_singleton_self _)).run _
  | created _ _ after =>
    rw [after, List.mem_singleton] at hs
    rw [hs]
    exact (p.fresh_reachable ..).run _

theorem run_grown {p : Pool} (h : p.Distinct) (grown : p.Grown) (es : List Event) :
    (p.run es).Grown := h.run_keeps step_grown grown es

/-- So has every agent after one that is out of date has been replaced. -/
theorem ensure_grown {p q : Pool} (h : p.Distinct) (grown : p.Grown) {peer : PeerId}
    {condition : Agent → Bool} {o : Occasion}
    (ok : (p.removeIf peer condition).ensure peer o = .ok q) : q.Grown := by
  intro other s hs
  rw [held_ensure ok] at hs
  split at hs
  · rw [List.mem_singleton.1 hs]
    exact fresh_reachable ..
  · rw [held_removeIf h] at hs
    split at hs
    · exact grown other s (List.mem_of_mem_filter hs)
    · exact grown other s hs

theorem work_negotiates {p : Pool} {peer : PeerId} {f : Slot → Slot}
    (reachable : ∀ s ∈ p.held peer, (f s).agent.Reachable) : (p.work peer f).2.Negotiates := by
  unfold work
  cases found : p.slot? peer with
  | none => exact Outgoing.negotiates_none
  | some s =>
    rw [slot?_eq] at found
    exact (reachable s (List.mem_of_mem_head? found)).signals_negotiate

section Operations
variable {p : Pool} (h : p.Distinct) (grown : p.Grown)
include h grown

theorem negotiate_negotiates {peer : PeerId} {kind : MessageKind} {data : String} {o : Occasion}
    {out : Outgoing} (ok : (p.negotiate peer kind data o).2 = .ok out) : out.Negotiates := by
  cases ensured : (p.removeIf peer (outdates kind data)).ensure peer o with
  | error =>
    rw [negotiate_of_error ensured] at ok
    cases ok
  | ok q =>
    rw [negotiate_of_ok ensured] at ok
    cases ok
    exact work_negotiates fun s hs => (ensure_grown h grown ensured peer s hs).run _

theorem ping_negotiates {peer : PeerId} {o : Occasion} {out : Outgoing}
    (ok : (p.ping peer o).2 = .ok out) : out.Negotiates := by
  cases ensured : (p.removeIf peer (·.state.isTerminal)).ensure peer o with
  | error =>
    rw [ping_of_error ensured] at ok
    cases ok
  | ok q =>
    rw [ping_of_ok ensured] at ok
    cases ok
    have started : (q.work peer (q.startSlot o)).2.Negotiates :=
      work_negotiates fun s hs => (ensure_grown h grown ensured peer s hs).run [q.startEvent o s]
    intro m hm
    rcases List.mem_cons.1 hm with rfl | hm
    · exact Message.ping_negotiates peer
    · exact started m hm

omit h in
theorem onDatagram_negotiates (peer : PeerId) (source : SocketAddress) (octets : Bytes)
    (o : Occasion) : (p.onDatagram peer source octets o).2.Negotiates := by
  unfold onDatagram
  cases found : p.slot? peer with
  | none => exact Outgoing.negotiates_none
  | some s =>
    rw [slot?_eq] at found
    let heard : Agent.Event := .datagram source octets o.now (o.supply peer).nominationId
    have reachable : (s.agent.step heard).Reachable :=
      (grown peer s (List.mem_of_mem_head? found)).step heard
    exact work_negotiates fun _ _ => reachable

omit h in
theorem tick_negotiates (peer : PeerId) (o : Occasion) : (p.tick peer o).2.Negotiates :=
  work_negotiates fun s hs =>
    (grown peer s hs).step (.tick o.now (o.supply peer).checkId (o.supply peer).nominationId)

theorem tickAll_negotiates (o : Occasion) : (p.tickAll o).2.Negotiates := by
  refine And.right (a := (p.tickAll o).1.Distinct ∧ (p.tickAll o).1.Grown) ?_
  -- Along the fold the pool stays what it is, and what has been gathered is of negotiations.
  refine List.foldlRecOn (motive := fun done : Pool × Outgoing =>
    (done.1.Distinct ∧ done.1.Grown) ∧ done.2.Negotiates) _ _
    ⟨⟨h, grown⟩, Outgoing.negotiates_none⟩ ?_
  rintro done ⟨⟨distinct, grown⟩, negotiates⟩ peer -
  exact ⟨⟨step_distinct distinct (.tick peer o), step_grown distinct grown (.tick peer o)⟩,
    negotiates.append (tick_negotiates grown peer o)⟩

end Operations

end Pool
end Parley

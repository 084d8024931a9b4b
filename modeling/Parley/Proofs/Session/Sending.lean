import Parley.Proofs.Pool.Outgoing
import Parley.Proofs.Session.Run
/-!
What a session hands to its transport.

`sends s e` is all that the event `e` has the session send, in order. It is handed to the transport
message by message, and nothing else happens to the transport (`step_transport`). What tells the
server of our lobby comes from the verbs of the game and from a look at a new connection alone; all
the rest is routine (`sends_routine`).
-/
namespace Parley

namespace Transport

variable {τ : Type} [Transport τ]

/-- The transport after messages have been handed to it, one after the other. -/
def sendEach (t : τ) (ms : List Message) : τ := ms.foldl (fun t m => (send t m).1) t

theorem sendEach_append (t : τ) (ms ns : List Message) :
    sendEach t (ms ++ ns) = sendEach (sendEach t ms) ns := List.foldl_append

end Transport

/-- What an operation of a pool wants sent through the server. One that fails wants nothing sent. -/
def Outgoing.posted : Except PoolError Outgoing → List Message
  | .ok out => out.signals
  | .error _ => []

/-- A message that does not tell the server of our lobby. -/
inductive Message.Routine : Message → Prop where
  | negotiates {m : Message} (negotiates : m.Negotiates) : Routine m
  | advertisement (peer : PeerId) (ad : Ad) : Routine ⟨peer, .gameAd, ad.payload⟩
  | solicits (peer : PeerId) : Routine ⟨peer, .solicitAds, ""⟩
  | inquires : Routine (.toServer .requestAdvertisers)

namespace Session

variable {τ : Type}

/-- What an event makes of our lobby. -/
def Event.opens? : Event τ → Option Bool
  | .advertise _ => some true
  | .unadvertise => some false
  | _ => none

/-- What holds of a look at the connection, of the verbs that open and close the lobby, and of every
event that is none of these, holds of every event. -/
theorem Event.by_lobby {P : Event τ → Prop} (look : P .checkGeneration)
    (opens : ∀ ad, P (.advertise ad)) (closes : P .unadvertise)
    (others : ∀ e, e ≠ .checkGeneration → e.opens? = none → P e) (e : Event τ) : P e := by
  cases e with
  | checkGeneration => exact look
  | advertise ad => exact opens ad
  | unadvertise => exact closes
  | _ => exact others _ nofun rfl

/-- What the server is told on a new connection: who we are, if we know, and that the lobby is
open. -/
def resumption (localId : Option PeerId) : List Message :=
  (localId.map fun id => ⟨PeerId.server, .serverSetClientId, id.text⟩).toList ++
    [.toServer .startAdvertising]

/-- What pinging peers and asking them for their advertisements has sent. -/
def solicitations (o : Occasion) : Pool → List PeerId → List Message
  | _, [] => []
  | p, peer :: peers =>
    Outgoing.posted (p.ping peer o).2 ++
      ⟨peer, .solicitAds, ""⟩ :: solicitations o (p.ping peer o).1 peers

variable [Transport τ]

/-- What an event has the session send, in order. -/
def sends (s : Session τ) : Event τ → List Message
  | .checkGeneration =>
    if Transport.generation s.transport = s.generation ∨ s.hosted.isNone then []
    else resumption s.localId
  | .dispatch m o =>
    match m.kind with
    | .solicitAds => (s.hosted.map fun ad => ⟨m.peer, .gameAd, ad.payload⟩).toList
    | .agentLocalDescription | .agentCandidate | .agentGatheringDone =>
      Outgoing.posted (s.pool.negotiate m.peer m.kind m.data o).2
    | _ => []
  | .discover o => .toServer .requestAdvertisers :: solicitations o s.pool s.advertisers
  | .advertise _ => [.toServer .startAdvertising]
  | .unadvertise => [.toServer .stopAdvertising]
  | .datagram peer source octets o => (s.pool.onDatagram peer source octets o).2.signals
  | .tick o => (s.pool.tickAll o).2.signals
  | _ => []

/-- From `s` to `s'` the session has sent `ms`, and the lobby and the connection that it has looked
at are as they were. -/
structure Sends (s s' : Session τ) (ms : List Message) : Prop where
  hosted : s'.hosted = s.hosted
  seen : s'.generation = s.generation
  transport : s'.transport = Transport.sendEach s.transport ms

theorem Sends.trans {s s' s'' : Session τ} {ms ns : List Message} (h : Sends s s' ms)
    (h' : Sends s' s'' ns) : Sends s s'' (ms ++ ns) := by
  refine ⟨h'.hosted.trans h.hosted, h'.seen.trans h.seen, ?_⟩
  rw [h'.transport, h.transport, Transport.sendEach_append]

theorem ensureAgent_sends (s : Session τ) (o : Occasion) (peer : PeerId) :
    Sends s (s.ensureAgent o peer) [] := by
  unfold ensureAgent
  split <;> exact ⟨rfl, rfl, rfl⟩

theorem foldl_ensureAgent_sends (o : Occasion) (peers : List PeerId) (s : Session τ) :
    Sends s (peers.foldl (fun s peer => s.ensureAgent o peer) s) [] := by
  induction peers generalizing s with
  | nil => exact ⟨rfl, rfl, rfl⟩
  | cons peer peers ih => exact (s.ensureAgent_sends o peer).trans (ih _)

theorem mergeAd_sends (s : Session τ) (host : PeerId) (data : String) (o : Occasion) :
    Sends s (s.mergeAd host data o).1 [] := by
  unfold mergeAd
  split
  · exact ⟨rfl, rfl, rfl⟩
  · split <;> exact ⟨rfl, rfl, rfl⟩

theorem send_sends (s : Session τ) (m : Message) : Sends s (s.send m).1 [m] := ⟨rfl, rfl, rfl⟩

theorem sendAll_sends (s : Session τ) (ms : List Message) : Sends s (s.sendAll ms) ms := by
  induction ms generalizing s with
  | nil => exact ⟨rfl, rfl, rfl⟩
  | cons m ms ih => exact (s.send_sends m).trans (ih _)

/-- The pool does something, and what its agents want sent is sent. -/
theorem emit_sends (s : Session τ) (pool : Pool) (out : Outgoing) :
    Sends s ({ s with pool }.emit out) out.signals := by
  have worked : Sends s { s with pool, datagrams := s.datagrams ++ out.datagrams } [] :=
    ⟨rfl, rfl, rfl⟩
  exact worked.trans (sendAll_sends _ _)

theorem dispatch_sends (s : Session τ) (m : Message) (o : Occasion) :
    Sends s (s.dispatch m o).1 (s.sends (.dispatch m o)) := by
  cases kind : m.kind with
  | startAdvertising | stopAdvertising | serverEcho =>
    simp only [dispatch, sends, kind]
    exact ⟨rfl, rfl, rfl⟩
  | serverSetClientId =>
    simp only [dispatch, sends, kind]
    split
    · exact ⟨rfl, rfl, rfl⟩
    · split <;> exact ⟨rfl, rfl, rfl⟩
  | requestAdvertisers =>
    simp only [dispatch, sends, kind]
    have updated : Sends s ((s.othersIn m.data).foldl (fun s peer => s.ensureAgent o peer) s) [] :=
      foldl_ensureAgent_sends o _ s
    exact updated.trans ⟨rfl, rfl, rfl⟩
  | solicitAds =>
    simp only [dispatch, sends, kind]
    cases s.hosted with
    | none => exact ⟨rfl, rfl, rfl⟩
    | some ad => exact s.send_sends _
  | gameAd =>
    simp only [dispatch, sends, kind]
    exact s.mergeAd_sends ..
  | agentLocalDescription | agentCandidate | agentGatheringDone =>
    simp only [dispatch, sends, kind]
    split
    · rename_i pool out negotiated
      rw [negotiated]
      exact s.emit_sends pool out
    · rename_i pool e negotiated
      rw [negotiated]
      exact ⟨rfl, rfl, rfl⟩

theorem solicit_sends (s : Session τ) (o : Occasion) (peer : PeerId) :
    Sends s (s.solicit o peer)
      (Outgoing.posted (s.pool.ping peer o).2 ++ [⟨peer, .solicitAds, ""⟩]) := by
  unfold solicit
  cases s.pool.ping peer o with
  | mk pool result =>
    cases result with
    | ok out => exact (s.emit_sends pool out).trans (send_sends _ _)
    | error =>
      have worked : Sends s { s with pool } [] := ⟨rfl, rfl, rfl⟩
      exact worked.trans (send_sends _ _)

theorem foldl_solicit_sends (o : Occasion) (peers : List PeerId) (s : Session τ) :
    Sends s (peers.foldl (fun s peer => s.solicit o peer) s) (solicitations o s.pool peers) := by
  induction peers generalizing s with
  | nil => exact ⟨rfl, rfl, rfl⟩
  | cons peer peers ih =>
    have pool : (s.solicit o peer).pool = (s.pool.ping peer o).1 := (s.solicit_does o peer).pool
    have rest := ih (s.solicit o peer)
    rw [pool] at rest
    have all := (s.solicit_sends o peer).trans rest
    rwa [List.append_assoc] at all

theorem discover_sends (s : Session τ) (o : Occasion) :
    Sends s (s.discover o) (s.sends (.discover o)) := by
  have shown : Sends s s.showStatus [] := by
    unfold showStatus
    split <;> exact ⟨rfl, rfl, rfl⟩
  have asked := shown.trans (send_sends s.showStatus (.toServer .requestAdvertisers))
  have does := s.showStatus_does.trans (s.showStatus.send_does (.toServer .requestAdvertisers))
  have called := foldl_solicit_sends o s.advertisers
    (s.showStatus.send (.toServer .requestAdvertisers)).1
  rw [does.pool] at called
  unfold discover
  simp only
  rw [does.advertisers]
  exact asked.trans called

theorem checkGeneration_sends (s : Session τ) :
    Sends { s with generation := Transport.generation s.transport } s.checkGeneration
      (s.sends .checkGeneration) := by
  unfold checkGeneration sends
  simp only
  split
  · exact ⟨rfl, rfl, rfl⟩
  · cases s.localId with
    | none => exact send_sends _ _
    | some id => exact (send_sends _ _).trans (send_sends _ _)

/-- Of the events that do not open or close the lobby, all but a look at the connection leave both
the lobby and what has been looked at alone. -/
theorem step_sends (s : Session τ) {e : Event τ} (own : ∀ t, e ≠ .transport t)
    (looks : e ≠ .checkGeneration) (silent : e.opens? = none) :
    Sends s (s.step e) (s.sends e) := by
  cases e with
  | transport t => exact absurd rfl (own t)
  | checkGeneration => exact absurd rfl looks
  | advertise | unadvertise => cases silent
  | dispatch m o => exact s.dispatch_sends m o
  | discover o => exact s.discover_sends o
  | datagram | tick => exact s.emit_sends _ _
  | prune | advertisements | sent | receive | drain | takeDatagrams => exact ⟨rfl, rfl, rfl⟩

/-- What an event makes of the lobby, and that only a look at the connection is one. -/
theorem step_lobby (s : Session τ) {e : Event τ} (own : ∀ t, e ≠ .transport t) :
    (s.step e).isAdvertising = e.opens?.getD s.isAdvertising ∧
      (e ≠ .checkGeneration → (s.step e).generation = s.generation) := by
  cases e using Event.by_lobby with
  | look =>
    exact ⟨congrArg Option.isSome s.checkGeneration_sends.hosted, fun other => absurd rfl other⟩
  | opens | closes => exact ⟨rfl, fun _ => rfl⟩
  | others e looks silent =>
    have sends := s.step_sends own looks silent
    rw [silent]
    exact ⟨congrArg Option.isSome sends.hosted, fun _ => sends.seen⟩

/-- **All that an event does to the transport is to hand it what the event has sent.** -/
theorem step_transport (s : Session τ) {e : Event τ} (own : ∀ t, e ≠ .transport t) :
    (s.step e).transport = Transport.sendEach s.transport (s.sends e) := by
  cases e using Event.by_lobby with
  | look => exact s.checkGeneration_sends.transport
  | opens | closes => rfl
  | others e looks silent => exact (s.step_sends own looks silent).transport

/-! ### What is routine -/

theorem posted_routine {r : Except PoolError Outgoing}
    (negotiates : ∀ out, r = .ok out → out.Negotiates) : ∀ m ∈ Outgoing.posted r, m.Routine := by
  cases r with
  | ok out => exact fun m hm => .negotiates (negotiates out rfl m hm)
  | error => exact nofun

theorem solicitations_routine (o : Occasion) (peers : List PeerId) {p : Pool} (distinct : p.Distinct)
    (grown : p.Grown) : ∀ m ∈ solicitations o p peers, m.Routine := by
  induction peers generalizing p with
  | nil => exact nofun
  | cons peer peers ih =>
    intro m hm
    rcases List.mem_append.1 hm with pings | rest
    · exact posted_routine (fun _ => Pool.ping_negotiates distinct grown) m pings
    · rcases List.mem_cons.1 rest with rfl | later
      · exact .solicits peer
      · exact ih (Pool.step_distinct distinct (.ping peer o))
          (Pool.step_grown distinct grown (.ping peer o)) m later

/-- Every agent of the pool goes on having come about by a run. -/
theorem step_grown {s : Session τ} (sound : s.Sound) (grown : s.pool.Grown) (e : Event τ) :
    (s.step e).pool.Grown := by
  rw [(s.step_turns e).pool]
  exact Pool.run_grown sound.distinct grown _

/-- **Whatever does not tell of our lobby is routine.** -/
theorem sends_routine {s : Session τ} (distinct : s.pool.Distinct) (grown : s.pool.Grown)
    {e : Event τ} (looks : e ≠ .checkGeneration) (silent : e.opens? = none) :
    ∀ m ∈ s.sends e, m.Routine := by
  cases e with
  | checkGeneration => exact absurd rfl looks
  | advertise | unadvertise => cases silent
  | dispatch m o =>
    cases kind : m.kind with
    | solicitAds =>
      simp only [sends, kind]
      cases s.hosted with
      | none => exact nofun
      | some ad => exact List.forall_mem_singleton.2 (.advertisement m.peer ad)
    | agentLocalDescription | agentCandidate | agentGatheringDone =>
      simp only [sends, kind]
      exact posted_routine fun _ => Pool.negotiate_negotiates distinct grown
    | _ =>
      simp only [sends, kind]
      exact nofun
  | discover o =>
    exact List.forall_mem_cons.2
      ⟨.inquires, solicitations_routine o s.advertisers distinct grown⟩
  | datagram peer source octets o =>
    exact fun m hm => .negotiates (Pool.onDatagram_negotiates grown peer source octets o m hm)
  | tick o => exact fun m hm => .negotiates (Pool.tickAll_negotiates distinct grown o m hm)
  | transport | prune | advertisements | sent | receive | drain | takeDatagrams => exact nofun

end Session
end Parley

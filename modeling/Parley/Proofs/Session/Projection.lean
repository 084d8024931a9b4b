import Parley.Session
/-!
A session seen over another transport.

What a session does with the messages that it gets depends on its transport nowhere but in what the
transport is handed. So a map of transports that goes along with handing over (`Hands`) goes along
with all of it: what comes of a message may be read off either session.
-/
namespace Parley

/-- A map of transports that a message may be handed to before it or after. -/
def Hands {τ σ : Type} [Transport τ] [Transport σ] (f : τ → σ) : Prop :=
  ∀ t m, f (Transport.send t m).1 = (Transport.send (f t) m).1

namespace Session

variable {τ σ : Type}

/-- The session over what a map makes of its transport. -/
def through (f : τ → σ) (s : Session τ) : Session σ := { s with transport := f s.transport }

section Books
variable (f : τ → σ)

@[simp] theorem through_pool (s : Session τ) : (s.through f).pool = s.pool := rfl

@[simp] theorem through_hosted (s : Session τ) : (s.through f).hosted = s.hosted := rfl

theorem through_ensureAgent (o : Occasion) (s : Session τ) (peer : PeerId) :
    (s.through f).ensureAgent o peer = (s.ensureAgent o peer).through f := by
  simp only [ensureAgent, through_pool]
  cases s.pool.ensure peer o <;> rfl

theorem through_mergeAd (s : Session τ) (host : PeerId) (data : String) (o : Occasion) :
    ((s.through f).mergeAd host data o).1 = (s.mergeAd host data o).1.through f := by
  simp only [mergeAd, through_pool]
  cases Ad.ofPayload data with
  | error => rfl
  | ok ad => cases s.pool.ensure host o <;> rfl

end Books

variable [Transport τ] [Transport σ] {f : τ → σ}

theorem through_send (hands : Hands f) (s : Session τ) (m : Message) :
    ((s.through f).send m).1 = (s.send m).1.through f :=
  congrArg (fun t : σ => { s with transport := t }) (hands s.transport m).symm

theorem through_sendAll (hands : Hands f) (s : Session τ) (ms : List Message) :
    (s.through f).sendAll ms = (s.sendAll ms).through f :=
  List.foldl_hom (through f) fun s m => through_send hands s m

theorem through_emit (hands : Hands f) (s : Session τ) (pool : Pool) (out : Outgoing) :
    { s.through f with pool }.emit out = ({ s with pool }.emit out).through f :=
  through_sendAll hands { s with pool, datagrams := s.datagrams ++ out.datagrams } out.signals

/-- **What comes of a message goes along with the map.** -/
theorem through_dispatch (hands : Hands f) (s : Session τ) (m : Message) (o : Occasion) :
    ((s.through f).dispatch m o).1 = (s.dispatch m o).1.through f := by
  cases kind : m.kind with
  | startAdvertising | stopAdvertising | serverEcho => simp only [dispatch, kind]
  | serverSetClientId =>
    simp only [dispatch, kind]
    split
    · rfl
    · split <;> rfl
  | requestAdvertisers =>
    simp only [dispatch, kind]
    have ensured : (s.othersIn m.data).foldl (fun s peer => s.ensureAgent o peer) (s.through f) =
        ((s.othersIn m.data).foldl (fun s peer => s.ensureAgent o peer) s).through f :=
      List.foldl_hom (through f) (through_ensureAgent f o)
    exact congrArg (fun t : Session σ => { t with advertisers := s.othersIn m.data }) ensured
  | solicitAds =>
    simp only [dispatch, kind, through_hosted]
    cases s.hosted with
    | none => rfl
    | some ad => exact through_send hands s _
  | gameAd =>
    simp only [dispatch, kind]
    exact s.through_mergeAd f ..
  | agentLocalDescription | agentCandidate | agentGatheringDone =>
    simp only [dispatch, kind, through_pool]
    split
    · exact through_emit hands s _ _
    · rfl

theorem through_dispatchAll (hands : Hands f) (s : Session τ) (batch : List (Message × Occasion)) :
    (s.through f).dispatchAll batch = (s.dispatchAll batch).through f :=
  List.foldl_hom (through f) fun s x => through_dispatch hands s x.1 x.2

theorem through_solicit (hands : Hands f) (o : Occasion) (s : Session τ) (peer : PeerId) :
    (s.through f).solicit o peer = (s.solicit o peer).through f := by
  simp only [solicit, through_pool]
  cases s.pool.ping peer o with
  | mk pool result =>
    cases result with
    | ok out =>
      show (({ s.through f with pool }.emit out).send ⟨peer, .solicitAds, ""⟩).1 = _
      rw [through_emit hands]
      exact through_send hands _ _
    | error => exact through_send hands { s with pool } _

end Session
end Parley

import Parley.Client
import Parley.Proofs.Session.Run
import Mathlib.Data.List.Infix
/-!
Who of the known peers has an agent.

A session sees to an agent whenever it comes to know of a peer, as an advertiser or by its
advertisement. The agent need not last as long as the knowledge. One that has not heard of its peer
for a minute is dropped by pruning, also when the peer is still listed; and our own identity, when
we learn it late, may name a peer whose agent then is not created again. The server gets no agent at
all. `run_covers` says that these are the only ways in which a known peer is without an agent, that
the next word of the peer or to it ends the lack, and that an entry which is not of a running game
is never older than its agent can be. `known_without_agent` is a run that ends with a lack.
-/
namespace Parley
namespace Session

variable {τ : Type}

/-- There is an agent for a peer. -/
def HasAgent (s : Session τ) (peer : PeerId) : Prop := s.pool.HasAgent peer

/-- An event sees to an agent for a peer: it lists the peer as an advertiser, merges its
advertisement, hands on a message of its negotiation, or pings it. -/
inductive Calls (s : Session τ) (peer : PeerId) : Event τ → Prop where
  | lists {m : Message} {o : Occasion} (kind : m.kind = .requestAdvertisers)
      (listed : peer ∈ s.othersIn m.data) : Calls s peer (.dispatch m o)
  | merges {m : Message} {o : Occasion} {ad : Ad} (kind : m.kind = .gameAd) (sender : m.peer = peer)
      (read : Ad.ofPayload m.data = .ok ad) : Calls s peer (.dispatch m o)
  | negotiates {m : Message} {o : Occasion}
      (kind : m.kind ∈ [.agentLocalDescription, .agentCandidate, .agentGatheringDone])
      (sender : m.peer = peer) : Calls s peer (.dispatch m o)
  | pings {o : Occasion} (known : peer ∈ s.advertisers) : Calls s peer (.discover o)

/-- An event drops the agent of a peer: one that has been idle for long and is not negotiating, or
one of our own identity that is out of date. -/
inductive Drops (s : Session τ) (peer : PeerId) : Event τ → Prop where
  | idle {now : Nat} {a : Agent} (agent : s.pool.agent? peer = some a) (settled : a.state ≠ .checking)
      (idle : Pool.idleTimeout < a.idleFor now) : Drops s peer (.prune now)
  | ownMessage {m : Message} {o : Occasion} {a : Agent} (own : s.localId = some peer)
      (sender : m.peer = peer) (agent : s.pool.agent? peer = some a)
      (outdated : Pool.outdates m.kind m.data a = true) : Drops s peer (.dispatch m o)
  | ownPing {o : Occasion} {a : Agent} (own : s.localId = some peer) (known : peer ∈ s.advertisers)
      (agent : s.pool.agent? peer = some a) (finished : a.state.isTerminal = true) :
      Drops s peer (.discover o)

section Step
variable {s : Session τ} (h : s.Sound)
include h

/-- Only we ourselves have an agent that could not be created. -/
theorem own_of_refused {peer : PeerId} (has : s.HasAgent peer) (refused : ¬s.pool.Admits peer) :
    s.localId = some peer := by
  by_contra other
  refine refused ⟨h.running, fun server => ?_, h.localId ▸ other⟩
  exact h.unserved (server ▸ has)

variable [Transport τ]

/-- **Nothing else drops an agent.** -/
theorem drops_of_lost {e : Event τ} {peer : PeerId} (has : s.HasAgent peer)
    (lost : ¬(s.step e).HasAgent peer) : s.Drops peer e := by
  unfold HasAgent at lost
  rw [(s.step_turns e).pool] at lost
  obtain ⟨before, w, after, slot, split, one, discards⟩ :=
    Pool.discards_of_lost_run h.distinct has lost
  have hslot : slot.peer = peer := Pool.peer_of_held (one ▸ List.mem_singleton_self slot)
  have origin : s.Origin e w := work_origin (split ▸ List.mem_append_right _ List.mem_cons_self)
  have alone {v : Pool.Event} (work : s.work e = [v]) : before = [] := by
    rw [work] at split
    rcases List.append_eq_singleton_iff.1 split.symm with ⟨first, -⟩ | ⟨-, none⟩
    · exact first
    · cases none
  cases discards with
  | idle idle =>
    cases origin with
    | prune =>
      cases alone rfl
      simp only [Pool.isIdle, Bool.and_eq_true, decide_eq_true_eq] at idle
      exact .idle (Pool.agent?_of_held one) idle.1 idle.2
  | outdated own outdated refused =>
    cases origin with
    | negotiate work =>
      cases alone work
      have sender := own.symm.trans hslot
      exact .ownMessage (own_of_refused h has (sender ▸ refused)) sender (Pool.agent?_of_held one)
        outdated
  | @finished pinged o own _ refused =>
    cases origin with
    | ping known =>
      have same : pinged = peer := own.symm.trans hslot
      rw [same] at known refused
      obtain ⟨slot, one⟩ := (h.distinct.cases peer).resolve_left (Pool.hasAgent_iff.1 has)
      have refused : ¬s.pool.Admits peer := by
        intro admits
        refine refused ((Pool.run_settings fun v hv => ?_).admits admits)
        have pinged : v ∈ s.work (.discover o) := split ▸ List.mem_append_left _ hv
        exact steady_map (fun _ => rfl) _ v pinged
      refine .ownPing (own_of_refused h has refused) known (Pool.agent?_of_held one) ?_
      by_contra unfinished
      exact lost (Pool.run_pings h.distinct one (Bool.not_eq_true _ ▸ unfinished) o s.advertisers)
  | shutdown => cases origin

/-- Whoever an event calls for has an agent after it, but for the server and ourselves. -/
theorem hasAgent_of_called {e : Event τ} {peer : PeerId} (calls : s.Calls peer e)
    (notServer : peer ≠ PeerId.server) (notOwn : s.localId ≠ some peer) :
    (s.step e).HasAgent peer := by
  have admits : s.pool.Admits peer := ⟨h.running, notServer, h.localId ▸ notOwn⟩
  have kept (steady : ∀ w ∈ s.work e, w.isSteady = true ∧ ∀ now, w ≠ .prune now)
      (called : ∃ w ∈ s.work e, w.called? = some peer) : (s.step e).HasAgent peer := by
    unfold HasAgent
    rw [(s.step_turns e).pool]
    exact Pool.run_called h.distinct admits steady (.inr called)
  cases calls with
  | @lists m o kind listed =>
    have work : s.work (.dispatch m o) = (s.othersIn m.data).map (.ensure · o) := by
      simp only [Session.work, kind]
    rw [work] at kept
    refine kept (fun w hw => ?_) ⟨_, List.mem_map_of_mem listed, rfl⟩
    obtain ⟨_, -, rfl⟩ := List.mem_map.1 hw
    exact ⟨rfl, by simp⟩
  | @merges m o ad kind sender read =>
    subst sender
    obtain ⟨q, ensured⟩ := admits.ensure o
    have work : s.work (.dispatch m o) =
        .ensure m.peer o :: if ad.isInProgress then [] else [.touch m.peer o.now] := by
      simp only [Session.work, kind, read, ensured]
    rw [work] at kept
    refine kept (fun w hw => ?_) ⟨_, List.mem_cons_self, rfl⟩
    rcases List.mem_cons.1 hw with rfl | hw
    · exact ⟨rfl, by simp⟩
    · split at hw
      · cases hw
      · rw [List.mem_singleton.1 hw]
        exact ⟨rfl, by simp⟩
  | @negotiates m o kind sender =>
    subst sender
    have work : s.work (.dispatch m o) = [.negotiate m.peer m.kind m.data o] := by
      simp only [List.mem_cons, List.not_mem_nil, or_false] at kind
      rcases kind with kind | kind | kind <;> simp only [Session.work, kind]
    rw [work] at kept
    refine kept (fun w hw => ?_) ⟨_, List.mem_singleton_self _, rfl⟩
    rw [List.mem_singleton.1 hw]
    exact ⟨rfl, by simp⟩
  | @pings o known =>
    refine kept (fun w hw => ?_) ⟨_, List.mem_map_of_mem known, rfl⟩
    obtain ⟨_, -, rfl⟩ := List.mem_map.1 hw
    exact ⟨rfl, by simp⟩

/-- A peer that is listed has an agent then, unless it is the server. -/
theorem hasAgent_of_listed {e : Event τ} {peer : PeerId} (lists : s.Lists e peer)
    (notServer : peer ≠ PeerId.server) : (s.step e).HasAgent peer := by
  cases lists with
  | @mk m o _ kind listed =>
    refine hasAgent_of_called h (.lists kind listed) notServer fun own => ?_
    obtain ⟨read, -, found⟩ := List.mem_filterMap.1 listed
    cases read with
    | error => cases found
    | ok other =>
      simp only at found
      split at found
      · cases found
      · rename_i different
        cases found
        exact different own

omit h in
/-- The host of an entry has an agent when the entry is made, which has heard of its peer then
unless the game has started. -/
theorem hasAgent_of_merged {e : Event τ} {a : Ad} (merges : s.Merges e a) :
    (s.step e).HasAgent a.host ∧ ∃ now, e.now? = some now ∧ a.lastSeen = some now ∧
      (a.isInProgress = false →
        ∀ slot ∈ (s.step e).pool.held a.host, now ≤ slot.agent.lastActivity) := by
  cases merges with
  | @mk m o _ q host seen ensured pool =>
    have created : q.held m.peer ≠ [] := by
      rw [Pool.held_ensure ensured]
      rcases Pool.ensure_eq_ok ensured with ⟨there, -⟩ | ⟨vacant, -, -⟩
      · rwa [if_neg fun both => there both.2]
      · rw [if_pos ⟨rfl, vacant⟩]
        exact List.cons_ne_nil _ _
    have keeps : ∀ s : Slot, s.peer = m.peer → (s.run [.touch o.now]).peer = m.peer :=
      Slot.peer_run_of _
    have touched := Pool.held_update (p := q) keeps m.peer
    rw [if_pos rfl] at touched
    have touch : (q.touch m.peer o.now).held m.peer =
      (q.held m.peer).map fun s => s.run [.touch o.now] := touched
    refine ⟨?_, o.now, rfl, seen, fun ended slot hslot => ?_⟩
    · unfold HasAgent
      rw [host, Pool.hasAgent_iff, pool]
      split
      · exact created
      · rw [touch]
        exact fun none => created (List.map_eq_nil_iff.1 none)
    · rw [host, pool, ended, if_neg Bool.false_ne_true, touch] at hslot
      obtain ⟨old, -, rfl⟩ := List.mem_map.1 hslot
      exact Nat.le_refl _

end Step

/-! ### Runs -/

variable [Transport τ]

/-- The agent of a peer has been dropped, and there has been none since. -/
structure Lost (s : Session τ) (peer : PeerId) (before : List (Event τ)) (e : Event τ)
    (after : List (Event τ)) : Prop where
  dropped : (s.run before).Drops peer e
  since : ∀ front, front <+: after → ¬(s.run (before ++ e :: front)).HasAgent peer

/-- After a run a peer has an agent, or has lost it. -/
def Accounted (s : Session τ) (es : List (Event τ)) (peer : PeerId) : Prop :=
  (s.run es).HasAgent peer ∨
    ∃ before e after, es = before ++ e :: after ∧ s.Lost peer before e after

theorem accounted_concat {s : Session τ} (h : s.Sound) {es : List (Event τ)} {e : Event τ}
    {peer : PeerId} (known : s.Accounted es peer ∨ (s.run (es ++ [e])).HasAgent peer) :
    s.Accounted (es ++ [e]) peer := by
  by_cases has : (s.run (es ++ [e])).HasAgent peer
  · exact .inl has
  · rcases known.resolve_right has with had | ⟨before, d, after, rfl, lost⟩
    · refine .inr ⟨es, e, [], rfl, ?_, fun front hfront => ?_⟩
      · rw [run_concat] at has
        exact drops_of_lost (run_sound h es) had has
      · rw [List.prefix_nil.1 hfront]
        exact has
    · refine .inr ⟨before, d, after ++ [e], by simp, lost.dropped, fun front hfront => ?_⟩
      rcases List.prefix_concat_iff.1 hfront with rfl | earlier
      · simpa using has
      · exact lost.since front earlier

/-- Every known peer is accounted for, but for the server. -/
theorem known_accounted {s : Session τ} (h : s.Sound) (noAds : s.directory.ads = [])
    (noAdvertisers : s.advertisers = []) (es : List (Event τ)) :
    (∀ peer ∈ (s.run es).advertisers, peer ≠ PeerId.server → s.Accounted es peer) ∧
      ∀ a ∈ (s.run es).directory.ads, s.Accounted es a.host := by
  induction es using List.reverseRecOn with
  | nil =>
    refine ⟨fun peer known => ?_, fun a known => ?_⟩
    · rw [show (s.run []).advertisers = [] from noAdvertisers] at known
      cases known
    · rw [show (s.run []).directory.ads = [] from noAds] at known
      cases known
  | append_singleton es e ih =>
    have sound := run_sound h es
    have turns := (s.run es).step_turns e
    refine ⟨fun peer known notServer => accounted_concat h ?_, fun a known => accounted_concat h ?_⟩
    · rw [run_concat] at known ⊢
      refine (turns.advertisers peer known).imp (ih.1 peer · notServer) fun lists => ?_
      exact hasAgent_of_listed sound lists notServer
    · rw [run_concat] at known ⊢
      exact (turns.ads a known).imp (ih.2 a) fun merges => (hasAgent_of_merged merges).1

/-! ### Time -/

/-- Time does not run backwards in a run. -/
def Ordered (es : List (Event τ)) : Prop := (es.filterMap Event.now?).Pairwise (· ≤ ·)

omit [Transport τ] in
theorem ordered_append {es fs : List (Event τ)} : Ordered (es ++ fs) ↔
    Ordered es ∧ Ordered fs ∧
      ∀ e ∈ es, ∀ now, e.now? = some now → ∀ f ∈ fs, ∀ later, f.now? = some later → now ≤ later := by
  unfold Ordered
  rw [List.filterMap_append, List.pairwise_append]
  simp only [List.mem_filterMap]
  refine and_congr_right fun _ => and_congr_right fun _ => ⟨?_, ?_⟩
  · intro h e he now hnow f hf later hlater
    exact h now ⟨e, he, hnow⟩ later ⟨f, hf, hlater⟩
  · rintro h now ⟨e, he, hnow⟩ later ⟨f, hf, hlater⟩
    exact h e he now hnow f hf later hlater

/-- An entry was seen at some time of the run, and since then the agent of its host has heard of the
host, unless the game has started. -/
theorem run_noted {s : Session τ} (h : s.Sound) (noAds : s.directory.ads = [])
    {es : List (Event τ)} (ordered : Ordered es) {a : Ad} (listed : a ∈ (s.run es).directory.ads) :
    ∃ e ∈ es, ∃ seen, e.now? = some seen ∧ a.lastSeen = some seen ∧
      (a.isInProgress = false →
        ∀ slot ∈ (s.run es).pool.held a.host, seen ≤ slot.agent.lastActivity) := by
  induction es using List.reverseRecOn with
  | nil =>
    rw [show (s.run []).directory.ads = [] from noAds] at listed
    cases listed
  | append_singleton es e ih =>
    obtain ⟨earlier, -, order⟩ := ordered_append.1 ordered
    have turns := (s.run es).step_turns e
    rw [run_concat] at listed ⊢
    rcases turns.ads a listed with old | merges
    · obtain ⟨f, hf, seen, hseen, last, heard⟩ := ih earlier old
      refine ⟨f, List.mem_append_left _ hf, seen, hseen, last, fun ended => ?_⟩
      rw [turns.pool]
      refine Pool.run_heard (run_sound h es).distinct (heard ended) fun w hw now hnow => ?_
      exact order f hf seen hseen e (List.mem_singleton_self e) now (work_now w hw now hnow)
    · obtain ⟨-, seen, hseen, last, heard⟩ := hasAgent_of_merged merges
      exact ⟨e, List.mem_append_right _ (List.mem_singleton_self e), seen, hseen, last, heard⟩

/-- An entry whose host has lost its agent was there before. -/
theorem listed_of_lost {s : Session τ} {a : Ad} {before : List (Event τ)} {e : Event τ}
    {after : List (Event τ)} (lost : s.Lost a.host before e after)
    (listed : a ∈ (s.run (before ++ e :: after)).directory.ads) :
    a ∈ (s.run before).directory.ads := by
  induction after using List.reverseRecOn with
  | nil =>
    have since := lost.since [] List.nil_prefix
    rw [run_concat] at listed since
    refine (((s.run before).step_turns e).ads a listed).resolve_right fun merges => ?_
    exact since (hasAgent_of_merged merges).1
  | append_singleton after d ih =>
    have run : s.run (before ++ e :: (after ++ [d])) = (s.run (before ++ e :: after)).step d := by
      rw [← run_concat, List.append_assoc, List.cons_append]
    have since := lost.since (after ++ [d]) (List.prefix_refl _)
    rw [run] at listed since
    have earlier : s.Lost a.host before e after :=
      ⟨lost.dropped, fun front hfront => lost.since front (hfront.trans (List.prefix_append ..))⟩
    refine ih earlier ((((s.run _).step_turns d).ads a listed).resolve_right fun merges => ?_)
    exact since (hasAgent_of_merged merges).1

/-- An entry that is live and not of a running game has an agent for its host, unless that is an
identity of our own. -/
theorem recent_covered {s : Session τ} (h : s.Sound) (noAds : s.directory.ads = [])
    {es : List (Event τ)} (ordered : Ordered es) {now : Nat}
    (past : ∀ e ∈ es, ∀ t, e.now? = some t → t ≤ now) {a : Ad}
    (listed : a ∈ (s.run es).directory.ads) (live : Directory.isLive now a = true)
    (ended : a.isInProgress = false) (accounted : s.Accounted es a.host) :
    (s.run es).HasAgent a.host ∨ ∃ before e after, es = before ++ e :: after ∧
      s.Lost a.host before e after ∧ (s.run before).localId = some a.host := by
  refine accounted.imp_right fun ⟨before, e, after, split, lost⟩ => ?_
  subst split
  refine ⟨before, e, after, rfl, lost, ?_⟩
  cases lost.dropped with
  | ownMessage own | ownPing own => exact own
  | @idle t agent found _ idle =>
    -- The entry is as old as the word that the agent has last had, or older.
    have listed := listed_of_lost lost listed
    have order := (ordered_append.1 ordered).1
    obtain ⟨_, -, seen, -, last, heard⟩ := run_noted h noAds order listed
    obtain ⟨slot, one⟩ := ((run_sound h before).distinct.cases a.host).resolve_left
      (Pool.hasAgent_iff.1 ⟨agent, found⟩)
    have same : slot.agent = agent := by
      rw [Pool.agent?_of_held one] at found
      exact Option.some.inj found
    have recent := heard ended slot (one ▸ List.mem_singleton_self slot)
    have pruned : t ≤ now := past _ (List.mem_append_right _ List.mem_cons_self) t rfl
    rw [same] at recent
    simp only [Directory.isLive, last, decide_eq_true_eq] at live
    unfold Agent.idleFor at idle
    have long : Directory.timeToLive < Pool.idleTimeout := by decide
    omega

/-- How the agents of a session cover the peers that it knows. -/
structure Covers (s : Session τ) (es : List (Event τ)) : Prop where
  /-- An advertiser has an agent or has lost it, but for the server. -/
  advertisers : ∀ peer ∈ (s.run es).advertisers, peer ≠ PeerId.server → s.Accounted es peer
  /-- So has the host of an entry, whether that has expired or not. -/
  hosts : ∀ a ∈ (s.run es).directory.ads, s.Accounted es a.host
  /-- While an entry is live and its game has not started, only our own identity loses its agent. -/
  recent : Ordered es → ∀ now, (∀ e ∈ es, ∀ t, e.now? = some t → t ≤ now) →
    ∀ a ∈ (s.run es).directory.ads, Directory.isLive now a = true → a.isInProgress = false →
      (s.run es).HasAgent a.host ∨ ∃ before e after, es = before ++ e :: after ∧
        s.Lost a.host before e after ∧ (s.run before).localId = some a.host
  /-- What calls for a peer makes up for the loss, but for the server and ourselves. -/
  restored : ∀ e peer, (s.run es).Calls peer e → peer ≠ PeerId.server →
    (s.run es).localId ≠ some peer → (s.run (es ++ [e])).HasAgent peer

/-- **The peers that a running session knows have agents**, unless these have been dropped since. -/
theorem run_covers (transport : τ) (client : ClientInfo) (includeLoopback : Bool)
    (es : List (Event τ)) : (new transport client includeLoopback).Covers es := by
  have sound := new_sound transport client includeLoopback
  have known := known_accounted sound rfl rfl es
  refine ⟨known.1, known.2, fun ordered now past a listed live ended => ?_, ?_⟩
  · exact recent_covered sound rfl ordered past listed live ended (known.2 a listed)
  · intro e peer calls notServer notOwn
    rw [run_concat]
    exact hasAgent_of_called (run_sound sound es) calls notServer notOwn

/-- A peer is listed, and its game has started: pruning drops the agent, since the advertisements of
a running game do not count as word of the peer, and the peer stays an advertiser with a live
entry. -/
theorem known_without_agent :
    let peer : PeerId := .filled 1
    let ad : Ad := { Ad.new "" "" 0 [] with state := Ad.inProgressState }
    let s : Client := (new ⟨Channel.new "", []⟩ ⟨0, 0⟩ false).run [
      .dispatch ⟨PeerId.server, .requestAdvertisers, peer.text⟩ (Pool.quietOccasion 0),
      .dispatch ⟨peer, .gameAd, ad.payload⟩ (Pool.quietOccasion 60500),
      .prune 61000]
    peer ∈ s.advertisers ∧ (∃ a ∈ s.directory.ads, a.host = peer ∧ Directory.isLive 61000 a = true) ∧
      s.pool.agent? peer = none := by
  decide +kernel

end Session
end Parley

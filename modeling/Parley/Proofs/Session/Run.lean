import Parley.Proofs.Lobby.Run
import Parley.Proofs.Pool.Fate
import Parley.Session
/-!
Runs of a session.

An `Event` is one call of a session that is running, with what it finds outside; between the calls
the transport changes as it likes. What is sent leaves the books of the session alone, so an event
comes down to what it has the pool do (`work`), what it lists and what it merges (`step_turns`).
What every run keeps between the pool and the session is `Sound`.
-/
namespace Parley
namespace Session

variable {τ : Type}

/-- What can be done with a session while it is running. -/
inductive Event (τ : Type) where
  /-- The transport has changed by itself. -/
  | transport (transport : τ)
  | checkGeneration
  | prune (now : Nat)
  | dispatch (m : Message) (o : Occasion)
  | discover (o : Occasion)
  | advertise (ad : Ad)
  | unadvertise
  | advertisements (now : Nat)
  | datagram (peer : PeerId) (source : SocketAddress) (octets : Bytes) (o : Occasion)
  | tick (o : Occasion)
  /-- The sockets have taken datagrams of game data. -/
  | sent (n : Nat)
  | receive (now : Nat)
  | drain (now : Nat)
  | takeDatagrams

/-- When an event happens. What is done without looking at the time has none. -/
def Event.now? : Event τ → Option Nat
  | .prune now | .advertisements now | .receive now | .drain now => some now
  | .dispatch _ o | .discover o | .datagram _ _ _ o | .tick o => some o.now
  | _ => none

/-- What an event has the pool do. -/
def work (s : Session τ) : Event τ → List Pool.Event
  | .prune now => [.prune now]
  | .dispatch m o =>
    match m.kind with
    | .serverSetClientId =>
      if Text.trim m.data = "" then [.setLocalId m.peer]
      else
        match PeerId.ofText m.data with
        | .ok id => [.setLocalId id]
        | .error _ => []
    | .requestAdvertisers => (s.othersIn m.data).map (.ensure · o)
    | .gameAd =>
      match Ad.ofPayload m.data, s.pool.ensure m.peer o with
      | .ok ad, .ok _ =>
        .ensure m.peer o :: if ad.isInProgress then [] else [.touch m.peer o.now]
      | _, _ => []
    | .agentLocalDescription | .agentCandidate | .agentGatheringDone =>
      [.negotiate m.peer m.kind m.data o]
    | _ => []
  | .discover o => s.advertisers.map (.ping · o)
  | .datagram peer source octets o => [.datagram peer source octets o]
  | .tick o => s.pool.slots.map (.tick ·.peer o)
  | .sent n => [.sent n]
  | .receive now => [.pop now]
  | .drain now => [.drain now]
  | _ => []

/-! ### What leaves the books alone -/

/-- From `s` to `s'` the pool has gone through some events, and the entries, the list of advertisers
and our identity have stayed. -/
structure Does (s s' : Session τ) (ws : List Pool.Event) : Prop where
  pool : s'.pool = s.pool.run ws
  ads : s'.directory.ads = s.directory.ads
  advertisers : s'.advertisers = s.advertisers
  localId : s'.localId = s.localId

theorem Does.trans {s s' s'' : Session τ} {ws ws' : List Pool.Event} (h : Does s s' ws)
    (h' : Does s' s'' ws') : Does s s'' (ws ++ ws') := by
  refine ⟨?_, h'.ads.trans h.ads, h'.advertisers.trans h.advertisers, h'.localId.trans h.localId⟩
  rw [h'.pool, h.pool, Pool.run, Pool.run, Pool.run, List.foldl_append]

theorem ensureAgent_does (s : Session τ) (o : Occasion) (peer : PeerId) :
    Does s (s.ensureAgent o peer) [.ensure peer o] := by
  have step : s.pool.run [.ensure peer o] = (s.pool.ensure peer o).toOption.getD s.pool := rfl
  unfold ensureAgent
  cases ensured : s.pool.ensure peer o with
  | ok pool => exact ⟨by rw [step, ensured]; rfl, rfl, rfl, rfl⟩
  | error => exact ⟨by rw [step, ensured]; rfl, rfl, rfl, rfl⟩

theorem foldl_ensureAgent_does (o : Occasion) (peers : List PeerId) (s : Session τ) :
    Does s (peers.foldl (fun s peer => s.ensureAgent o peer) s) (peers.map (.ensure · o)) := by
  induction peers generalizing s with
  | nil => exact ⟨rfl, rfl, rfl, rfl⟩
  | cons peer peers ih => exact (s.ensureAgent_does o peer).trans (ih _)

variable [Transport τ]

/-- The session after an event. -/
def step (s : Session τ) : Event τ → Session τ
  | .transport transport => { s with transport }
  | .checkGeneration => s.checkGeneration
  | .prune now => s.prune now
  | .dispatch m o => (s.dispatch m o).1
  | .discover o => s.discover o
  | .advertise ad => (s.advertise ad).1
  | .unadvertise => s.unadvertise.1
  | .advertisements now => (s.advertisements now).1
  | .datagram peer source octets o => s.onDatagram peer source octets o
  | .tick o => s.tick o
  | .sent n => { s with pool := s.pool.countSent n }
  | .receive now => (s.receive now).1
  | .drain now => (s.drain now).1
  | .takeDatagrams => s.clearDatagrams

/-- The session after a run. -/
def run (s : Session τ) (es : List (Event τ)) : Session τ := es.foldl step s

theorem run_append (s : Session τ) (es fs : List (Event τ)) :
    s.run (es ++ fs) = (s.run es).run fs := List.foldl_append

theorem run_concat (s : Session τ) (es : List (Event τ)) (e : Event τ) :
    s.run (es ++ [e]) = (s.run es).step e := run_append s es [e]

theorem send_does (s : Session τ) (m : Message) : Does s (s.send m).1 [] := ⟨rfl, rfl, rfl, rfl⟩

theorem sendAll_does (s : Session τ) (ms : List Message) : Does s (s.sendAll ms) [] := by
  induction ms generalizing s with
  | nil => exact ⟨rfl, rfl, rfl, rfl⟩
  | cons m ms ih => exact (s.send_does m).trans (ih (s.send m).1)

theorem emit_does (s : Session τ) (out : Outgoing) : Does s (s.emit out) [] := by
  have queued : Does s { s with datagrams := s.datagrams ++ out.datagrams } [] :=
    ⟨rfl, rfl, rfl, rfl⟩
  exact queued.trans (sendAll_does _ out.signals)

/-- The pool does something, and what its agents want sent is sent. -/
theorem emit_work {s : Session τ} {pool : Pool} {ws : List Pool.Event}
    (works : pool = s.pool.run ws) (out : Outgoing) : Does s ({ s with pool }.emit out) ws := by
  have worked : Does s { s with pool } ws := ⟨works, rfl, rfl, rfl⟩
  have sent := worked.trans (emit_does _ out)
  rwa [List.append_nil] at sent

theorem checkGeneration_does (s : Session τ) : Does s s.checkGeneration [] := by
  have noted : Does s { s with generation := Transport.generation s.transport } [] :=
    ⟨rfl, rfl, rfl, rfl⟩
  unfold checkGeneration
  simp only
  split
  · exact noted
  · split
    · exact (noted.trans (send_does _ _)).trans (send_does _ _)
    · exact noted.trans (send_does _ _)

theorem showStatus_does (s : Session τ) : Does s s.showStatus [] := by
  unfold showStatus
  split <;> exact ⟨rfl, rfl, rfl, rfl⟩

theorem solicit_does (s : Session τ) (o : Occasion) (peer : PeerId) :
    Does s (s.solicit o peer) [.ping peer o] := by
  unfold solicit
  cases pinged : s.pool.ping peer o with
  | mk pool result =>
    have works : pool = s.pool.run [.ping peer o] := (congrArg Prod.fst pinged).symm
    cases result with
    | ok out => exact (emit_work works out).trans (send_does _ _)
    | error =>
      have worked : Does s { s with pool } [.ping peer o] := ⟨works, rfl, rfl, rfl⟩
      exact worked.trans (send_does _ _)

theorem foldl_solicit_does (o : Occasion) (peers : List PeerId) (s : Session τ) :
    Does s (peers.foldl (fun s peer => s.solicit o peer) s) (peers.map (.ping · o)) := by
  induction peers generalizing s with
  | nil => exact ⟨rfl, rfl, rfl, rfl⟩
  | cons peer peers ih => exact (s.solicit_does o peer).trans (ih _)

theorem discover_does (s : Session τ) (o : Occasion) :
    Does s (s.discover o) (s.advertisers.map (.ping · o)) := by
  have asked := s.showStatus_does.trans (s.showStatus.send_does (.toServer .requestAdvertisers))
  have same := asked.advertisers
  unfold discover
  simp only
  rw [same]
  exact asked.trans (foldl_solicit_does o s.advertisers _)

theorem tickAll_pool (p : Pool) (o : Occasion) :
    (p.tickAll o).1 = p.run (p.slots.map (.tick ·.peer o)) := by
  have folded : (p.tickAll o).1 =
      (p.slots.map (·.peer)).foldl (fun q peer => q.step (.tick peer o)) p :=
    (List.foldl_hom Prod.fst fun _ _ => rfl).symm
  rw [folded, List.foldl_map, Pool.run, List.foldl_map]

/-! ### One event -/

/-- An event lists a peer among the advertisers. -/
inductive Lists (s : Session τ) : Event τ → PeerId → Prop where
  | mk {m : Message} {o : Occasion} {peer : PeerId} (kind : m.kind = .requestAdvertisers)
      (listed : peer ∈ s.othersIn m.data) : Lists s (.dispatch m o) peer

/-- An event merges an advertisement, which makes the entry `a`: the host has an agent, which takes
the advertisement for word of its peer, unless the game has started. -/
inductive Merges (s : Session τ) : Event τ → Ad → Prop where
  | mk {m : Message} {o : Occasion} {a : Ad} {q : Pool} (host : a.host = m.peer)
      (seen : a.lastSeen = some o.now) (ensured : s.pool.ensure m.peer o = .ok q)
      (pool : (s.step (.dispatch m o)).pool =
        if a.isInProgress then q else q.touch m.peer o.now) : Merges s (.dispatch m o) a

/-- What an event does to the books. -/
structure Turns (s : Session τ) (e : Event τ) : Prop where
  pool : (s.step e).pool = s.pool.run (s.work e)
  ads : ∀ a ∈ (s.step e).directory.ads, a ∈ s.directory.ads ∨ s.Merges e a
  advertisers : ∀ peer ∈ (s.step e).advertisers, peer ∈ s.advertisers ∨ s.Lists e peer
  localId : (s.step e).localId = s.localId ∧ (∀ w ∈ s.work e, w.isSteady = true) ∨
    ∃ id, s.work e = [.setLocalId id] ∧ (s.step e).localId = some id

theorem Does.turns {s : Session τ} {e : Event τ} (h : Does s (s.step e) (s.work e))
    (steady : ∀ w ∈ s.work e, w.isSteady = true) : s.Turns e :=
  ⟨h.pool, fun _ ha => .inl (h.ads ▸ ha), fun _ hp => .inl (h.advertisers ▸ hp),
    .inl ⟨h.localId, steady⟩⟩

theorem steady_one {w : Pool.Event} (h : w.isSteady = true) : ∀ v ∈ [w], v.isSteady = true := by
  intro v hv
  rw [List.mem_singleton.1 hv]
  exact h

theorem steady_map {α : Type} {f : α → Pool.Event} (h : ∀ x, (f x).isSteady = true) (xs : List α) :
    ∀ w ∈ xs.map f, w.isSteady = true := by
  intro w hw
  obtain ⟨x, -, rfl⟩ := List.mem_map.1 hw
  exact h x

/-- Nothing comes of an event. -/
theorem turns_of_idle {s : Session τ} {e : Event τ} (does : Does s (s.step e) [])
    (work : s.work e = []) : s.Turns e := by
  refine Does.turns (work ▸ does) ?_
  rw [work]
  exact nofun

theorem listed_progress (d : Directory) (m : Directory.Merge) (index : UInt32) :
    (d.listed m index).lastSeen = some m.now ∧
      (d.listed m index).isInProgress = m.ad.isInProgress := by
  show (d.entry m.host m.ad m.status m.now).lastSeen = some m.now ∧
    (d.entry m.host m.ad m.status m.now).isInProgress = m.ad.isInProgress
  unfold Directory.entry
  simp only
  split <;> exact ⟨rfl, rfl⟩

theorem mergeAd_turns (s : Session τ) {m : Message} (kind : m.kind = .gameAd) (o : Occasion) :
    s.Turns (.dispatch m o) := by
  have step : s.step (.dispatch m o) = (s.mergeAd m.peer m.data o).1 := by
    simp only [Session.step, dispatch, kind]
  have work : s.work (.dispatch m o) = match Ad.ofPayload m.data, s.pool.ensure m.peer o with
      | .ok ad, .ok _ =>
        .ensure m.peer o :: if ad.isInProgress then [] else [.touch m.peer o.now]
      | _, _ => [] := by
    simp only [Session.work, kind]
  cases read : Ad.ofPayload m.data with
  | error e =>
    refine turns_of_idle ?_ ?_
    · rw [step, mergeAd, read]
      exact ⟨rfl, rfl, rfl, rfl⟩
    · rw [work, read]
  | ok ad =>
    cases ensured : s.pool.ensure m.peer o with
    | error e =>
      refine turns_of_idle ?_ ?_
      · rw [step, mergeAd, read, ensured]
        exact ⟨rfl, rfl, rfl, rfl⟩
      · rw [work, read, ensured]
    | ok q =>
      have works : s.pool.step (.ensure m.peer o) = q := by
        show (s.pool.ensure m.peer o).toOption.getD s.pool = q
        rw [ensured]
        rfl
      rw [read, ensured] at work
      simp only at work
      refine ⟨?_, fun a ha => ?_, fun p hp => .inl ?_, .inl ⟨?_, fun w hw => ?_⟩⟩
      · rw [step, work, mergeAd, read, ensured]
        simp only
        split
        · exact works.symm
        · exact (congrArg (Pool.step · (.touch m.peer o.now)) works).symm
      · rw [step, mergeAd, read, ensured] at ha
        have merged : a ∈ (s.directory.step
          (.merge ⟨m.peer, ad, q.status? m.peer, o.now⟩)).ads := ha
        rcases Directory.mem_merge.1 merged with ⟨old, -⟩ | rfl
        · exact .inl old
        · obtain ⟨seen, progress⟩ :=
            listed_progress s.directory ⟨m.peer, ad, q.status? m.peer, o.now⟩ _
          refine .inr (.mk (Directory.listed_host ..) seen ensured ?_)
          rw [step, mergeAd, read, ensured, progress]
      · rw [step, mergeAd, read, ensured] at hp
        exact hp
      · rw [step, mergeAd, read, ensured]
      · rw [work] at hw
        split at hw <;> simp at hw
        · rw [hw]
          rfl
        · rcases hw with rfl | rfl <;> rfl

/-- We take an identity. -/
theorem turns_of_named {s : Session τ} {e : Event τ} (id : PeerId)
    (step : s.step e = s.setLocalId id) (work : s.work e = [.setLocalId id]) : s.Turns e := by
  refine ⟨?_, fun a ha => .inl ?_, fun p hp => .inl ?_, .inr ⟨id, work, ?_⟩⟩
  · rw [step, work]
    rfl
  · rw [step] at ha
    exact ha
  · rw [step] at hp
    exact hp
  · rw [step]
    rfl

theorem setClientId_turns (s : Session τ) {m : Message} (kind : m.kind = .serverSetClientId)
    (o : Occasion) : s.Turns (.dispatch m o) := by
  by_cases blank : Text.trim m.data = ""
  · refine turns_of_named m.peer ?_ ?_
    · simp only [Session.step, dispatch, kind, if_pos blank]
    · simp only [Session.work, kind, if_pos blank]
  · cases read : PeerId.ofText m.data with
    | ok id =>
      refine turns_of_named id ?_ ?_
      · simp only [Session.step, dispatch, kind, if_neg blank, read]
      · simp only [Session.work, kind, if_neg blank, read]
    | error =>
      refine turns_of_idle ?_ ?_
      · simp only [Session.step, dispatch, kind, if_neg blank, read]
        exact ⟨rfl, rfl, rfl, rfl⟩
      · simp only [Session.work, kind, if_neg blank, read]

theorem updateAdvertisers_turns (s : Session τ) {m : Message} (kind : m.kind = .requestAdvertisers)
    (o : Occasion) : s.Turns (.dispatch m o) := by
  have step : s.step (.dispatch m o) = s.updateAdvertisers m.data o := by
    simp only [Session.step, dispatch, kind]
  have work : s.work (.dispatch m o) = (s.othersIn m.data).map (.ensure · o) := by
    simp only [Session.work, kind]
  have does := foldl_ensureAgent_does o (s.othersIn m.data) s
  refine ⟨?_, fun a ha => .inl ?_, fun p hp => .inr ?_, .inl ⟨?_, ?_⟩⟩
  · rw [step, work]
    exact does.pool
  · rw [step] at ha
    exact does.ads ▸ ha
  · rw [step] at hp
    exact .mk kind hp
  · rw [step]
    exact does.localId
  · rw [work]
    exact steady_map (fun _ => rfl) _

theorem negotiate_turns (s : Session τ) {m : Message} {o : Occasion}
    (step : s.step (.dispatch m o) =
      match s.pool.negotiate m.peer m.kind m.data o with
      | (pool, .ok out) => { s with pool }.emit out
      | (pool, .error _) => { s with pool })
    (work : s.work (.dispatch m o) = [.negotiate m.peer m.kind m.data o]) :
    s.Turns (.dispatch m o) := by
  have steady : ∀ w ∈ s.work (.dispatch m o), w.isSteady = true := work ▸ steady_one rfl
  refine Does.turns ?_ steady
  rw [step, work]
  cases negotiated : s.pool.negotiate m.peer m.kind m.data o with
  | mk pool result =>
    have works : pool = s.pool.run [.negotiate m.peer m.kind m.data o] :=
      (congrArg Prod.fst negotiated).symm
    cases result with
    | ok out => exact emit_work works out
    | error => exact ⟨works, rfl, rfl, rfl⟩

theorem dispatch_turns (s : Session τ) (m : Message) (o : Occasion) : s.Turns (.dispatch m o) := by
  cases kind : m.kind with
  | startAdvertising | stopAdvertising | serverEcho =>
    refine turns_of_idle ?_ ?_
    · simp only [Session.step, dispatch, kind]
      exact ⟨rfl, rfl, rfl, rfl⟩
    · simp only [Session.work, kind]
  | solicitAds =>
    refine turns_of_idle ?_ ?_
    · simp only [Session.step, dispatch, kind]
      split
      · exact ⟨rfl, rfl, rfl, rfl⟩
      · exact s.send_does _
    · simp only [Session.work, kind]
  | serverSetClientId => exact s.setClientId_turns kind o
  | requestAdvertisers => exact s.updateAdvertisers_turns kind o
  | gameAd => exact s.mergeAd_turns kind o
  | agentLocalDescription | agentCandidate | agentGatheringDone =>
    refine negotiate_turns s ?_ ?_
    · simp only [Session.step, dispatch, kind]
      split <;> simp only [*]
    · simp only [Session.work, kind]

/-- **What every event does to the books.** -/
theorem step_turns (s : Session τ) (e : Event τ) : s.Turns e := by
  cases e with
  | dispatch m o => exact s.dispatch_turns m o
  | transport | advertise | unadvertise | takeDatagrams =>
    exact Does.turns ⟨rfl, rfl, rfl, rfl⟩ nofun
  | checkGeneration => exact Does.turns s.checkGeneration_does nofun
  | prune | receive | drain | sent => exact Does.turns ⟨rfl, rfl, rfl, rfl⟩ (steady_one rfl)
  | discover o => exact Does.turns (s.discover_does o) (steady_map (fun _ => rfl) _)
  | advertisements now =>
    refine ⟨rfl, fun a ha => .inl ?_, fun _ hp => .inl hp, .inl ⟨rfl, nofun⟩⟩
    exact (Directory.mem_snapshot.1 ha).1
  | datagram peer source octets o =>
    have works : (s.pool.onDatagram peer source octets o).1 =
      s.pool.run [.datagram peer source octets o] := rfl
    exact Does.turns (emit_work works _) (steady_one rfl)
  | tick o => exact Does.turns (emit_work (tickAll_pool ..) _) (steady_map (fun _ => rfl) _)

/-- What an event has the pool do, one thing at a time. -/
inductive Origin (s : Session τ) : Event τ → Pool.Event → Prop where
  | prune {now : Nat} : Origin s (.prune now) (.prune now)
  | setLocalId {m : Message} {o : Occasion} {id : PeerId} :
      Origin s (.dispatch m o) (.setLocalId id)
  | ensure {m : Message} {o : Occasion} {peer : PeerId} : Origin s (.dispatch m o) (.ensure peer o)
  | touch {m : Message} {o : Occasion} : Origin s (.dispatch m o) (.touch m.peer o.now)
  | negotiate {m : Message} {o : Occasion}
      (alone : s.work (.dispatch m o) = [.negotiate m.peer m.kind m.data o]) :
      Origin s (.dispatch m o) (.negotiate m.peer m.kind m.data o)
  | ping {o : Occasion} {peer : PeerId} (known : peer ∈ s.advertisers) :
      Origin s (.discover o) (.ping peer o)
  | datagram {peer : PeerId} {source : SocketAddress} {octets : Bytes} {o : Occasion} :
      Origin s (.datagram peer source octets o) (.datagram peer source octets o)
  | tick {o : Occasion} {peer : PeerId} : Origin s (.tick o) (.tick peer o)
  | sent {n : Nat} : Origin s (.sent n) (.sent n)
  | pop {now : Nat} : Origin s (.receive now) (.pop now)
  | drain {now : Nat} : Origin s (.drain now) (.drain now)

omit [Transport τ] in
theorem dispatch_origin {s : Session τ} {m : Message} {o : Occasion} {w : Pool.Event}
    (hw : w ∈ s.work (.dispatch m o)) : s.Origin (.dispatch m o) w := by
  cases kind : m.kind with
  | startAdvertising | stopAdvertising | serverEcho | solicitAds =>
    simp only [work, kind] at hw
    cases hw
  | serverSetClientId =>
    simp only [work, kind] at hw
    split at hw
    · rw [List.mem_singleton.1 hw]
      exact .setLocalId
    · split at hw
      · rw [List.mem_singleton.1 hw]
        exact .setLocalId
      · cases hw
  | requestAdvertisers =>
    simp only [work, kind] at hw
    obtain ⟨_, -, rfl⟩ := List.mem_map.1 hw
    exact .ensure
  | gameAd =>
    simp only [work, kind] at hw
    split at hw
    · rcases List.mem_cons.1 hw with rfl | hw
      · exact .ensure
      · split at hw
        · cases hw
        · rw [List.mem_singleton.1 hw]
          exact .touch
    · cases hw
  | agentLocalDescription | agentCandidate | agentGatheringDone =>
    have alone : s.work (.dispatch m o) = [.negotiate m.peer m.kind m.data o] := by
      simp only [work, kind]
    rw [alone] at hw
    rw [List.mem_singleton.1 hw]
    exact .negotiate alone

omit [Transport τ] in
theorem work_origin {s : Session τ} {e : Event τ} {w : Pool.Event} (hw : w ∈ s.work e) :
    s.Origin e w := by
  cases e with
  | dispatch => exact dispatch_origin hw
  | prune | datagram | sent | receive | drain =>
    rw [List.mem_singleton.1 hw]
    constructor
  | discover =>
    obtain ⟨_, known, rfl⟩ := List.mem_map.1 hw
    exact .ping known
  | tick =>
    obtain ⟨_, -, rfl⟩ := List.mem_map.1 hw
    exact .tick
  | transport | checkGeneration | advertise | unadvertise | advertisements | takeDatagrams =>
    cases hw

omit [Transport τ] in
/-- The pool does its part of an event when the event happens. -/
theorem work_now {s : Session τ} {e : Event τ} :
    ∀ w ∈ s.work e, ∀ now, w.now? = some now → e.now? = some now := by
  intro w hw now hnow
  cases work_origin hw with
  | setLocalId | sent => cases hnow
  | prune | ensure | touch | negotiate | ping | datagram | tick | pop | drain => exact hnow

/-! ### What every run keeps -/

/-- The pool is open, holds one agent for each peer at most and none for the server, and knows us by
the identity that the session knows. -/
structure Sound (s : Session τ) : Prop where
  distinct : s.pool.Distinct
  running : s.pool.running = true
  unserved : ¬s.pool.HasAgent PeerId.server
  localId : s.pool.localId = s.localId

theorem new_sound (transport : τ) (client : ClientInfo) (includeLoopback : Bool) :
    Sound (new transport client includeLoopback) :=
  ⟨Pool.new_distinct includeLoopback, rfl, fun h => Pool.hasAgent_iff.1 h rfl, rfl⟩

theorem step_sound {s : Session τ} (h : s.Sound) (e : Event τ) : (s.step e).Sound := by
  have turns := s.step_turns e
  have settled : (s.step e).pool.running = true ∧
      (s.step e).pool.localId = (s.step e).localId := by
    rw [turns.pool]
    rcases turns.localId with ⟨same, steady⟩ | ⟨id, work, named⟩
    · have settings := Pool.run_settings (p := s.pool) steady
      exact ⟨settings.1.trans h.running, (settings.2.trans h.localId).trans same.symm⟩
    · rw [work, named]
      exact ⟨h.running, rfl⟩
  refine ⟨?_, settled.1, ?_, settled.2⟩
  · rw [turns.pool]
    exact h.distinct.run _
  · rw [turns.pool]
    exact Pool.run_unserved h.distinct h.unserved _

theorem run_sound {s : Session τ} (h : s.Sound) (es : List (Event τ)) : (s.run es).Sound := by
  induction es generalizing s with
  | nil => exact h
  | cons e es ih => exact ih (step_sound h e)

end Session
end Parley

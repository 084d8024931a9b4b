import Parley.Proofs.Link.Knowledge
import Parley.Proofs.Link.Network
import Parley.Proofs.Link.Posting
/-!
The versions that two agents share.

A pair has a candidate of ours of the version of its remote address, and that address has been told
of by the peer or is where a check of the peer's has come from. So both sides have a candidate of the
version of every address that is checked (`Shares`), and in particular both have started.
-/
namespace Parley
open CheckList (Action)

namespace CheckList

/-- A list of which every pair has, and to which every request has gone, an address of which `Q`
holds. -/
structure Within (Q : SocketAddress → Prop) (l : CheckList)
    (rs : List (SocketAddress × BindingRequest)) : Prop where
  pairs : ∀ p ∈ l.pairs, Q p.remote
  requests : ∀ d r, (d, r) ∈ rs → Q d

theorem Within.act {Q : SocketAddress → Prop} {l : CheckList}
    {rs : List (SocketAddress × BindingRequest)} (h : Within Q l rs) {x : Action}
    (hx : ∀ l q, Formed l x q → Q q.remote) : Within Q (l.act x) (rs ++ (l.sends x).toList) where
  pairs := fun q hq => by
    rcases act_pairs hq with ⟨p, hp, hev⟩ | hformed
    · exact hev.remote ▸ h.pairs p hp
    · exact hx l q hformed
  requests := fun d r hr => by
    rcases List.mem_append.1 hr with hr | hr
    · exact h.requests d r hr
    · obtain ⟨p, hp, rfl, -⟩ := sends_eq_some (Option.mem_toList.1 hr)
      exact h.pairs p hp

end CheckList

namespace Agent

/-- A pair that an event forms is of a candidate of each side, of one version. -/
theorem Permits.formed {a b : Agent} {e : Event} {x : Action} (h : Permits a b e x)
    {l : CheckList} {q : Pair} (hformed : CheckList.Formed l x q) :
    ∃ near ∈ b.ours, ∃ far ∈ b.theirs, near.address.isV4 = far.address.isV4 ∧
      q.remote = far.address := by
  cases hformed with
  | paired hnear hfar hv =>
    cases h with
    | pair h =>
      obtain ⟨_, _, heq, hours, htheirs⟩ := h
      cases heq
      exact ⟨_, hours hnear, _, htheirs hfar, hv, rfl⟩
    | check _ h => cases h
  | learned =>
    cases h with
    | pair h =>
      obtain ⟨_, _, heq, -⟩ := h
      cases heq
    | check _ h =>
      cases h with
      | learn hnear hfar haddress hv => exact ⟨_, hnear, _, hfar, haddress ▸ hv, rfl⟩

end Agent

namespace Network
open Agent (Event)

/-- Both sides have a candidate of the version of an address. -/
def Shared (w : Network) (address : SocketAddress) : Prop :=
  ∀ side, (w.agent side).Covers address

/-- What holds of the agents, and of what is on its way between them, at any time. -/
structure Shares (w : Network) : Prop where
  reachable : ∀ side, (w.agent side).Reachable
  role : ∀ side, (w.agent side).controlling = side.controls
  datagrams : ∀ side, (w.agent side).datagrams = []
  signals : ∀ side, (w.agent side).signals = []
  mail : ∀ side, ∀ m ∈ w.mail side,
    m.Truthful (w.agent side.other).session (w.agent side.other).ours
  theirs : ∀ side, ∀ c ∈ (w.agent side).theirs, (w.agent side.other).Covers c.address
  checks : ∀ side, (w.agent side).checks.Within w.Shared (requestsIn (w.sent side))

theorem begin_shares (P : Side → Origin) : (begin P).Shares where
  reachable := fun _ => ⟨_, _, _, _, [], rfl⟩
  role := fun _ => rfl
  datagrams := fun _ => rfl
  signals := fun _ => rfl
  mail := fun _ _ hm => absurd hm List.not_mem_nil
  theirs := fun _ _ hc => absurd hc List.not_mem_nil
  checks := fun _ => ⟨fun _ hp => absurd hp List.not_mem_nil,
    fun _ _ hr => absurd hr List.not_mem_nil⟩

variable {w w' : Network} {side : Side} {e : Event}

/-- What both sides have is enough for the one to which a check goes to answer and check back. -/
theorem Shares.asked (h : w.Shares) {source d : SocketAddress} {r : BindingRequest}
    (hr : (d, r) ∈ requestsIn (w.sent side)) (hv : source.isV4 = d.isV4) (side' : Side) :
    (w.agent side').Covers source ∧ (w.agent side').state ≠ .new := by
  have covers := ((h.checks side).requests d r hr side').congr hv
  exact ⟨covers, covers.started (h.reachable side').blank⟩

/-- A candidate that an event tells of is of a version that the other side has. -/
theorem Shares.told (h : w.Shares) (brings : w.Brings side e) {c : Candidate} (hc : Agent.Told e c) :
    (w.agent side.other).Covers c.address := by
  have listed : ∀ c ∈ (w.agent side.other).ours.map Candidate.withoutFlow,
      (w.agent side.other).Covers c.address := by
    intro c hc
    obtain ⟨c', hc', rfl⟩ := List.mem_map.1 hc
    exact ⟨c', hc', c'.isV4_withoutFlow.symm⟩
  cases hc with
  | described hd hc =>
    obtain ⟨m, hm, hkind, rfl⟩ := brings.message _ _ _ _ rfl
    exact listed _ (((h.mail side m hm).description _ hkind hd).2 hc)
  | noticed hn =>
    obtain ⟨m, hm, hkind, rfl⟩ := brings.message _ _ _ _ rfl
    exact listed _ ((h.mail side m hm).candidate _ hkind hn).2
  | checked hr haddress =>
    obtain ⟨d, hd, hv⟩ := brings.request _ _ hr
    rw [haddress]
    exact (h.asked hd hv side.other).1

/-! ### A turn -/

theorem Shares.persists (h : w.Shares) (turn : w.Turn side e w') :
    Agent.Persists (w.agent side) ((w.agent side).step e) :=
  Agent.step_persists (h.reachable side).blank turn.brings.keeps

theorem Shares.grows (h : w.Shares) (turn : w.Turn side e w') :
    ∀ side', (w.agent side').ours ⊆ (w'.agent side').ours := by
  refine side.both ?_ ?_
  · rw [turn.own]
    exact (h.persists turn).ours
  · rw [turn.other]
    exact fun _ h => h

theorem Shares.theirs_turn (h : w.Shares) (turn : w.Turn side e w') {c : Candidate}
    (hc : c ∈ ((w.agent side).step e).theirs) : (w.agent side.other).Covers c.address := by
  rcases Agent.step_theirs _ hc with hc | hc
  · exact h.theirs side c hc
  · exact h.told turn.brings hc

theorem Shares.shared (h : w.Shares) (turn : w.Turn side e w') {l : CheckList}
    {rs : List (SocketAddress × BindingRequest)} (hl : l.Within w.Shared rs) :
    l.Within w'.Shared rs :=
  ⟨fun p hp side' => (hl.pairs p hp side').mono (h.grows turn side'),
    fun d r hr side' => (hl.requests d r hr side').mono (h.grows turn side')⟩

/-- The pairs that a turn forms have a remote address of a version that is shared. -/
theorem Shares.checks_turn (h : w.Shares) (turn : w.Turn side e w') :
    ((w.agent side).step e).checks.Within w'.Shared
      (requestsIn (w.sent side) ++ requestsIn ((w.agent side).sent e)) := by
  obtain ⟨xs, ys, unfolds⟩ := Agent.step_unfolds (w.agent side) e
  have formed : ∀ x ∈ xs, ∀ l q, CheckList.Formed l x q → w'.Shared q.remote := by
    intro x hx l q hq
    obtain ⟨near, hnear, far, hfar, hv, hremote⟩ := (unfolds.permits x hx).formed hq
    rw [hremote]
    refine side.both ?_ ?_
    · rw [turn.own]
      exact ⟨near, hnear, hv⟩
    · rw [turn.other]
      exact h.theirs_turn turn hfar
  have first := CheckList.acts_induct (I := CheckList.Within w'.Shared)
    (fun l rs x hx hl => hl.act (formed x hx)) (h.shared turn (h.checks side))
  rw [unfolds.checks, unfolds.requests, ← List.append_assoc]
  refine CheckList.acts_induct (I := CheckList.Within w'.Shared)
    (fun l rs x hx hl => hl.act fun l q hq => ?_) first
  -- A nomination forms no pair.
  obtain ⟨_, _, _, rfl⟩ := unfolds.nomination hx
  cases hq

theorem Shares.mail_turn (h : w.Shares) (turn : w.Turn side e w') {m : Message}
    (hm : m ∈ w'.mail side.other) :
    m.Truthful ((w.agent side).step e).session ((w.agent side).step e).ours := by
  have persists := h.persists turn
  obtain ⟨ms, hposts, truthful⟩ := Agent.step_posts (w.agent side) turn.brings.leaves
  rw [h.signals side, List.nil_append] at hposts
  rcases List.mem_append.1 (turn.posted hm) with hm | hm
  · have before := h.mail side.other m hm
    rw [Side.other_other] at before
    exact persists.session ▸ before.mono persists.ours
  · exact truthful m (hposts ▸ hm)

theorem Shares.reachable_turn (h : w.Shares) (turn : w.Turn side e w') :
    (w'.agent side).Reachable := by
  obtain ⟨peer, controlling, session, created, es, hes⟩ := h.reachable side
  refine ⟨peer, controlling, session, created, es ++ [e, .takeDatagrams, .takeSignals], ?_⟩
  rw [turn.own, Agent.run_append, ← hes]
  rfl

/-- What a turn puts on the network is what the agent has sent. -/
theorem Shares.sent_turn (h : w.Shares) (turn : w.Turn side e w') :
    w'.sent side = w.sent side ++ (w.agent side).sent e := by
  have queued : ((w.agent side).step e).datagrams = (w.agent side).sent e := by
    simp [Agent.sent, h.datagrams side]
  rw [turn.sent, queued]

theorem Shares.requests_turn (h : w.Shares) (turn : w.Turn side e w') :
    requestsIn (w'.sent side) =
      requestsIn (w.sent side) ++ requestsIn ((w.agent side).sent e) := by
  rw [h.sent_turn turn, requestsIn_append]

theorem Shares.answers_turn (h : w.Shares) (turn : w.Turn side e w') :
    answersIn (w'.sent side) = answersIn (w.sent side) ++ e.answers := by
  obtain ⟨xs, ys, unfolds⟩ := Agent.step_unfolds (w.agent side) e
  rw [h.sent_turn turn, ← unfolds.answers, answersIn_append]

/-- **What is shared stays shared.** -/
theorem Shares.turn (h : w.Shares) (turn : w.Turn side e w') : w'.Shares where
  reachable := side.both (h.reachable_turn turn) (by rw [turn.other]; exact h.reachable side.other)
  role := by
    refine side.both ?_ ?_
    · rw [turn.own]
      exact (h.persists turn).controlling.trans (h.role side)
    · rw [turn.other]
      exact h.role side.other
  datagrams := side.both (by rw [turn.own]; rfl) (by rw [turn.other]; exact h.datagrams side.other)
  signals := side.both (by rw [turn.own]; rfl) (by rw [turn.other]; exact h.signals side.other)
  mail := by
    refine side.both (fun m hm => ?_) (fun m hm => ?_)
    · rw [turn.other]
      exact h.mail side m (turn.mail hm)
    · rw [Side.other_other, turn.own]
      exact h.mail_turn turn hm
  theirs := by
    refine side.both (fun c hc => ?_) (fun c hc => ?_)
    · rw [turn.own] at hc
      rw [turn.other]
      exact h.theirs_turn turn hc
    · rw [turn.other] at hc
      have before := h.theirs side.other c hc
      rw [Side.other_other] at before ⊢
      exact before.mono (h.grows turn side)
  checks := by
    refine side.both ?_ ?_
    · rw [turn.own, h.requests_turn turn]
      exact h.checks_turn turn
    · rw [turn.other, turn.unsent]
      exact h.shared turn (h.checks side.other)

theorem run_shares (P : Side → Origin) (ms : List Move) : ((begin P).run ms).Shares := by
  induction ms using List.reverseRecOn with
  | nil => exact begin_shares P
  | append_singleton ms m ih =>
    rw [run_concat]
    rcases step_cases ((begin P).run ms) m with ⟨-, hstep⟩ | ⟨e, -, turn⟩
    · rwa [hstep]
    · exact ih.turn turn

end Network
end Parley

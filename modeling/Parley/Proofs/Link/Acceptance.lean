import Parley.Proofs.Link.Pairing
import Parley.Proofs.Link.Path
/-!
From where game data is taken, as time goes on.

Game data is taken from the selected address and from those whose pairs work. While an agent is
connected the best pair that works is selected again with every event, and the pair that the
controlling side nominates does not count among them until its check has been answered once more.
So an address can be given up in between although nothing has failed. `acceptance_ends_iff` says
that this is the only way in which an agent that stays usable gives one up, and what it has selected
instead. Behind it stands what a run tells of an address that is selected: its pair works, or has
been nominated (`Held`).
-/
namespace Parley
open CheckList (Action)

namespace CheckList

theorem isVerified_iff {l : CheckList} {address : SocketAddress} :
    l.isVerified address = true ↔ ∃ p ∈ l.pairs, p.state = .succeeded ∧ p.remote = address := by
  simp [isVerified]

theorem acts_verified {l : CheckList} {xs : List Action} (hxs : ∀ x ∈ xs, x.Spares)
    {address : SocketAddress} (h : l.isVerified address = true) :
    (l.acts xs).isVerified address = true := by
  induction xs generalizing l with
  | nil => exact h
  | cons x xs ih =>
    obtain ⟨p, hp, hstate, hremote⟩ := isVerified_iff.1 h
    have hx := hxs x (List.mem_cons_self ..)
    obtain ⟨q, hq, hev⟩ := act_evolves hx.goes hp
    have same := (hev.spared hx hstate).state
    exact ih (fun y hy => hxs y (List.mem_cons_of_mem _ hy))
      (isVerified_iff.2 ⟨q, hq, same.1.trans hstate, same.2.2.trans hremote⟩)

/-- The pair of an address is nominated, and its check is under way. -/
def Confirming (l : CheckList) (address : SocketAddress) : Prop :=
  ∃ p ∈ l.pairs, p.remote = address ∧ p.state = .inProgress ∧ p.nominated = true

/-- A pair that works does so after a nomination, but for the one that is nominated. -/
theorem nominate_verified {l : CheckList} {address : SocketAddress}
    (h : l.isVerified address = true) (i now : Nat) (id : TransactionId) :
    (l.nominate i now id).1.isVerified address = true ∨
      (l.nominate i now id).1.Confirming address := by
  obtain ⟨p, hp, hstate, rfl⟩ := isVerified_iff.1 h
  obtain ⟨q, hq, hev⟩ := act_evolves (x := .nominate i now id) nofun hp
  cases hev with
  | same => exact .inl (isVerified_iff.2 ⟨p, hq, hstate, rfl⟩)
  | nominated => exact .inr ⟨_, hq, rfl, rfl, rfl⟩

theorem acts_remotes_subset {l : CheckList} {xs : List Action}
    (hxs : ∀ x ∈ xs, ∀ controlling, x ≠ .reset controlling) : l.remotes ⊆ (l.acts xs).remotes := by
  induction xs generalizing l with
  | nil => exact fun _ h => h
  | cons x xs ih =>
    intro address h
    obtain ⟨p, hp, rfl⟩ := mem_remotes.1 h
    obtain ⟨q, hq, hev⟩ := act_evolves (hxs x (List.mem_cons_self ..)) hp
    exact ih (fun y hy => hxs y (List.mem_cons_of_mem _ hy)) (mem_remotes.2 ⟨q, hq, hev.remote⟩)

/-- The request of every nominating check that is under way is among `rs`. -/
def Asked (l : CheckList) (rs : List (SocketAddress × BindingRequest)) : Prop :=
  ∀ address, l.Confirming address → ∃ r, (address, r) ∈ rs ∧ r.useCandidate = true

/-- An action of the controlling side, which marks no pair, nominates by a request only. -/
theorem Asked.act {l : CheckList} {rs : List (SocketAddress × BindingRequest)} (h : l.Asked rs)
    {x : Action} (hx : ∀ i, x ≠ .mark i) : (l.act x).Asked (rs ++ (l.sends x).toList) := by
  rintro address ⟨q, hq, rfl, hstate, hmark⟩
  obtain ⟨p, hp, hremote, ⟨hbefore, rfl | ⟨⟨i, hi⟩, -⟩⟩ | ⟨r, hsends, -, huse⟩⟩ :=
    act_inProgress hq hstate
  · obtain ⟨r, hr, huse⟩ := h q.remote ⟨q, hp, rfl, hbefore, hmark⟩
    exact ⟨r, List.mem_append_left _ hr, huse⟩
  · exact absurd hi (hx i)
  · rw [hremote]
    exact ⟨r, List.mem_append_right _ (by simp [hsends]), huse.symm.trans hmark⟩

theorem Asked.acts {l : CheckList} {rs : List (SocketAddress × BindingRequest)} (h : l.Asked rs)
    {xs : List Action} (hxs : ∀ x ∈ xs, ∀ i, x ≠ .mark i) :
    (l.acts xs).Asked (rs ++ l.requests xs) :=
  acts_induct (I := Asked) (fun _ _ x hx hl => hl.act (hxs x hx)) h

end CheckList

namespace Agent

/-! ### What a run tells of the selected address -/

/-- The run sends a check to the address that nominates its pair. -/
def Nominates (a : Agent) (es : List Event) (address : SocketAddress) : Prop :=
  ∃ r, (address, r) ∈ requestsIn (a.outbox es) ∧ r.useCandidate = true

theorem Nominates.later {a : Agent} {es : List Event} {address : SocketAddress}
    (h : a.Nominates es address) (e : Event) : a.Nominates (es ++ [e]) address := by
  obtain ⟨r, hr, huse⟩ := h
  refine ⟨r, ?_, huse⟩
  rw [outbox_concat, requestsIn_append]
  exact List.mem_append_left _ hr

theorem Permits.goes {a b : Agent} {e : Event} {x : Action} (h : Permits a b e x)
    (ha : a.state ≠ .new) (controlling : Bool) : x ≠ .reset controlling := (h.spares ha).goes _

/-- On the controlling side a nominating check that is under way has been sent. -/
theorem run_asked (peer : PeerId) (controlling : Bool) (session : UInt64) (created : Nat)
    (es : List Event) (hrole : ((new peer controlling session created).run es).controlling = true) :
    ((new peer controlling session created).run es).checks.Asked
      (requestsIn ((new peer controlling session created).outbox es)) := by
  induction es using List.reverseRecOn with
  | nil =>
    rintro address ⟨p, hp, -⟩
    cases hp
  | append_singleton es e ih =>
    have before : ((new peer controlling session created).run es).Reachable := ⟨_, _, _, _, _, rfl⟩
    rw [run_concat] at hrole ⊢
    by_cases hstill : (((new peer controlling session created).run es).step e).state = .new
    · rintro address ⟨p, hp, -⟩
      rw [(before.step e).unpaired hstill] at hp
      cases hp
    · rw [step_role before.blank hstill] at hrole
      obtain ⟨xs, ys, unfolds⟩ := step_unfolds ((new peer controlling session created).run es) e
      have first := (ih hrole).acts fun x hx => (unfolds.permits x hx).unmarked hrole
      have second := first.acts fun y hy => (unfolds.nomination_only hy).2
      rwa [unfolds.outbox, unfolds.checks]

/-- The address has a pair, which works or which the controlling side has nominated. -/
structure Held (a : Agent) (es : List Event) (address : SocketAddress) : Prop where
  paired : address ∈ (a.run es).checks.remotes
  proved : (a.run es).checks.isVerified address = true ∨
    (a.run es).controlling = true ∧ a.Nominates es address

/-- What is selected after an event is held, if what was selected before it was. -/
theorem Held.step {a : Agent} {es : List Event} {e : Event} {address : SocketAddress}
    (ha : (a.run es).Reachable) (h : (a.run es).selected = some address → Held a es address)
    (asked : (a.run (es ++ [e])).controlling = true →
      (a.run (es ++ [e])).checks.Asked (requestsIn (a.outbox (es ++ [e]))))
    (hselected : (a.run (es ++ [e])).selected = some address) : Held a (es ++ [e]) address := by
  obtain ⟨xs, ys, unfolds⟩ := step_unfolds (a.run es) e
  rw [run_concat] at hselected
  have role := step_role ha.blank ((ha.step e).grounded.started_of_selected hselected)
  rw [run_concat] at asked
  -- What a nomination at the end of the event leaves of a pair that works or was nominated.
  have carried (hmem : address ∈ ((a.run es).checks.acts xs).remotes)
      (hpair : ((a.run es).checks.acts xs).isVerified address = true ∨
        (a.run es).controlling = true ∧ a.Nominates es address) : Held a (es ++ [e]) address := by
    refine ⟨?_, ?_⟩ <;> rw [run_concat, unfolds.checks]
    · exact CheckList.acts_remotes_subset (fun y hy => (unfolds.nomination_only hy).1) hmem
    · rw [role]
      rcases hpair with hverified | ⟨hrole, hnominates⟩
      · rcases unfolds.nominates with rfl | ⟨hrole, i, now, id, -, rfl⟩
        · exact .inl hverified
        · refine (CheckList.nominate_verified hverified i now id).imp_right fun hconfirming => ?_
          have sent := asked (role.trans hrole) address
          rw [unfolds.checks] at sent
          exact ⟨hrole, sent hconfirming⟩
      · exact .inr ⟨hrole, hnominates.later e⟩
  rcases unfolds.selected address hselected with hbefore | ⟨p, hp | hp, hstate, rfl⟩
  · have started := ha.grounded.started_of_selected hbefore
    exact carried
      (CheckList.acts_remotes_subset (fun x hx => (unfolds.permits x hx).goes started)
        (h hbefore).paired)
      ((h hbefore).proved.imp_left
        (CheckList.acts_verified fun x hx => (unfolds.permits x hx).spares started))
  · exact carried (CheckList.mem_remotes.2 ⟨p, hp, rfl⟩)
      (.inl (CheckList.isVerified_iff.2 ⟨p, hp, hstate, rfl⟩))
  · refine ⟨?_, .inl ?_⟩ <;> rw [run_concat]
    · exact CheckList.mem_remotes.2 ⟨p, hp, rfl⟩
    · exact CheckList.isVerified_iff.2 ⟨p, hp, hstate, rfl⟩

/-- What is selected is held. -/
theorem run_held (peer : PeerId) (controlling : Bool) (session : UInt64) (created : Nat)
    (es : List Event) (address : SocketAddress)
    (h : ((new peer controlling session created).run es).selected = some address) :
    Held (new peer controlling session created) es address := by
  induction es using List.reverseRecOn with
  | nil => cases h
  | append_singleton es e ih =>
    exact .step ⟨_, _, _, _, _, rfl⟩ ih (run_asked peer controlling session created _) h

/-! ### Giving an address up -/

theorem accepts_iff {a : Agent} {address : SocketAddress} : a.accepts address = true ↔
    a.state.isUsable = true ∧
      (a.selected = some address ∨ a.checks.isVerified address = true) := by
  simp [accepts, isVerifiedPath]

/-- Following the checks an agent takes from a pair that works only what nominating it takes. -/
theorem updateState_verified {a : Agent} {address : SocketAddress}
    (h : a.checks.isVerified address = true) (now : Nat) (id : TransactionId) :
    (a.updateState now id).checks.isVerified address = true ∨
      a.controlling = true ∧ (a.updateState now id).checks.Confirming address := by
  rcases updateState_settles a now id with settled | ⟨hrole, i, settled⟩
  · rw [settled.checks]
    exact .inl h
  · rw [settled.checks]
    exact (CheckList.nominate_verified h i now id).imp_right fun hconfirming => ⟨hrole, hconfirming⟩

/-- A connected agent that follows its checks goes on to take game data from where it did, or has
selected another address, whose pair works or is being nominated. -/
theorem updateState_replaces {a : Agent} (hstate : a.state = .connected) {address : SocketAddress}
    (h : a.selected = some address ∨ a.checks.isVerified address = true) (now : Nat)
    (id : TransactionId) (husable : (a.updateState now id).state.isUsable = true) :
    (a.updateState now id).selected = some address ∨
      ∃ q ∈ (a.updateState now id).checks.pairs, (a.updateState now id).selected = some q.remote ∧
        (q.state = .succeeded ∨ q.state = .inProgress ∧ q.nominated = true) := by
  have kept (p : SocketAddress) (hp : a.checks.isVerified p = true) :=
    updateState_verified hp now id
  have follows := updateState_follows a now id
  generalize a.updateState now id = b at kept follows husable ⊢
  cases follows with
  | connects h | exhausts h | searches h => simp [hstate] at h
  | collapses => cases husable
  | rests _ h => exact absurd hstate h
  | settles =>
    rcases settle_selects (a.selectBest now) now id with same | ⟨q, hq, hworks, hselected⟩
    · rcases selectBest_selects a now with ⟨hnone, hbest⟩ | ⟨p, hp, hworks, hselected⟩
      · refine .inl (same.trans ?_)
        rw [hbest]
        refine h.resolve_right fun hverified => ?_
        obtain ⟨p, hp, hworks, -⟩ := CheckList.isVerified_iff.1 hverified
        rw [CheckList.hasSucceeded_iff.2 ⟨p, hp, hworks⟩] at hnone
        cases hnone
      · right
        rcases kept p.remote (CheckList.isVerified_iff.2 ⟨p, hp, hworks, rfl⟩) with hverified |
          ⟨-, q, hq, hremote, hstate, hmark⟩
        · obtain ⟨q, hq, hworks, hremote⟩ := CheckList.isVerified_iff.1 hverified
          exact ⟨q, hq, by rw [same, hselected, hremote], .inl hworks⟩
        · exact ⟨q, hq, by rw [same, hselected, hremote], .inr ⟨hstate, hmark⟩⟩
    · exact .inr ⟨q, hq, hselected, .inl hworks⟩

/-- With an event a usable agent goes on to take game data from an address, or it is connected and
selects another one; the pair of the address, if it worked, is nominated by that. -/
theorem step_replaces {a : Agent} (ha : a.state.isUsable = true) {address : SocketAddress}
    (h : a.selected = some address ∨ a.checks.isVerified address = true) {e : Event}
    (husable : (a.step e).state.isUsable = true) :
    (a.step e).selected = some address ∨ (a.step e).checks.isVerified address = true ∨
      a.state = .connected ∧
        (a.checks.isVerified address = true →
          a.controlling = true ∧ (a.step e).checks.Confirming address) ∧
        ∃ q ∈ (a.step e).checks.pairs, (a.step e).selected = some q.remote ∧
          (q.state = .succeeded ∨ q.state = .inProgress ∧ q.nominated = true) := by
  have started := started_of_usable ha
  obtain ⟨b, xs, brings, hstep⟩ := step_brings started e
  have learns : Learns a b := by
    refine brings.learns.resolve_right fun lost => ?_
    have ended : (a.step e).state = .disconnected := by
      rcases hstep with hstep | ⟨now, id, hstep⟩
      · rw [hstep, lost]
      · rw [hstep, updateState_rests (by simp [lost]) (by simp [lost]), lost]
    rw [ended] at husable
    cases husable
  have verified : a.checks.isVerified address = true → b.checks.isVerified address = true := by
    rw [brings.checks]
    exact CheckList.acts_verified fun x hx => (brings.permits x hx).spares started
  have path : b.selected = some address ∨ b.checks.isVerified address = true :=
    h.imp (fun hselected => learns.selected.trans hselected) verified
  rcases hstep with hstep | ⟨now, id, hstep⟩
  · rw [hstep]
    exact path.imp_right .inl
  · rw [hstep] at husable ⊢
    rcases connected_or_completed.1 ha with hstate | hstate
    · rcases updateState_replaces (learns.state.trans hstate) path now id husable with
        hselected | hother
      · exact .inl hselected
      · by_cases hkept : (b.updateState now id).checks.isVerified address = true
        · exact .inr (.inl hkept)
        · refine .inr (.inr ⟨hstate, fun hverified => ?_, hother⟩)
          rw [← learns.controlling]
          exact (updateState_verified (verified hverified) now id).resolve_left hkept
    · have hb := learns.state.trans hstate
      rw [updateState_rests (by simp [hb]) (by simp [hb])]
      exact path.imp_right .inl

theorem step_remotes_subset {a : Agent} (hnew : a.state ≠ .new) (e : Event) :
    a.checks.remotes ⊆ (a.step e).checks.remotes := by
  obtain ⟨xs, ys, unfolds⟩ := step_unfolds a e
  rw [unfolds.checks]
  exact List.Subset.trans
    (CheckList.acts_remotes_subset fun x hx => (unfolds.permits x hx).goes hnew)
    (CheckList.acts_remotes_subset fun y hy => (unfolds.nomination_only hy).1)

/-- With an event the agent gives up an address from which it took game data. It is connected, as
the controlling side, and has sent a check to the address that nominates its pair. That pair does
not work, as its check is not answered yet or has failed; and another address is selected, whose
pair works or is being nominated. -/
structure GivesUp (a : Agent) (es : List Event) (e : Event) (address : SocketAddress) : Prop where
  connected : (a.run es).state = .connected
  controlling : (a.run es).controlling = true
  nominated : a.Nominates (es ++ [e]) address
  unanswered : ∃ p ∈ (a.run (es ++ [e])).checks.pairs, p.remote = address ∧ p.state ≠ .succeeded
  replaced : ∃ q ∈ (a.run (es ++ [e])).checks.pairs,
    (a.run (es ++ [e])).selected = some q.remote ∧ q.remote ≠ address ∧
      (q.state = .succeeded ∨ q.state = .inProgress ∧ q.nominated = true)

/-- What is given up is refused. -/
theorem GivesUp.refuses {a : Agent} {es : List Event} {e : Event} {address : SocketAddress}
    (h : a.GivesUp es e address) (ha : (a.run (es ++ [e])).Reachable) :
    (a.run (es ++ [e])).accepts address = false := by
  obtain ⟨p, hp, hremote, hstate⟩ := h.unanswered
  obtain ⟨q, -, hselected, hother, -⟩ := h.replaced
  by_contra haccepts
  obtain ⟨-, hpath | hverified⟩ := accepts_iff.1 (by simpa using haccepts)
  · exact hother (Option.some.inj (hselected.symm.trans hpath))
  · obtain ⟨p', hp', hworks, hremote'⟩ := CheckList.isVerified_iff.1 hverified
    -- An address has one pair only.
    obtain rfl : p' = p :=
      List.inj_on_of_nodup_map ha.matched.single hp' hp (hremote'.trans hremote.symm)
    exact hstate hworks

/-- **An address is given up for a nomination only.** An agent that takes game data from an address
and stays usable with an event goes on to take it from there, whether or not checks have failed,
unless it gives the address up: as the connected controlling side, which has nominated the pair of
the address, does not have it answered, and has selected another one. -/
theorem acceptance_ends_iff (peer : PeerId) (controlling : Bool) (session : UInt64) (created : Nat)
    (es : List Event) (e : Event) (address : SocketAddress)
    (h : ((new peer controlling session created).run es).accepts address = true)
    (husable : ((new peer controlling session created).run (es ++ [e])).state.isUsable = true) :
    ((new peer controlling session created).run (es ++ [e])).accepts address = false ↔
      (new peer controlling session created).GivesUp es e address := by
  have reachable : ∀ es, ((new peer controlling session created).run es).Reachable :=
    fun es => ⟨_, _, _, _, es, rfl⟩
  refine ⟨fun hlost => ?_, fun h => h.refuses (reachable _)⟩
  have history := run_held peer controlling session created
  have asked := run_asked peer controlling session created
  generalize new peer controlling session created = origin
    at h husable hlost history asked reachable ⊢
  obtain ⟨hbefore, hpath⟩ := accepts_iff.1 h
  obtain ⟨unselected, unverified⟩ : (origin.run (es ++ [e])).selected ≠ some address ∧
      ¬(origin.run (es ++ [e])).checks.isVerified address = true := by
    simpa [accepts, isVerifiedPath, husable] using hlost
  rw [run_concat] at husable
  have stepped := step_replaces hbefore hpath husable
  rw [← run_concat] at stepped
  obtain ⟨hstate, hworked, q, hq, hselected, hpair⟩ :=
    (stepped.resolve_left unselected).resolve_left unverified
  -- The address was known, and its pair worked or had been nominated before.
  have held : origin.Held es address := by
    rcases hpath with hpath | hverified
    · exact history es address hpath
    · obtain ⟨p, hp, -, hremote⟩ := CheckList.isVerified_iff.1 hverified
      exact ⟨CheckList.mem_remotes.2 ⟨p, hp, hremote⟩, .inl hverified⟩
  have started : (origin.run es).state ≠ .new := by simp [hstate]
  have role : (origin.run (es ++ [e])).controlling = (origin.run es).controlling := by
    rw [run_concat]
    exact step_role (reachable es).blank fun hnew =>
      started (new_of_step (reachable es).grounded hnew)
  have nominates : (origin.run es).controlling = true ∧ origin.Nominates (es ++ [e]) address := by
    rcases held.proved with hverified | ⟨hrole, hnominates⟩
    · obtain ⟨hrole, hconfirming⟩ := hworked hverified
      exact ⟨hrole, asked (es ++ [e]) (role.trans hrole) address hconfirming⟩
    · exact ⟨hrole, hnominates.later e⟩
  have after : address ∈ (origin.run (es ++ [e])).checks.remotes := by
    rw [run_concat]
    exact step_remotes_subset started e held.paired
  obtain ⟨p, hp, hremote⟩ := CheckList.mem_remotes.1 after
  refine ⟨hstate, nominates.1, nominates.2, ⟨p, hp, hremote, fun hworks => ?_⟩,
    q, hq, hselected, fun hsame => ?_, hpair⟩
  · exact unverified (CheckList.isVerified_iff.2 ⟨p, hp, hworks, hremote⟩)
  · exact unselected (hsame ▸ hselected)

/-- An agent is checked from two addresses, checks both back and is answered from both. On the
controlling side it nominates the pair of the first one with that. -/
def twoPaths (id : UInt8 → TransactionId) (near far farther : SocketAddress) : List Event := [
  .start 0 [near] false none (id 0),
  .datagram far (BindingMessage.request ⟨id 1, 2, false⟩).encode 10 (id 2),
  .datagram farther (BindingMessage.request ⟨id 3, 1, false⟩).encode 10 (id 4),
  .tick 20 (id 5) (id 6),
  .tick 40 (id 7) (id 8),
  .datagram far (BindingMessage.response ⟨id 5, true, none⟩).encode 50 (id 9),
  .datagram farther (BindingMessage.response ⟨id 7, true, none⟩).encode 60 (id 10)]

/-- An agent that has nominated the better of two paths gives its address up with the next event. -/
theorem acceptance_ends_while_nominating :
    let peer : PeerId := ⟨List.replicate 16 0, rfl⟩
    let id : UInt8 → TransactionId := fun n => ⟨List.replicate 12 n, List.length_replicate⟩
    let near : SocketAddress := .v4 ⟨10, 0, 0, 1⟩ 5000
    let far : SocketAddress := .v4 ⟨10, 0, 0, 2⟩ 6000
    let farther : SocketAddress := .v4 ⟨10, 0, 0, 3⟩ 6000
    let es := twoPaths id near far farther
    let e : Event := .tick 70 (id 11) (id 12)
    ((new peer true 7 0).run es).accepts far = true ∧
      ((new peer true 7 0).run (es ++ [e])).state.isUsable = true ∧
      (new peer true 7 0).GivesUp es e far := by
  intro peer id near far farther es e
  have before : ((new peer true 7 0).run es).accepts far = true := by decide +kernel
  have usable : ((new peer true 7 0).run (es ++ [e])).state.isUsable = true := by decide +kernel
  have refused : ((new peer true 7 0).run (es ++ [e])).accepts far = false := by decide +kernel
  exact ⟨before, usable, (acceptance_ends_iff _ _ _ _ es e far before usable).1 refused⟩

/-- The same agent takes game data from the address that it has nominated, and then none, though it
is connected all along and no check has failed. -/
theorem dropped_while_nominating :
    let peer : PeerId := ⟨List.replicate 16 0, rfl⟩
    let id : UInt8 → TransactionId := fun n => ⟨List.replicate 12 n, List.length_replicate⟩
    let near : SocketAddress := .v4 ⟨10, 0, 0, 1⟩ 5000
    let far : SocketAddress := .v4 ⟨10, 0, 0, 2⟩ 6000
    let farther : SocketAddress := .v4 ⟨10, 0, 0, 3⟩ 6000
    let a := (new peer true 7 0).run (twoPaths id near far farther)
    let b := a.step (.datagram far (Datagram.ofPayload [1]) 70 (id 11))
    a.state = .connected ∧ b.state = .connected ∧
      (a.onDatagram far (Datagram.ofPayload [1]) 70 (id 11)).2 = some [1] ∧
      (∀ p ∈ b.checks.pairs, p.state ≠ .failed) ∧ a.accepts far = true ∧ b.accepts far = false ∧
      (b.onDatagram far (Datagram.ofPayload [2]) 80 (id 12)).2 = none := by
  decide +kernel

end Agent
end Parley

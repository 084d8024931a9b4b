import Parley.Proofs.Link.Exchange
import Parley.Proofs.Link.Introduction
/-!
On a network that loses nothing the two sides always finish on each other.

`Agreed` is the invariant of the outline. A check that is under way has its request or its answer on
its way; while the controlling side waits for the answer to its nomination, every request with that
identifier nominates, and once there is an answer with it the other side has marked its pair. So
when nothing is on its way any more, no check is under way, and whatever the controlling side has
nominated the other side knows of.
-/
namespace Parley

namespace Outline

/-- The request of a check of this side, or its answer, is on its way. -/
def Underway (o : Outline) (side : Side) (id : TransactionId) : Prop :=
  (∃ r, (side, .request r) ∈ o.flying ∧ r.id = id) ∨
    ∃ r, (side.other, .response r) ∈ o.flying ∧ r.id = id

/-- What is on its way of a nomination: requests that nominate, and answers of a side that has
taken one. -/
structure Confirming (o : Outline) (id : TransactionId) : Prop where
  requests : ∀ r, (.controlling, .request r) ∈ o.flying → r.id = id → r.useCandidate = true
  answers : ∀ r, (.controlled, .response r) ∈ o.flying → r.id = id →
    (o.standing .controlled).marked = true

/-- What the two sides and the network between them have in common after the moves `ms`. -/
structure Agreed (ms : List Exchange.Move) (o : Outline) : Prop where
  role : ∀ side, (o.standing side).controlling = decide (side = .controlling)
  legal : ∀ side, (o.standing side).Legal
  known : ∀ x ∈ o.flying, x.2.id ∈ ms.flatMap Exchange.Move.ids
  pending : ∀ side id, (o.standing side).stage.pending = some id → o.Underway side id
  nominating : ∀ id, (o.standing .controlling).stage = .nominating id → o.Confirming id
  completed : (o.standing .controlling).stage = .completed → (o.standing .controlled).marked = true
  ticked : ∀ side now i j, .tick side now i j ∈ ms → (o.standing side).stage ≠ .waiting

/-- The network when a side is handed an input: a message that is handed over leaves it. -/
structure Hands (o : Outline) (side : Side) (i : Standing.Input) (o' : Outline) : Prop where
  standing : o'.standing = o.standing
  flying : o'.flying ⊆ o.flying
  kept : ∀ x ∈ o.flying, x ∈ o'.flying ∨ ∃ m id, i = .message m id ∧ x = (side.other, m)
  handed : ∀ m id, i = .message m id → (side.other, m) ∈ o.flying

theorem hands_tick (o : Outline) (side : Side) (id : TransactionId) : o.Hands side (.tick id) o :=
  ⟨rfl, fun _ h => h, fun _ h => .inl h, nofun⟩

theorem hands_message {o : Outline} {side : Side} {m : BindingMessage} {index : Nat}
    (h : o.flying[index]? = some (side.other, m)) (id : TransactionId) :
    o.Hands side (.message m id) (o.without index) where
  standing := rfl
  flying := fun _ hx => List.mem_of_mem_eraseIdx hx
  kept := fun x hx => by
    obtain ⟨j, hj⟩ := List.mem_iff_getElem?.1 hx
    by_cases hij : j = index
    · subst hij
      rw [h] at hj
      exact .inr ⟨m, id, rfl, (Option.some.inj hj).symm⟩
    · exact .inl (List.mem_eraseIdx_iff_getElem?.2 ⟨j, hij, hj⟩)
  handed := fun m' id' heq => by
    cases heq
    exact List.mem_of_getElem? h

section Become
variable {ms : List Exchange.Move} {o o' : Outline} {side : Side} {i : Standing.Input}
  {peer : SocketAddress} {s : Standing} {out : List BindingMessage}

theorem mem_become {x : Side × BindingMessage} :
    x ∈ (o'.become side s out).flying ↔ x ∈ o'.flying ∨ x.1 = side ∧ x.2 ∈ out := by
  obtain ⟨side', m⟩ := x
  simp only [become, List.mem_append, List.mem_map, Prod.mk.injEq]
  constructor
  · rintro (h | ⟨m', hm, rfl, rfl⟩)
    · exact .inl h
    · exact .inr ⟨rfl, hm⟩
  · rintro (h | ⟨rfl, hm⟩)
    · exact .inl h
    · exact .inr ⟨m, hm, rfl, rfl⟩

/-- What is sent is about a check of which something is on its way, or about a new one. -/
theorem Agreed.known_out (h : Agreed ms o) (hands : o.Hands side i o')
    (moves : (o.standing side).Moves peer i s out) {m : BindingMessage} (hm : m ∈ out) :
    m.id ∈ ms.flatMap Exchange.Move.ids ∨ m.id = i.id := by
  cases moves with
  | starts =>
    rw [List.mem_singleton.1 hm]
    exact .inr rfl
  | repeats hpending =>
    rw [List.mem_singleton.1 hm]
    left
    rcases h.pending side _ hpending with ⟨q, hq, hid⟩ | ⟨q, hq, hid⟩
    · simpa [hid] using h.known _ hq
    · simpa [hid] using h.known _ hq
  | checked =>
    rw [List.mem_singleton.1 hm]
    exact .inl (h.known _ (hands.handed _ _ rfl))
  | nominates =>
    rw [List.mem_singleton.1 hm]
    exact .inr rfl
  | rests | passes | works | confirms => cases hm

/-- A check of the other side stays under way: when its request is handed over, it is answered. -/
theorem Agreed.underway_other (h : Agreed ms o) (hands : o.Hands side i o')
    (moves : (o.standing side).Moves peer i s out) {id : TransactionId}
    (hpending : (o.standing side.other).stage.pending = some id) :
    (o'.become side s out).Underway side.other id := by
  rcases h.pending side.other id hpending with ⟨r, hr, hid⟩ | ⟨r, hr, hid⟩
  · rcases hands.kept _ hr with hr | ⟨m, id', hi, heq⟩
    · exact .inl ⟨r, mem_become.2 (.inl hr), hid⟩
    · cases heq
      subst hi
      cases moves with
      | checked =>
        refine .inr ⟨.accept r.id peer, mem_become.2 (.inr ⟨by simp, by simp⟩), hid⟩
  · rcases hands.kept _ hr with hr | ⟨m, id', hi, heq⟩
    · exact .inr ⟨r, mem_become.2 (.inl hr), hid⟩
    · rw [Side.other_other] at heq
      exact absurd (Prod.mk.inj heq).1.symm side.other_ne

/-- So does a check of this side, as long as it is the same. -/
theorem Agreed.underway_kept (h : Agreed ms o) (hands : o.Hands side i o')
    {id : TransactionId} (hpending : (o.standing side).stage.pending = some id)
    (hi : ∀ r id', i = .message (.response r) id' → r.id ≠ id) :
    (o'.become side s out).Underway side id := by
  rcases h.pending side id hpending with ⟨r, hr, hid⟩ | ⟨r, hr, hid⟩
  · rcases hands.kept _ hr with hr | ⟨m, id', -, heq⟩
    · exact .inl ⟨r, mem_become.2 (.inl hr), hid⟩
    · exact absurd (Prod.mk.inj heq).1.symm side.other_ne
  · rcases hands.kept _ hr with hr | ⟨m, id', rfl, heq⟩
    · exact .inr ⟨r, mem_become.2 (.inl hr), hid⟩
    · cases heq
      exact absurd hid (hi r id' rfl)

theorem Agreed.underway (h : Agreed ms o) (hands : o.Hands side i o')
    (moves : (o.standing side).Moves peer i s out) {id : TransactionId}
    (hpending : s.stage.pending = some id) : (o'.become side s out).Underway side id := by
  cases moves with
  | starts =>
    cases hpending
    exact .inl ⟨_, mem_become.2 (.inr ⟨rfl, List.mem_singleton.2 rfl⟩), rfl⟩
  | repeats | rests => exact h.underway_kept hands hpending nofun
  | checked =>
    rw [Standing.pending_mark] at hpending
    exact h.underway_kept hands hpending nofun
  | passes hother =>
    refine h.underway_kept hands hpending fun r id' hi => ?_
    cases hi
    intro hid
    exact hother (hid ▸ hpending)
  | nominates =>
    cases hpending
    exact .inl ⟨_, mem_become.2 (.inr ⟨rfl, List.mem_singleton.2 rfl⟩), rfl⟩
  | works =>
    cases hmarked : (o.standing side).marked <;> simp [hmarked, Stage.pending] at hpending
  | confirms => cases hpending

theorem become_self : (o'.become side s out).standing side = s := by simp [become]

theorem become_other : (o'.become side s out).standing side.other = o'.standing side.other := by
  simp [become, Function.update_of_ne side.other_ne]

/-- A nomination stays confirmed while the controlling side sends only what nominates. -/
theorem Confirming.become_controlling {id : TransactionId} (h : o.Confirming id)
    (hands : o.Hands .controlling i o')
    (hout : ∀ r, .request r ∈ out → r.id = id → r.useCandidate = true) :
    (o'.become .controlling s out).Confirming id where
  requests := fun r hr hid => by
    rcases mem_become.1 hr with hr | ⟨-, hr⟩
    · exact h.requests r (hands.flying hr) hid
    · exact hout r hr hid
  answers := fun r hr hid => by
    rcases mem_become.1 hr with hr | ⟨hside, -⟩
    · show ((o'.become .controlling s out).standing Side.controlling.other).marked = true
      rw [become_other, hands.standing]
      exact h.answers r (hands.flying hr) hid
    · cases hside

/-- The controlled side marks its pair before it answers a request that nominates. -/
theorem Confirming.become_controlled {id : TransactionId} (h : o.Confirming id)
    (hrole : (o.standing .controlled).controlling = false) (hands : o.Hands .controlled i o')
    (moves : (o.standing .controlled).Moves peer i s out) :
    (o'.become .controlled s out).Confirming id where
  requests := fun r hr hid => by
    rcases mem_become.1 hr with hr | ⟨hside, -⟩
    · exact h.requests r (hands.flying hr) hid
    · cases hside
  answers := fun r hr hid => by
    rw [become_self]
    rcases mem_become.1 hr with hold | ⟨-, hnew⟩
    · exact moves.marked (h.answers r (hands.flying hold) hid)
    · cases moves with
      | @checked q _ =>
        obtain rfl : r = .accept q.id peer := by simpa using hnew
        have nominates := h.requests q (hands.handed _ _ rfl) hid
        simp [Standing.mark, nominates, hrole]
      | starts | repeats | nominates => simp at hnew
      | rests | passes | works | confirms => simp at hnew

theorem Agreed.nominating_become (h : Agreed ms o) (hands : o.Hands side i o')
    (moves : (o.standing side).Moves peer i s out) (hfresh : i.id ∉ ms.flatMap Exchange.Move.ids)
    {id : TransactionId}
    (hstage : ((o'.become side s out).standing .controlling).stage = .nominating id) :
    (o'.become side s out).Confirming id := by
  cases side with
  | controlled =>
    have before : (o'.become .controlled s out).standing Side.controlled.other =
        o.standing .controlling := become_other.trans (by rw [hands.standing]; rfl)
    have old := h.nominating id (by rw [← hstage, ← before]; rfl)
    exact old.become_controlled (h.role .controlled) hands moves
  | controlling =>
    rw [become_self] at hstage
    have role := h.role .controlling
    cases moves with
    | starts | confirms => cases hstage
    | repeats _ huse =>
      refine (h.nominating id hstage).become_controlling hands fun r hr _ => ?_
      have legal := h.legal .controlling
      rw [Standing.Legal, hstage] at legal
      obtain rfl : r = _ := by simpa using hr
      exact huse.trans legal.2
    | rests | passes =>
      exact (h.nominating id hstage).become_controlling hands fun r hr => by simp at hr
    | checked =>
      rw [Standing.mark_of_controlling role] at hstage
      exact (h.nominating id hstage).become_controlling hands fun r hr => by simp at hr
    | @nominates _ q _ _ huse =>
      -- Nothing with the new identifier is on its way but the request itself.
      cases hstage
      have unknown : ∀ x ∈ o.flying, x.2.id ≠ q.id := fun x hx hid => hfresh (hid ▸ h.known x hx)
      refine ⟨fun r hr hid => ?_, fun r hr hid => ?_⟩
      · rcases mem_become.1 hr with hr | ⟨-, hr⟩
        · exact absurd hid (unknown _ (hands.flying hr))
        · obtain rfl : r = q := by simpa using hr
          exact huse
      · rcases mem_become.1 hr with hr | ⟨hside, -⟩
        · exact absurd hid (unknown _ (hands.flying hr))
        · cases hside
    | works _ hcontrolling =>
      rw [role] at hcontrolling
      cases hcontrolling

theorem Agreed.completed_become (h : Agreed ms o) (hands : o.Hands side i o')
    (moves : (o.standing side).Moves peer i s out)
    (hstage : ((o'.become side s out).standing .controlling).stage = .completed) :
    ((o'.become side s out).standing .controlled).marked = true := by
  cases side with
  | controlled =>
    have before : (o'.become .controlled s out).standing Side.controlled.other =
        o.standing .controlling := become_other.trans (by rw [hands.standing]; rfl)
    rw [become_self]
    exact moves.marked (h.completed (by rw [← hstage, ← before]; rfl))
  | controlling =>
    rw [become_self] at hstage
    have before : (o'.become .controlling s out).standing Side.controlling.other =
        o.standing .controlled := become_other.trans (by rw [hands.standing]; rfl)
    show ((o'.become .controlling s out).standing Side.controlling.other).marked = true
    rw [before]
    have role := h.role .controlling
    cases moves with
    | starts | nominates => cases hstage
    | repeats | rests | passes => exact h.completed hstage
    | checked =>
      rw [Standing.mark_of_controlling role] at hstage
      exact h.completed hstage
    | works _ hcontrolling =>
      rw [role] at hcontrolling
      cases hcontrolling
    | confirms hnominating =>
      exact (h.nominating _ hnominating).answers _ (hands.handed _ _ rfl) rfl

/-- One side's move keeps the two in agreement. -/
theorem Agreed.become (h : Agreed ms o) (hands : o.Hands side i o')
    (moves : (o.standing side).Moves peer i s out) {m : Exchange.Move} (hm : i.id ∈ m.ids)
    (hfresh : i.id ∉ ms.flatMap Exchange.Move.ids)
    (hticked : ∀ side' now j k, m = .tick side' now j k → side' = side ∧ i = .tick j) :
    Agreed (ms ++ [m]) (o'.become side s out) := by
  have ids : (ms ++ [m]).flatMap Exchange.Move.ids = ms.flatMap Exchange.Move.ids ++ m.ids := by
    simp
  -- What is said of each side holds of the side that moves and of the one that does not.
  have sides : ∀ {P : Side → Standing → Prop}, (∀ side, P side (o.standing side)) → P side s →
      ∀ side', P side' ((o'.become side s out).standing side') := by
    intro P hall hmoved side'
    by_cases hside : side' = side
    · subst hside
      rwa [become_self]
    · obtain rfl : side' = side.other := by
        cases side <;> cases side' <;> first | rfl | exact absurd rfl hside
      rw [become_other, hands.standing]
      exact hall _
  refine ⟨?_, ?_, fun x hx => ?_, fun side' id hpending => ?_, fun id => ?_, ?_, ?_⟩
  · exact sides (P := fun side s => s.controlling = decide (side = .controlling)) h.role
      (moves.role.trans (h.role side))
  · exact sides (P := fun _ s => s.Legal) h.legal (moves.legal (h.legal side))
  · rw [ids, List.mem_append]
    rcases mem_become.1 hx with hx | ⟨-, hx⟩
    · exact .inl (h.known x (hands.flying hx))
    · refine (h.known_out hands moves hx).imp_right fun hid => ?_
      rwa [hid]
  · by_cases hside : side' = side
    · subst hside
      rw [become_self] at hpending
      exact h.underway hands moves hpending
    · obtain rfl : side' = side.other := by
        cases side <;> cases side' <;> first | rfl | exact absurd rfl hside
      rw [become_other, hands.standing] at hpending
      exact h.underway_other hands moves hpending
  · exact h.nominating_become hands moves hfresh
  · exact h.completed_become hands moves
  · intro side' now j k hmem
    rcases List.mem_append.1 hmem with hmem | hmem
    · exact sides (P := fun side' s => ∀ now j k, .tick side' now j k ∈ ms → s.stage ≠ .waiting)
        h.ticked (fun now j k hmem => moves.begun (h.ticked side now j k hmem)) side' now j k hmem
    · obtain ⟨rfl, rfl⟩ := hticked side' now j k (List.mem_singleton.1 hmem).symm
      rw [become_self]
      exact moves.ticked

end Become

/-- **A move keeps the two sides in agreement.** -/
theorem Agreed.step {home : Side → SocketAddress} {ms : List Exchange.Move} {o o' : Outline}
    {m : Exchange.Move} (h : Agreed ms o) (hstep : o.Step home m o')
    (hfresh : ∀ id ∈ m.ids, id ∉ ms.flatMap Exchange.Move.ids) : Agreed (ms ++ [m]) o' := by
  cases hstep with
  | @tick _ _ checkId nominationId _ _ moves =>
    have hid : checkId ∈ [checkId, nominationId] := List.mem_cons_self ..
    refine h.become (o.hands_tick ..) moves hid (hfresh _ hid) fun side' now' j k heq => ?_
    cases heq
    exact ⟨rfl, rfl⟩
  | @deliver _ _ id _ _ _ _ hpacket moves =>
    have hid : id ∈ [id] := List.mem_singleton.2 rfl
    exact h.become (hands_message hpacket id) moves hid (hfresh _ hid) nofun
  | idle =>
    refine ⟨h.role, h.legal, fun x hx => ?_, h.pending, h.nominating, h.completed, ?_⟩
    · rw [List.flatMap_append]
      exact List.mem_append_left _ (h.known x hx)
    · intro side now j k hmem
      rcases List.mem_append.1 hmem with hmem | hmem
      · exact h.ticked side now j k hmem
      · cases List.mem_singleton.1 hmem

/-- Where two sides stand that have just been told of each other. -/
def first : Outline where
  standing := fun side => ⟨decide (side = .controlling), .waiting, false⟩
  flying := []

theorem agreed_first : Agreed [] first where
  role := fun _ => rfl
  legal := fun _ => trivial
  known := nofun
  pending := nofun
  nominating := nofun
  completed := nofun
  ticked := nofun

/-- With nothing on its way, and each side ticked once, both have completed. -/
theorem Agreed.completes {ms : List Exchange.Move} {o : Outline} (h : Agreed ms o)
    (hflying : o.flying = []) (hticked : ∀ side, ∃ now j k, .tick side now j k ∈ ms) (side : Side) :
    (o.standing side).stage = .completed := by
  have settled : ∀ side, (o.standing side).stage = .connected ∨
      (o.standing side).stage = .completed := by
    intro side
    have nothing : ∀ id, (o.standing side).stage.pending ≠ some id := by
      intro id hpending
      rcases h.pending side id hpending with ⟨r, hr, -⟩ | ⟨r, hr, -⟩ <;> simp [hflying] at hr
    obtain ⟨now, j, k, hmem⟩ := hticked side
    have begun := h.ticked side now j k hmem
    cases hstage : (o.standing side).stage with
    | waiting => exact absurd hstage begun
    | checking id | nominating id => exact absurd (by rw [hstage]; rfl) (nothing id)
    | connected => exact .inl rfl
    | completed => exact .inr rfl
  have unmarked : ∀ side, (o.standing side).stage = .connected →
      (o.standing side).controlling = false ∧ (o.standing side).marked = false := by
    intro side hstage
    have legal := h.legal side
    rwa [Standing.Legal, hstage] at legal
  have first : (o.standing .controlling).stage = .completed := by
    refine (settled .controlling).resolve_left fun hstage => ?_
    have role := (unmarked _ hstage).1
    rw [h.role] at role
    cases role
  cases side with
  | controlling => exact first
  | controlled =>
    refine (settled .controlled).resolve_left fun hstage => ?_
    have marked := (unmarked _ hstage).2
    rw [h.completed first] at marked
    cases marked

end Outline

namespace Exchange
open Agent (Party)

/-- Two new agents that have started at `t₀`, each at one address, and have been handed all that the
other has posted. -/
structure Introduced (P : Side → Party) (t₀ : Nat) : Prop where
  role : ∀ side, (P side).controlling = decide (side = .controlling)
  home : (P .controlling).home ≠ (P .controlled).home
  version : (P .controlling).home.isV4 = (P .controlled).home.isV4
  gathered : ∀ side,
    Candidate.gather [(P side).home] (P side).includeLoopback = [.host (P side).home]
  /-- The address that the other side reads is the address itself. -/
  plain : ∀ side, (P side).home.withoutFlow = (P side).home
  heard : ∀ side,
    ((P side).before ++ (P side).after).map (·.1) = ((P side.other).agent t₀).signals
  after : ∀ side, ∀ m ∈ (P side).after, t₀ ≤ m.2.1 ∧ m.2.1 ≤ t₀ + 4000

/-- The exchange of two parties, before anything has been sent. -/
def begin (P : Side → Party) (t₀ : Nat) : Exchange where
  agent := fun side => (P side).agent t₀
  flying := []

theorem Introduced.outlines {P : Side → Party} {t₀ : Nat} (h : Introduced P t₀) :
    Outlines (fun side => (P side).home) t₀ .first (begin P t₀) := by
  have version : ∀ side, (P side).home.isV4 = (P side.other).home.isV4 := by
    intro side
    cases side
    · exact h.version
    · exact h.version.symm
  have waits : ∀ side, Agent.Waits (P side.other).home t₀ (P side.other).session
      (P side).controlling ((P side).agent t₀) := fun side =>
    Agent.Party.stands _ _ (version side) (h.gathered side) (h.plain side.other)
      ((h.heard side).trans (Agent.Party.signals_agent t₀ (h.gathered side.other))) (h.after side)
  refine ⟨fun side => ?_, fun side => (waits side).silent, rfl, nofun⟩
  have stands := (waits side).stands
  rwa [h.role side] at stands

/-- What a run keeps: the outline is in agreement, and is that of the exchange. -/
theorem Introduced.run {P : Side → Party} {t₀ : Nat} (h : Introduced P t₀) {ms : List Move}
    (htimes : ∀ m ∈ ms, t₀ ≤ m.time ∧ m.time ≤ t₀ + 4000) (hids : (ms.flatMap Move.ids).Nodup) :
    ∃ o, Outline.Agreed ms o ∧
      Outlines (fun side => (P side).home) t₀ o
        ((begin P t₀).run (fun side => (P side).home) ms) := by
  induction ms using List.reverseRecOn with
  | nil => exact ⟨_, Outline.agreed_first, h.outlines⟩
  | append_singleton ms m ih =>
    rw [List.flatMap_append, List.nodup_append'] at hids
    obtain ⟨hbefore, -, hdisjoint⟩ := hids
    obtain ⟨o, agreed, outlines⟩ :=
      ih (fun m hm => htimes m (List.mem_append_left _ hm)) hbefore
    have fresh : ∀ id ∈ m.ids, id ∉ ms.flatMap Move.ids := fun id hid hused =>
      hdisjoint hused (by simpa using hid)
    obtain ⟨o', hstep, outlines'⟩ := outlines.step h.home m (htimes m (by simp))
    rw [run_concat]
    exact ⟨o', agreed.step hstep fresh, outlines'⟩

/-- **On a network that loses nothing the two sides finish on each other**, in whatever order the
ticks and the arrivals come: when nothing is on its way any more, within four seconds and after a
tick of each, both have completed and send to each other. -/
theorem lossless_completes {P : Side → Party} {t₀ : Nat} (h : Introduced P t₀) (ms : List Move)
    (htimes : ∀ m ∈ ms, t₀ ≤ m.time ∧ m.time ≤ t₀ + 4000) (hids : (ms.flatMap Move.ids).Nodup)
    (hticked : ∀ side, ∃ now checkId id, .tick side now checkId id ∈ ms)
    (hdone : ((begin P t₀).run (fun side => (P side).home) ms).flying = []) (side : Side) :
    (((begin P t₀).run (fun side => (P side).home) ms).agent side).state = .completed ∧
      (((begin P t₀).run (fun side => (P side).home) ms).agent side).selected =
        some (P side.other).home := by
  obtain ⟨o, agreed, outlines⟩ := h.run htimes hids
  have quiet : o.flying = [] := by
    rw [outlines.flying] at hdone
    exact List.map_eq_nil_iff.1 hdone
  have stage := agreed.completes quiet hticked side
  have stands := outlines.stands side
  refine ⟨stands.state.trans (by rw [stage]; rfl), stands.selected (by rw [stage]; rfl)⟩

/-- One check each, and the nomination. -/
theorem lossless_completes_in_order :
    let id : UInt8 → TransactionId := fun n => ⟨List.replicate 12 n, List.length_replicate⟩
    let party : Side → Party := fun
      | .controlling =>
        { peer := ⟨List.replicate 16 1, rfl⟩, controlling := true, session := 7, created := 0,
          home := .v4 ⟨192, 168, 1, 10⟩ 4000, includeLoopback := false, startId := id 0,
          before := [], after := [] }
      | .controlled =>
        { peer := ⟨List.replicate 16 2, rfl⟩, controlling := false, session := 8, created := 0,
          home := .v4 ⟨192, 168, 1, 20⟩ 5000, includeLoopback := false, startId := id 0,
          before := [], after := [] }
    let P : Side → Party := fun side =>
      { party side with after := (party side.other).announcement.map fun m => (m, 0, id 0) }
    let ms : List Move := [
      .tick .controlling 20 (id 1) (id 2), .tick .controlled 20 (id 3) (id 4),
      .deliver 0 40 (id 5), .deliver 0 40 (id 6), .deliver 0 60 (id 7), .deliver 0 60 (id 8),
      .deliver 0 80 (id 9), .deliver 0 100 (id 10)]
    let w := (begin P 0).run (fun side => (P side).home) ms
    w.flying = [] ∧ ∀ side, (w.agent side).state = .completed ∧
      (w.agent side).selected = some (P side.other).home := by
  intro id party P ms
  have introduced : Introduced P 0 := by
    refine ⟨fun side => ?_, by decide +kernel, by decide +kernel, fun side => ?_, fun side => ?_,
      fun side => ?_, fun side m hm => ?_⟩
    · cases side <;> rfl
    · cases side <;> decide +kernel
    · cases side <;> decide +kernel
    · cases side <;> decide +kernel
    · obtain ⟨m, -, rfl⟩ := List.mem_map.1 hm
      exact ⟨Nat.le_refl 0, Nat.zero_le 4000⟩
  have done : ((begin P 0).run (fun side => (P side).home) ms).flying = [] := by decide +kernel
  have ticked : ∀ side, ∃ now checkId id, .tick side now checkId id ∈ ms := by
    intro side
    cases side
    · exact ⟨20, id 1, id 2, by simp [ms]⟩
    · exact ⟨20, id 3, id 4, by simp [ms]⟩
  have times : ∀ m ∈ ms, 0 ≤ m.time ∧ m.time ≤ 0 + 4000 := by decide +kernel
  have fresh : (ms.flatMap Move.ids).Nodup := by decide +kernel
  exact ⟨done, lossless_completes introduced ms times fresh ticked done⟩

end Exchange
end Parley

import Parley.Proofs.Link.CheckList.Refusal
import Parley.Proofs.Link.CheckList.Rounds
/-!
How the requests of one transaction are sent.

Whatever happens to a check list, the pair whose check is under way shows how often the request of
its transaction has been sent, and when first and last (`Pair.Shows`). A request is sent again from
that pair only, so that what has been sent of a transaction stays within the bounds (`Backoff`), and
nothing is sent once no pair waits for the answer (`acts_unawaited`). All of it rests on identifiers
that are not handed out twice.
-/
namespace Parley
namespace CheckList

/-- A request that has been sent. -/
structure Sending where
  now : Nat
  destination : SocketAddress
  request : BindingRequest

/-- When an action would send. -/
def Action.sendsAt? : Action → Option Nat
  | .send now _ | .nominate _ now _ => some now
  | _ => none

/-- The request of a transaction that an action sends. -/
def sending? (t : TransactionId) (l : CheckList) (x : Action) : Option Sending :=
  match x.sendsAt?, l.sends x with
  | some now, some (destination, request) =>
    if request.id = t then some ⟨now, destination, request⟩ else none
  | _, _ => none

/-- The requests of a transaction that some actions send, in order. -/
def sendings (t : TransactionId) (l : CheckList) : List Action → List Sending
  | [] => []
  | x :: xs => (l.sending? t x).toList ++ (l.act x).sendings t xs

/-! ### One action -/

/-- How a pair comes to be sent the request of a transaction: its check begins, or goes on. -/
inductive Goes (t : TransactionId) (x : Action) (now : Nat) (p q : Pair) : Prop where
  | begun (handed : x.ids = [t]) (sends : q.sends = 1) (first : q.firstSent = some now)
  | again (awaits : p.awaits t = true) (due : p.needsRetransmit now = true)
      (sends : q.sends = p.sends + 1) (first : q.firstSent = p.firstSent)

/-- The pair that is sent a request, before and after that, where it stands. -/
structure Sent (t : TransactionId) (l : CheckList) (x : Action) (s : Sending) (front : List Pair)
    (p q : Pair) (back : List Pair) : Prop where
  before : l.pairs = front ++ p :: back
  after : (l.act x).pairs = front ++ q :: back
  remote : q.remote = p.remote
  destination : s.destination = p.remote
  awaits : q.awaits t = true
  last : q.lastSent = some s.now
  goes : Goes t x s.now p q

theorem startCheck_awaits (p : Pair) (now : Nat) (t : TransactionId) :
    (p.startCheck now t).1.awaits t = true := by simp [Pair.awaits, Pair.startCheck]

theorem needsRetransmit_iff {p : Pair} {now : Nat} : p.needsRetransmit now = true ↔
    p.state = .inProgress ∧ p.sends < Pair.maxSends ∧ p.intervalOver now = true := by
  simp [Pair.needsRetransmit, and_assoc]

/-- A request that is sent is that of one pair, and nothing happens to the others. -/
theorem exists_sent {l : CheckList} {x : Action} {now : Nat} {d : SocketAddress}
    {r : BindingRequest} (time : x.sendsAt? = some now) (sent : l.sends x = some (d, r)) :
    ∃ front p q back, Sent r.id l x ⟨now, d, r⟩ front p q back := by
  cases x with
  | send _ id =>
    cases time
    rcases nextRequest_cases l now id with none | ⟨front, p, q, back, r', before, -, turn, next⟩
    · simp [sends, none] at sent
    · have after : (l.act (.send now id)).pairs = front ++ q :: back := by rw [act, next]
      simp only [sends, next, Option.map_some, Option.some.injEq, Prod.mk.injEq] at sent
      obtain ⟨rfl, rfl⟩ := sent
      refine ⟨front, p, q, back, ?_⟩
      cases turn with
      | @resent u due transaction =>
        have awaits : p.awaits u = true := by
          simp [Pair.awaits, (needsRetransmit_iff.1 due).1, transaction]
        exact ⟨before, after, rfl, rfl, awaits, rfl, .again awaits due rfl rfl⟩
      | waiting | frozen =>
        exact ⟨before, after, rfl, rfl, startCheck_awaits .., rfl, .begun rfl rfl rfl⟩
  | nominate i _ id =>
    cases time
    rcases nominate_cases l i now id with none | ⟨p, there, -, next⟩
    · simp [sends, none] at sent
    · simp only [sends, next, Option.map_some, Option.some.injEq, Prod.mk.injEq] at sent
      obtain ⟨rfl, rfl⟩ := sent
      obtain ⟨bound, rfl⟩ := List.getElem?_eq_some_iff.1 there
      let q := ({ l.pairs[i] with nominated := true }.startCheck now id).1
      obtain ⟨front, back, before, -, set⟩ : ∃ front back, l.pairs = front ++ l.pairs[i] :: back ∧
        front.length = i ∧ l.pairs.set i q = front ++ q :: back := List.exists_of_set bound
      have after : (l.act (.nominate i now id)).pairs = front ++ q :: back := by
        rw [act, next]
        exact set
      exact ⟨front, _, q, back, before, after, rfl, rfl, startCheck_awaits .., rfl,
        .begun rfl rfl rfl⟩
  | _ => cases time

theorem sending?_eq_some {t : TransactionId} {l : CheckList} {x : Action} {s : Sending}
    (h : l.sending? t x = some s) : ∃ front p q back, Sent t l x s front p q back := by
  unfold sending? at h
  split at h
  · rename_i time sent
    split at h
    · rename_i same
      cases h
      exact same ▸ exists_sent time sent
    · cases h
  · cases h

/-- Where no request of a transaction is sent, who waits for its answer has waited before. -/
theorem act_unsent {t : TransactionId} {l : CheckList} {x : Action} (unsent : l.sending? t x = none)
    {p q : Pair} (evolves : Evolves l x p q) (awaits : q.awaits t = true) :
    p.awaits t = true ∧ Stays x p q := by
  simp only [Pair.awaits, Bool.and_eq_true, beq_iff_eq] at awaits ⊢
  obtain ⟨state, transaction⟩ := awaits
  rcases evolves.of_inProgress state with ⟨before, stays⟩ | ⟨r, sent, handed, -⟩
  · exact ⟨⟨before, stays.state.2.1.symm.trans transaction⟩, stays⟩
  · have same : r.id = t := Option.some.inj (handed.symm.trans transaction)
    cases x with
    | send | nominate => simp [sending?, Action.sendsAt?, sent, same] at unsent
    | _ => cases sent

theorem Formed.unawaited {l : CheckList} {x : Action} {q : Pair} (h : Formed l x q)
    (t : TransactionId) : q.awaits t = false := by
  rcases h.idle with idle | idle <;> simp [Pair.awaits, idle]

theorem act_count {t : TransactionId} {l : CheckList} {x : Action}
    (unsent : l.sending? t x = none) :
    (l.act x).pairs.countP (·.awaits t) ≤ l.pairs.countP (·.awaits t) := by
  by_cases goes : ∀ controlling, x ≠ .reset controlling
  · obtain ⟨old, formed, perm, evolved, new⟩ := evolution l goes
    have unawaited : formed.countP (·.awaits t) = 0 :=
      List.countP_eq_zero.2 fun q hq => by simp [(new q hq).unawaited t]
    rw [perm.countP_eq, List.countP_append, unawaited, Nat.add_zero]
    exact countP_le_of_forall₂ evolved fun _ _ h awaits => (act_unsent unsent h awaits).1
  · obtain ⟨controlling, reset⟩ := not_forall.1 goes
    rw [not_not.1 reset]
    exact Nat.zero_le _

/-- A transaction for whose answer no pair waits is over, unless its identifier is handed out. -/
theorem act_unawaited {t : TransactionId} {l : CheckList} {x : Action} (other : t ∉ x.ids)
    (unawaited : ∀ p ∈ l.pairs, p.awaits t = false) :
    l.sending? t x = none ∧ ∀ q ∈ (l.act x).pairs, q.awaits t = false := by
  have unsent : l.sending? t x = none := by
    rw [Option.eq_none_iff_forall_ne_some]
    intro s sent
    obtain ⟨front, p, q, back, sent⟩ := sending?_eq_some sent
    cases sent.goes with
    | begun handed => exact other (handed ▸ List.mem_singleton_self t)
    | again awaits =>
      have none := unawaited p (sent.before ▸ List.mem_append_right _ List.mem_cons_self)
      exact Bool.false_ne_true (none.symm.trans awaits)
  refine ⟨unsent, fun q hq => Bool.eq_false_iff.2 fun awaits => ?_⟩
  rcases act_pairs hq with ⟨p, hp, evolves⟩ | formed
  · have before := (act_unsent unsent evolves awaits).1
    exact Bool.false_ne_true ((unawaited p hp).symm.trans before)
  · exact Bool.false_ne_true ((formed.unawaited t).symm.trans awaits)

theorem acts_unawaited {t : TransactionId} {l : CheckList} {xs : List Action}
    (other : t ∉ xs.flatMap Action.ids) (unawaited : ∀ p ∈ l.pairs, p.awaits t = false) :
    l.sendings t xs = [] ∧ ∀ q ∈ (l.acts xs).pairs, q.awaits t = false := by
  induction xs generalizing l with
  | nil => exact ⟨rfl, unawaited⟩
  | cons x xs ih =>
    rw [List.flatMap_cons, List.mem_append, not_or] at other
    obtain ⟨unsent, after⟩ := act_unawaited other.1 unawaited
    obtain ⟨rest, final⟩ := ih other.2 after
    exact ⟨by rw [sendings, unsent, rest]; rfl, final⟩

/-! ### What has been sent -/

/-- The requests of one transaction keep within the bounds: there are five of them at most, they all
go to one address, and the time between two doubles up to 1600 ms. -/
structure Backoff (ts : List Sending) : Prop where
  few : ts.length ≤ 5
  alike : ∀ a ∈ ts, ∀ b ∈ ts, a.destination = b.destination
  spaced : ∀ k a b, ts[k]? = some a → ts[k + 1]? = some b →
    a.now + 100 * 2 ^ min (k + 1) 4 ≤ b.now

/-- A pair shows how often the request of its transaction has been sent, and when first and last. -/
structure Shows (ts : List Sending) (p : Pair) : Prop where
  sent : ts ≠ []
  count : p.sends = ts.length
  first : p.firstSent = ts.head?.map (·.now)
  last : p.lastSent = ts.getLast?.map (·.now)
  destination : ∀ a ∈ ts, a.destination = p.remote

theorem interval_eq (p : Pair) : p.interval = 100 * 2 ^ min p.sends 4 := by
  have bounded : 2 ^ min p.sends 4 ≤ 2 ^ 4 := Nat.pow_le_pow_right (by decide) (Nat.min_le_right ..)
  have doubled : p.interval = min (100 * 2 ^ min p.sends 4) 1600 :=
    congrArg (min · 1600) (Nat.shiftLeft_eq ..)
  omega

theorem backoff_nil : Backoff [] := ⟨Nat.zero_le _, nofun, nofun⟩

theorem backoff_one (s : Sending) : Backoff [s] := by
  refine ⟨Nat.le_add_left 1 4, fun a ha b hb => ?_, fun k a b _ hb => ?_⟩
  · rw [List.mem_singleton.1 ha, List.mem_singleton.1 hb]
  · cases hb

/-- A request that is due again keeps within the bounds. -/
theorem Backoff.again {ts : List Sending} (h : Backoff ts) {p : Pair} (shows : Shows ts p)
    {s : Sending} (due : p.needsRetransmit s.now = true) (destination : s.destination = p.remote) :
    Backoff (ts ++ [s]) := by
  obtain ⟨-, few, elapsed⟩ := needsRetransmit_iff.1 due
  refine ⟨?_, ?_, fun k a b ha hb => ?_⟩
  · rw [List.length_append, ← shows.count]
    exact few
  · have all : ∀ a ∈ ts ++ [s], a.destination = p.remote := by
      intro a ha
      rcases List.mem_append.1 ha with old | new
      · exact shows.destination a old
      · rw [List.mem_singleton.1 new, destination]
    exact fun a ha b hb => (all a ha).trans (all b hb).symm
  · by_cases inside : k + 1 < ts.length
    · rw [List.getElem?_append_left (by omega)] at ha hb
      exact h.spaced k a b ha hb
    · -- The one before the new request is the latest so far.
      have bound := (List.getElem?_eq_some_iff.1 hb).1
      rw [List.length_append, List.length_singleton] at bound
      have edge : k + 1 = ts.length := by omega
      rw [List.getElem?_append_left (by omega)] at ha
      rw [edge, List.getElem?_append_right (Nat.le_refl _), Nat.sub_self] at hb
      cases hb
      have last : p.lastSent = some a.now := by
        rw [shows.last, List.getLast?_eq_getElem?, ← edge, Nat.add_sub_cancel, ha]
        rfl
      rw [Pair.intervalOver, last, interval_eq, shows.count, ← edge] at elapsed
      have late : 100 * 2 ^ min (k + 1) 4 ≤ s.now - a.now := of_decide_eq_true elapsed
      have positive : 0 < 2 ^ min (k + 1) 4 := Nat.two_pow_pos _
      omega

theorem Shows.of_stays {ts : List Sending} {x : Action} {p q : Pair} (h : Shows ts p)
    (stays : Stays x p q) : Shows ts q := by
  rcases stays with rfl | ⟨-, rfl⟩
  · exact h
  · exact ⟨h.sent, h.count, h.first, h.last, h.destination⟩

theorem Shows.again {ts : List Sending} {p q : Pair} (h : Shows ts p) {s : Sending}
    (sends : q.sends = p.sends + 1) (first : q.firstSent = p.firstSent)
    (last : q.lastSent = some s.now) (remote : q.remote = p.remote)
    (destination : s.destination = p.remote) : Shows (ts ++ [s]) q := by
  refine ⟨by simp, ?_, ?_, ?_, fun a ha => ?_⟩
  · rw [sends, h.count, List.length_append, List.length_singleton]
  · rw [first, h.first, List.head?_append_of_ne_nil _ h.sent]
  · rw [last, List.getLast?_concat]
    rfl
  · rw [remote]
    rcases List.mem_append.1 ha with old | new
    · exact h.destination a old
    · rw [List.mem_singleton.1 new, destination]

/-- What holds between a check list and the requests of a transaction that have been sent. -/
structure Follows (t : TransactionId) (l : CheckList) (ts : List Sending) : Prop where
  backoff : Backoff ts
  alone : l.pairs.countP (·.awaits t) ≤ 1
  shows : ∀ p ∈ l.pairs, p.awaits t = true → Shows ts p

theorem Follows.unsent {t : TransactionId} {l : CheckList} {ts : List Sending}
    (h : Follows t l ts) {x : Action} (unsent : l.sending? t x = none) :
    Follows t (l.act x) ts := by
  refine ⟨h.backoff, (act_count unsent).trans h.alone, fun q hq awaits => ?_⟩
  rcases act_pairs hq with ⟨p, hp, evolves⟩ | formed
  · obtain ⟨before, stays⟩ := act_unsent unsent evolves awaits
    exact (h.shows p hp before).of_stays stays
  · exact absurd awaits (Bool.eq_false_iff.1 (formed.unawaited t))

/-- What is known of the pair that is sent the request is known of all that wait for the answer, as
long as no other one does. -/
theorem Follows.of_sent {t : TransactionId} {l : CheckList} {x : Action} {s : Sending}
    {front back : List Pair} {p q : Pair} (sent : Sent t l x s front p q back)
    (others : ∀ y ∈ front ++ back, y.awaits t = false) {ts : List Sending} (backoff : Backoff ts)
    (shows : Shows ts q) : Follows t (l.act x) ts := by
  have elsewhere : (front ++ back).countP (·.awaits t) = 0 :=
    List.countP_eq_zero.2 fun y hy => by simp [others y hy]
  rw [List.countP_append] at elsewhere
  refine ⟨backoff, ?_, fun y hy awaits => ?_⟩
  · rw [sent.after, List.countP_append, List.countP_cons, sent.awaits]
    simp only [if_true]
    omega
  · rw [sent.after, List.mem_append, List.mem_cons] at hy
    have known : y ∈ front ++ back → Shows ts y :=
      fun hy => absurd awaits (Bool.eq_false_iff.1 (others y hy))
    rcases hy with hy | rfl | hy
    · exact known (List.mem_append_left _ hy)
    · exact shows
    · exact known (List.mem_append_right _ hy)

theorem new_follows (controlling : Bool) (t : TransactionId) : Follows t (new controlling) [] :=
  ⟨backoff_nil, Nat.zero_le _, fun _ hp => absurd hp List.not_mem_nil⟩

/-- **An action keeps it**, if it does not use the identifier anew. -/
theorem Follows.act {t : TransactionId} {l : CheckList} {ts : List Sending} (h : Follows t l ts)
    {x : Action} (unused : t ∈ x.ids → ts = [] ∧ ∀ p ∈ l.pairs, p.awaits t = false) :
    Follows t (l.act x) (ts ++ (l.sending? t x).toList) := by
  cases sending : l.sending? t x with
  | none => exact (List.append_nil ts).symm ▸ h.unsent sending
  | some s =>
    obtain ⟨front, p, q, back, sent⟩ := sending?_eq_some sending
    have member : ∀ y ∈ front ++ p :: back, y ∈ l.pairs := fun y hy => sent.before ▸ hy
    cases sent.goes with
    | begun handed sends first =>
      obtain ⟨rfl, unawaited⟩ := unused (handed ▸ List.mem_singleton_self t)
      refine Follows.of_sent sent (fun y hy => unawaited y (member y ?_)) (backoff_one s) ?_
      · simp only [List.mem_append, List.mem_cons] at hy ⊢
        tauto
      · refine ⟨by simp, sends, first, sent.last, fun a ha => ?_⟩
        rw [List.mem_singleton.1 ha, sent.destination, sent.remote]
    | again awaits due sends first =>
      have shows := h.shows p (member p (List.mem_append_right _ List.mem_cons_self)) awaits
      have alone := h.alone
      rw [sent.before, List.countP_append, List.countP_cons, awaits] at alone
      have others : (front ++ back).countP (·.awaits t) = 0 := by
        simp only [if_true] at alone
        rw [List.countP_append]
        omega
      refine Follows.of_sent sent (fun y hy => ?_) (h.backoff.again shows due sent.destination)
        (shows.again sends first sent.last sent.remote sent.destination)
      exact Bool.eq_false_iff.2 (List.countP_eq_zero.1 others y hy)

theorem Follows.acts {t : TransactionId} {l : CheckList} {ts : List Sending} (h : Follows t l ts)
    {xs : List Action} (fresh : (xs.flatMap Action.ids).Nodup)
    (unused : t ∈ xs.flatMap Action.ids → ts = [] ∧ ∀ p ∈ l.pairs, p.awaits t = false) :
    Follows t (l.acts xs) (ts ++ l.sendings t xs) := by
  induction xs generalizing l ts with
  | nil => exact (List.append_nil ts).symm ▸ h
  | cons x xs ih =>
    rw [List.flatMap_cons] at fresh unused
    obtain ⟨-, fresh', apart⟩ := List.nodup_append.1 fresh
    have first := h.act fun handed => unused (List.mem_append_left _ handed)
    rw [sendings, ← List.append_assoc]
    refine ih first fresh' fun later => ?_
    obtain ⟨rfl, unawaited⟩ := unused (List.mem_append_right _ later)
    have other : t ∉ x.ids := fun handed => apart t handed t later rfl
    obtain ⟨unsent, after⟩ := act_unawaited other unawaited
    exact ⟨by rw [unsent]; rfl, after⟩

/-! ### Runs -/

/-- The check of a pair is given up once five seconds have passed since the first request. -/
def Overdue (t : TransactionId) (l : CheckList) (ts : List Sending) : Prop :=
  ∀ (i : Nat) (p : Pair), l.pairs[i]? = some p → p.awaits t = true →
    ∃ first rest, ts = first :: rest ∧ ∀ now, first.now + 5000 ≤ now →
      (l.handleTimeouts now).pairs[i]? = some { p with state := .failed, nominated := false }

theorem Follows.overdue {t : TransactionId} {l : CheckList} {ts : List Sending}
    (h : Follows t l ts) : Overdue t l ts := by
  intro i p there awaits
  have shows := h.shows p (List.mem_of_getElem? there) awaits
  simp only [Pair.awaits, Bool.and_eq_true, beq_iff_eq] at awaits
  cases ts with
  | nil => exact absurd rfl shows.sent
  | cons first rest =>
    refine ⟨first, rest, rfl, fun now late => ?_⟩
    have expired : p.isTimedOut now = true := Pair.timedOut_of_first awaits.1 shows.first late
    show (l.pairs.map (·.expire now))[i]? = _
    rw [List.getElem?_map, there, Option.map_some, Pair.expire, if_pos expired]

/-- How a check list deals with its transactions in a run. -/
structure Disciplined (l : CheckList) (xs : List Action) : Prop where
  backoff : ∀ t, Backoff (l.sendings t xs)
  overdue : ∀ t, Overdue t (l.acts xs) (l.sendings t xs)
  ended : ∀ t before after, xs = before ++ after → l.sendings t before ≠ [] →
    (∀ p ∈ (l.acts before).pairs, p.awaits t = false) → (l.acts before).sendings t after = []
  unanswered : ∀ r, (∀ p ∈ (l.acts xs).pairs, p.awaits r.id = false) →
    (l.acts xs).handleResponse r = (l.acts xs, none)

theorem handleResponse_unawaited {l : CheckList} {r : BindingResponse}
    (unawaited : ∀ p ∈ l.pairs, p.awaits r.id = false) : l.handleResponse r = (l, none) := by
  rcases handleResponse_cases l r with ⟨same, -⟩ | ⟨front, p, back, before, awaits, -⟩
  · exact same
  · have none := unawaited p (before ▸ List.mem_append_right _ List.mem_cons_self)
    exact absurd awaits (Bool.eq_false_iff.1 none)

/-- **In every run whose identifiers are not handed out twice the requests of a transaction keep
within the bounds**, until no pair waits for the answer. -/
theorem transactions_bounded (controlling : Bool) {xs : List Action}
    (fresh : (xs.flatMap Action.ids).Nodup) : (new controlling).Disciplined xs := by
  have unawaited (t : TransactionId) : ∀ p ∈ (new controlling).pairs, p.awaits t = false :=
    fun _ hp => absurd hp List.not_mem_nil
  have follows (t : TransactionId) :
      Follows t ((new controlling).acts xs) ((new controlling).sendings t xs) :=
    (new_follows controlling t).acts fresh fun _ => ⟨rfl, unawaited t⟩
  refine ⟨fun t => (follows t).backoff, fun t => (follows t).overdue, ?_,
    fun r none => handleResponse_unawaited none⟩
  rintro t before after rfl sent none
  rw [List.flatMap_append] at fresh
  have handed : t ∈ before.flatMap Action.ids := by
    by_contra other
    exact sent (acts_unawaited other (unawaited t)).1
  have other : t ∉ after.flatMap Action.ids :=
    fun later => (List.nodup_append.1 fresh).2.2 t handed t later rfl
  exact (acts_unawaited other none).1

/-- The first request that is asked for is sent four times more, each time not before it is due. -/
theorem transactions_bounded_unanswered :
    let id : Nat → TransactionId := fun n => ⟨List.replicate 12 (.ofNat n), List.length_replicate⟩
    let near := Candidate.host (.v4 ⟨10, 0, 0, 1⟩ 5000)
    let far := Candidate.host (.v4 ⟨10, 0, 0, 2⟩ 5000)
    let times := [20, 219, 220, 619, 620, 1419, 1420, 3019, 3020, 4620]
    let xs := .start 0 :: .pair [near] [far] ::
      times.zipIdx.map fun (now, n) => Action.send now (id n)
    (xs.flatMap Action.ids).Nodup ∧ (new true).Disciplined xs ∧
      ((new true).sendings (id 0) xs).map (·.now) = [20, 220, 620, 1420, 3020] := by
  intro id near far times xs
  have fresh : (xs.flatMap Action.ids).Nodup := by decide +kernel
  exact ⟨fresh, transactions_bounded true fresh, by decide +kernel⟩

end CheckList
end Parley

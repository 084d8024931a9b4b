import Parley.Link.Inbox
import Mathlib.Data.List.Induction
/-!
The accounts of the queue of game data.

Each operation takes packets off the front of the queue, and each of these is delivered, found
stale, or evicted (`Parts`). What has left the queue since the beginning, in front of what still
waits, is therefore all that was ever pushed, in its order (`run_accounts`), and the counters tell how
many packets went which way. Time may run back: what is delivered is fresh at the time of the call that
delivers it. Draining looks at every packet at once, popping at one after the other, and both come to
the same (`popAll_eq_drain`).
-/
namespace Parley.Inbox

/-- What can be done with a queue. -/
inductive Event where
  | push (p : Packet)
  | pop (now : Nat)
  | drain (now : Nat)

namespace Event

/-- The time of an event. A packet is pushed at the moment when it arrives. -/
def now : Event → Nat
  | push p => p.receivedAt
  | pop now | drain now => now

/-- The packet that an event puts into the queue. -/
def pushed : Event → List Packet
  | push p => [p]
  | pop _ | drain _ => []

end Event

/-- The queue after an event. -/
def step (q : Inbox) : Event → Inbox
  | .push p => q.push p
  | .pop now => (q.pop now).1
  | .drain now => (q.drain now).1

/-- What an event delivers. -/
def handed (q : Inbox) : Event → List Packet
  | .push _ => []
  | .pop now => (q.pop now).2.toList
  | .drain now => (q.drain now).2

/-- The queue after a run. -/
def run (es : List Event) : Inbox := es.foldl step empty

/-- All that a run pushes. -/
def pushed (es : List Event) : List Packet := es.flatMap Event.pushed

/-- All that a run delivers, when it starts from a queue. -/
def deliveredFrom (q : Inbox) : List Event → List Packet
  | [] => []
  | e :: es => q.handed e ++ (q.step e).deliveredFrom es

/-- All that a run delivers. -/
def delivered (es : List Event) : List Packet := empty.deliveredFrom es

theorem run_concat (es : List Event) (e : Event) : run (es ++ [e]) = (run es).step e :=
  List.foldl_append

theorem deliveredFrom_append (q : Inbox) (es fs : List Event) :
    q.deliveredFrom (es ++ fs) = q.deliveredFrom es ++ (es.foldl step q).deliveredFrom fs := by
  induction es generalizing q with
  | nil => rfl
  | cons e es ih =>
    rw [List.cons_append, deliveredFrom, deliveredFrom, ih, List.append_assoc]
    rfl

theorem delivered_concat (es : List Event) (e : Event) :
    delivered (es ++ [e]) = delivered es ++ (run es).handed e := by
  rw [delivered, deliveredFrom_append, deliveredFrom, deliveredFrom, List.append_nil]
  rfl

/-! ### How packets leave -/

/-- What becomes of a packet that has left the queue. -/
inductive Exit where
  | delivered
  | stale
  | evicted
  deriving DecidableEq

/-- The packets that went the given way. -/
def wentBy (x : Exit) (gone : List (Packet × Exit)) : List Packet :=
  (gone.filter (·.2 = x)).map Prod.fst

theorem wentBy_append (x : Exit) (gone more : List (Packet × Exit)) :
    wentBy x (gone ++ more) = wentBy x gone ++ wentBy x more := by
  rw [wentBy, List.filter_append, List.map_append]
  rfl

theorem wentBy_cons (x : Exit) (p : Packet) (y : Exit) (gone : List (Packet × Exit)) :
    wentBy x ((p, y) :: gone) = if y = x then p :: wentBy x gone else wentBy x gone := by
  by_cases h : y = x <;> simp [wentBy, h]

theorem wentBy_sublist (x : Exit) (gone : List (Packet × Exit)) :
    (wentBy x gone).Sublist (gone.map Prod.fst) := List.filter_sublist.map _

/-- Every packet that has left went one of the three ways. -/
theorem length_gone (gone : List (Packet × Exit)) : gone.length =
    (wentBy .delivered gone).length + (wentBy .stale gone).length +
      (wentBy .evicted gone).length := by
  induction gone with
  | nil => rfl
  | cons g gone ih =>
    obtain ⟨p, x⟩ := g
    cases x <;> simp [wentBy_cons, ih] <;> omega

/-- From `q` to `r` the packets `gone` have left the front of the queue at the given time, those
found stale were so, those delivered were not, and the counters have counted them. -/
structure Parts (now : Nat) (q r : Inbox) (gone : List (Packet × Exit)) : Prop where
  packets : q.packets = gone.map Prod.fst ++ r.packets
  droppedStale : r.droppedStale = q.droppedStale + (wentBy .stale gone).length
  droppedOverflow : r.droppedOverflow = q.droppedOverflow + (wentBy .evicted gone).length
  queued : r.queued = q.queued
  stale : ∀ p ∈ wentBy .stale gone, isStale now p = true
  fresh : ∀ p ∈ wentBy .delivered gone, isStale now p = false

theorem Parts.refl (now : Nat) (q : Inbox) : Parts now q q [] :=
  ⟨rfl, rfl, rfl, rfl, List.forall_mem_nil _, List.forall_mem_nil _⟩

theorem Parts.trans {now : Nat} {q r s : Inbox} {gone more : List (Packet × Exit)}
    (h : Parts now q r gone) (h' : Parts now r s more) : Parts now q s (gone ++ more) := by
  refine ⟨?_, ?_, ?_, h'.queued.trans h.queued, ?_, ?_⟩
  · rw [h.packets, h'.packets, List.map_append, List.append_assoc]
  · rw [h'.droppedStale, h.droppedStale, wentBy_append, List.length_append, Nat.add_assoc]
  · rw [h'.droppedOverflow, h.droppedOverflow, wentBy_append, List.length_append, Nat.add_assoc]
  · rw [wentBy_append]
    exact List.forall_mem_append.2 ⟨h.stale, h'.stale⟩
  · rw [wentBy_append]
    exact List.forall_mem_append.2 ⟨h.fresh, h'.fresh⟩

/-- Packets that all go the same way. -/
def allBy (x : Exit) (ps : List Packet) : List (Packet × Exit) := ps.map (·, x)

@[simp] theorem map_fst_allBy (x : Exit) (ps : List Packet) : (allBy x ps).map Prod.fst = ps := by
  rw [allBy, List.map_map]
  exact List.map_id ps

theorem wentBy_allBy (x y : Exit) (ps : List Packet) :
    wentBy x (allBy y ps) = if y = x then ps else [] := by
  induction ps with
  | nil => split <;> rfl
  | cons p ps ih =>
    rw [allBy, List.map_cons, wentBy_cons, ← allBy, ih]
    split <;> rfl

/-- The stale packets in front are found stale, and nothing else leaves. -/
theorem dropStale_parts (q : Inbox) (now : Nat) :
    Parts now q (q.dropStale now) (allBy .stale (q.packets.takeWhile (isStale now))) := by
  refine ⟨?_, ?_, ?_, rfl, ?_, ?_⟩
  · rw [map_fst_allBy]
    exact List.takeWhile_append_dropWhile.symm
  · rw [wentBy_allBy, if_pos rfl]
    rfl
  · rw [wentBy_allBy, if_neg (by decide)]
    rfl
  · rw [wentBy_allBy, if_pos rfl]
    exact List.all_eq_true.1 List.all_takeWhile
  · rw [wentBy_allBy, if_neg (by decide)]
    exact List.forall_mem_nil _

/-- The oldest packet of a full queue is evicted, and none of any other. -/
theorem makeRoom_parts (q : Inbox) (now : Nat) : ∃ gone,
    Parts now q q.makeRoom (allBy .evicted gone) ∧
      gone.length = if capacity ≤ q.packets.length then 1 else 0 := by
  unfold makeRoom
  by_cases full : capacity ≤ q.packets.length
  · rw [if_pos full, if_pos full]
    cases hq : q.packets with
    | nil =>
      rw [hq] at full
      exact absurd full (by decide)
    | cons p rest =>
      exact ⟨[p], ⟨hq, rfl, rfl, rfl, List.forall_mem_nil _, List.forall_mem_nil _⟩, rfl⟩
  · rw [if_neg full, if_neg full]
    exact ⟨[], .refl now q, rfl⟩

/-- Either the stale packets are all that there was, or the one behind them is taken. -/
theorem pop_cases (q : Inbox) (now : Nat) :
    (q.dropStale now).packets = [] ∧ q.pop now = (q.dropStale now, none) ∨
      ∃ p rest, (q.dropStale now).packets = p :: rest ∧ isStale now p = false ∧
        q.pop now = ({ q.dropStale now with packets := rest }, some p) := by
  unfold pop
  cases h : (q.dropStale now).packets with
  | nil => exact .inl ⟨rfl, by simp only [h]⟩
  | cons p rest =>
    have front := List.head?_dropWhile_not (isStale now) q.packets
    rw [show (q.packets.dropWhile (isStale now)) = p :: rest from h] at front
    exact .inr ⟨p, rest, rfl, front, by simp only [h]⟩

/-- The way on which a packet leaves when the queue is drained. -/
def sortedOut (now : Nat) (ps : List Packet) : List (Packet × Exit) :=
  ps.map fun p => (p, if isStale now p then .stale else .delivered)

theorem wentBy_sortedOut (now : Nat) (ps : List Packet) :
    wentBy .stale (sortedOut now ps) = ps.filter (isStale now) ∧
      wentBy .delivered (sortedOut now ps) = (ps.filter fun p => !isStale now p) ∧
      wentBy .evicted (sortedOut now ps) = [] := by
  induction ps with
  | nil => exact ⟨rfl, rfl, rfl⟩
  | cons p ps ih =>
    unfold sortedOut at ih
    cases h : isStale now p <;> simp [sortedOut, wentBy_cons, h, ih]

theorem drain_parts (q : Inbox) (now : Nat) :
    Parts now q (q.drain now).1 (sortedOut now q.packets) := by
  obtain ⟨stale, delivered, evicted⟩ := wentBy_sortedOut now q.packets
  refine ⟨?_, ?_, ?_, rfl, ?_, ?_⟩
  · rw [sortedOut, List.map_map]
    exact ((List.append_nil _).trans (List.map_id _)).symm
  · rw [stale, ← List.countP_eq_length_filter]
    rfl
  · rw [evicted]
    rfl
  · rw [stale]
    exact fun p hp => (List.mem_filter.1 hp).2
  · rw [delivered]
    intro p hp
    simpa using (List.mem_filter.1 hp).2

/-! ### What an event does -/

/-- Whether a packet that is pushed finds the queue full once the stale ones in front are gone. -/
def findsFull (q : Inbox) : Event → Prop
  | .push p => capacity ≤ (q.dropStale p.receivedAt).packets.length
  | .pop _ | .drain _ => False

/-- On an event the packets `gone` leave the queue, and what the event pushes stands behind those
that stay. -/
structure Settles (q : Inbox) (e : Event) (gone : List (Packet × Exit)) : Prop where
  parts : ∃ r, Parts e.now q r gone ∧ q.step e =
    { r with packets := r.packets ++ e.pushed, queued := r.queued + e.pushed.length }
  handed : q.handed e = wentBy .delivered gone
  evicted : (wentBy .evicted gone).length ≤ 1 ∧ (wentBy .evicted gone ≠ [] ↔ q.findsFull e)

theorem push_settles (q : Inbox) (p : Packet) : ∃ gone, Settles q (.push p) gone := by
  obtain ⟨old, room, one⟩ := makeRoom_parts (q.dropStale p.receivedAt) p.receivedAt
  have parts := (q.dropStale_parts p.receivedAt).trans room
  refine ⟨_, ⟨_, parts, rfl⟩, ?_, ?_⟩
  · rw [wentBy_append, wentBy_allBy, wentBy_allBy]
    rfl
  · rw [wentBy_append, wentBy_allBy, wentBy_allBy, if_neg (by decide), if_pos rfl, List.nil_append,
      ← List.length_pos_iff, one]
    show _ ∧ (_ ↔ capacity ≤ (q.dropStale p.receivedAt).packets.length)
    split <;> rename_i full <;> simp [full]

theorem pop_settles (q : Inbox) (now : Nat) : ∃ gone, Settles q (.pop now) gone := by
  have dropped := q.dropStale_parts now
  have quiet (x : Exit) (hx : .stale ≠ x) :
      wentBy x (allBy .stale (q.packets.takeWhile (isStale now))) = [] := by
    rw [wentBy_allBy, if_neg hx]
  rcases q.pop_cases now with ⟨-, h⟩ | ⟨p, rest, hpackets, hfresh, h⟩
  · refine ⟨_, ⟨_, dropped, ?_⟩, ?_, ?_⟩
    · show (q.pop now).1 = _
      rw [h]
      simp [Event.pushed]
    · show (q.pop now).2.toList = _
      rw [h, quiet .delivered (by decide)]
      rfl
    · rw [quiet .evicted (by decide)]
      exact ⟨Nat.zero_le _, iff_of_false (by simp) id⟩
  · have taken : Parts now (q.dropStale now) { q.dropStale now with packets := rest }
        [(p, .delivered)] :=
      ⟨hpackets, rfl, rfl, rfl, List.forall_mem_nil _, List.forall_mem_singleton.2 hfresh⟩
    refine ⟨_, ⟨_, dropped.trans taken, ?_⟩, ?_, ?_⟩
    · show (q.pop now).1 = _
      rw [h]
      simp [Event.pushed]
    · show (q.pop now).2.toList = _
      rw [h, wentBy_append, quiet .delivered (by decide)]
      rfl
    · rw [wentBy_append, quiet .evicted (by decide)]
      exact ⟨Nat.zero_le _, iff_of_false (by simp [wentBy]) id⟩

theorem drain_settles (q : Inbox) (now : Nat) : ∃ gone, Settles q (.drain now) gone := by
  obtain ⟨-, delivered, evicted⟩ := wentBy_sortedOut now q.packets
  refine ⟨_, ⟨_, q.drain_parts now, rfl⟩, delivered.symm, ?_⟩
  rw [evicted]
  exact ⟨Nat.zero_le _, iff_of_false (by simp) id⟩

theorem step_settles (q : Inbox) (e : Event) : ∃ gone, Settles q e gone := by
  cases e with
  | push p => exact q.push_settles p
  | pop now => exact q.pop_settles now
  | drain now => exact q.drain_settles now

/-- The counter of evicted packets moves just when a packet finds the queue full. -/
theorem Settles.droppedOverflow {q : Inbox} {e : Event} {gone : List (Packet × Exit)}
    (h : Settles q e gone) : (q.findsFull e → (q.step e).droppedOverflow = q.droppedOverflow + 1) ∧
      (¬q.findsFull e → (q.step e).droppedOverflow = q.droppedOverflow) := by
  obtain ⟨r, parts, hstep⟩ := h.parts
  obtain ⟨few, iff⟩ := h.evicted
  have counted : (q.step e).droppedOverflow =
      q.droppedOverflow + (wentBy .evicted gone).length := by
    rw [hstep]
    exact parts.droppedOverflow
  rw [counted]
  constructor
  · intro full
    have some := List.length_pos_iff.2 (iff.2 full)
    omega
  · intro room
    have none : wentBy .evicted gone = [] := by
      by_contra some
      exact room (iff.1 some)
    rw [none]
    rfl

/-! ### Runs -/

/-- The accounts of a run: `gone` is what has left the queue, in its order. -/
structure Accounts (es : List Event) (gone : List (Packet × Exit)) : Prop where
  /-- What has left and what still waits is what was pushed. -/
  pushed : pushed es = gone.map Prod.fst ++ (run es).packets
  queued : (run es).queued = (Inbox.pushed es).length
  delivered : wentBy .delivered gone = delivered es
  droppedStale : (wentBy .stale gone).length = (run es).droppedStale
  droppedOverflow : (wentBy .evicted gone).length = (run es).droppedOverflow
  /-- What is counted as stale was so when an operation found it. -/
  stale : ∀ p ∈ wentBy .stale gone, ∃ e ∈ es, staleAfter < e.now - p.receivedAt

theorem Accounts.concat {es : List Event} {e : Event} {gone more : List (Packet × Exit)}
    (h : Accounts es gone) (settles : Settles (run es) e more) :
    Accounts (es ++ [e]) (gone ++ more) := by
  obtain ⟨r, parts, hstep⟩ := settles.parts
  have hpushed : Inbox.pushed (es ++ [e]) = Inbox.pushed es ++ e.pushed := by
    rw [Inbox.pushed, List.flatMap_append, List.flatMap_singleton]
    rfl
  refine ⟨?_, ?_, ?_, ?_, ?_, ?_⟩
  · rw [run_concat, hstep, hpushed, h.pushed, parts.packets]
    simp
  · rw [run_concat, hstep, hpushed, List.length_append, ← h.queued, ← parts.queued]
  · rw [wentBy_append, h.delivered, delivered_concat, settles.handed]
  · rw [run_concat, hstep, wentBy_append, List.length_append, h.droppedStale]
    exact parts.droppedStale.symm
  · rw [run_concat, hstep, wentBy_append, List.length_append, h.droppedOverflow]
    exact parts.droppedOverflow.symm
  · rw [wentBy_append]
    refine List.forall_mem_append.2 ⟨fun p hp => ?_, fun p hp => ⟨e, by simp, ?_⟩⟩
    · obtain ⟨e', he', old⟩ := h.stale p hp
      exact ⟨e', List.mem_append_left _ he', old⟩
    · exact of_decide_eq_true (parts.stale p hp)

/-- Every run has its accounts. -/
theorem run_accounts (es : List Event) : ∃ gone, Accounts es gone := by
  induction es using List.reverseRecOn with
  | nil => exact ⟨[], rfl, rfl, rfl, rfl, rfl, List.forall_mem_nil _⟩
  | append_singleton es e ih =>
    obtain ⟨gone, accounts⟩ := ih
    obtain ⟨more, settles⟩ := (run es).step_settles e
    exact ⟨gone ++ more, accounts.concat settles⟩

theorem length_makeRoom {q : Inbox} (h : q.packets.length ≤ capacity) :
    q.makeRoom.packets.length < capacity := by
  have room : 0 < capacity := by decide
  unfold makeRoom
  split
  · rw [List.length_drop]
    omega
  · omega

/-- No event takes the queue beyond its capacity. -/
theorem step_bounded {q : Inbox} (h : q.packets.length ≤ capacity) (e : Event) :
    (q.step e).packets.length ≤ capacity := by
  by_cases hpush : ∃ p, e = .push p
  · obtain ⟨p, rfl⟩ := hpush
    have dropped : (q.dropStale p.receivedAt).packets.length ≤ capacity :=
      Nat.le_trans (List.dropWhile_sublist _).length_le h
    show ((q.dropStale p.receivedAt).makeRoom.packets ++ [p]).length ≤ capacity
    rw [List.length_append]
    exact length_makeRoom dropped
  · obtain ⟨gone, settles⟩ := q.step_settles e
    obtain ⟨r, parts, hstep⟩ := settles.parts
    have none : e.pushed = [] := by
      cases e with
      | push p => exact absurd ⟨p, rfl⟩ hpush
      | pop | drain => rfl
    rw [hstep, none, List.append_nil]
    have whole := congrArg List.length parts.packets
    rw [List.length_append] at whole
    show r.packets.length ≤ capacity
    omega

theorem run_bounded (es : List Event) : (run es).packets.length ≤ capacity := by
  induction es using List.reverseRecOn with
  | nil => exact Nat.zero_le _
  | append_singleton es e ih =>
    rw [run_concat]
    exact step_bounded ih e

/-- What can be said of the packets of a run. -/
structure Accounted (es : List Event) : Prop where
  /-- What is delivered was pushed, each packet once and in this order. -/
  inOrder : (delivered es).Sublist (pushed es)
  /-- Each packet that was pushed waits, or has left in one of the three ways. -/
  accounts : ∃ gone, Accounts es gone
  balance : (run es).queued = (delivered es).length + (run es).droppedStale +
    (run es).droppedOverflow + (run es).packets.length
  bounded : (run es).packets.length ≤ capacity
  /-- A packet is evicted just when the next one finds the queue full. -/
  evicts : ∀ e, ((run es).findsFull e →
      (run (es ++ [e])).droppedOverflow = (run es).droppedOverflow + 1) ∧
    (¬(run es).findsFull e → (run (es ++ [e])).droppedOverflow = (run es).droppedOverflow)
  /-- What an operation delivers is not too old at that time. -/
  fresh : ∀ e, ∀ p ∈ (run es).handed e, e.now - p.receivedAt ≤ staleAfter

/-- **The queue loses nothing silently**, in whatever order it is used and whatever the times. -/
theorem run_accounted (es : List Event) : Accounted es := by
  obtain ⟨gone, accounts⟩ := run_accounts es
  refine ⟨?_, ⟨gone, accounts⟩, ?_, run_bounded es, fun e => ?_, fun e p hp => ?_⟩
  · rw [← accounts.delivered, accounts.pushed]
    exact (wentBy_sublist ..).trans (List.sublist_append_left ..)
  · rw [accounts.queued, accounts.pushed, List.length_append, List.length_map, length_gone,
      accounts.delivered, accounts.droppedStale, accounts.droppedOverflow]
  · obtain ⟨more, settles⟩ := (run es).step_settles e
    rw [run_concat]
    exact settles.droppedOverflow
  · obtain ⟨more, settles⟩ := (run es).step_settles e
    obtain ⟨r, parts, -⟩ := settles.parts
    rw [settles.handed] at hp
    exact Nat.le_of_not_lt (of_decide_eq_false (parts.fresh p hp))

/-- Time may run back: the packet that arrives last is the older one when the queue is drained. -/
example :
    let early : Packet := ⟨.filled 1, [1], 5000⟩
    let late : Packet := ⟨.filled 1, [2], 20000⟩
    let es : List Event := [.push ⟨.filled 1, [0], 0⟩, .push late, .push early, .drain 16000]
    delivered es = [late] ∧ run es = ⟨[], 3, 2, 0⟩ := by decide

/-! ### Draining -/

section Draining
variable {q : Inbox} {now : Nat} {p : Packet} {rest : List Packet}

/-- A stale packet in front is counted, and the search goes on behind it. -/
theorem pop_stale (front : q.packets = p :: rest) (h : isStale now p = true) :
    q.pop now = { q with packets := rest, droppedStale := q.droppedStale + 1 }.pop now := by
  have dropped : q.dropStale now =
      { q with packets := rest, droppedStale := q.droppedStale + 1 }.dropStale now := by
    simp only [dropStale, front, List.dropWhile_cons_of_pos h, List.takeWhile_cons_of_pos h,
      List.length_cons, Nat.add_assoc, Nat.add_comm 1]
  rw [pop, dropped, pop]

/-- A packet in front that is not stale is taken. -/
theorem pop_fresh (front : q.packets = p :: rest) (h : isStale now p = false) :
    q.pop now = ({ q with packets := rest }, some p) := by
  have kept : q.dropStale now = q := by
    rw [← Bool.not_eq_true] at h
    simp only [dropStale, front, List.dropWhile_cons_of_neg h, List.takeWhile_cons_of_neg h,
      List.length_nil, Nat.add_zero]
    rw [← front]
  simp only [pop, kept, front]

theorem drain_stale (front : q.packets = p :: rest) (h : isStale now p = true) :
    q.drain now = { q with packets := rest, droppedStale := q.droppedStale + 1 }.drain now := by
  simp only [drain, front, List.countP_cons_of_pos h, List.filter_cons, h, Bool.not_true,
    Bool.false_eq_true, if_false, Nat.add_assoc, Nat.add_comm 1]

theorem drain_fresh (front : q.packets = p :: rest) (h : isStale now p = false) :
    q.drain now = (({ q with packets := rest }.drain now).1,
      p :: ({ q with packets := rest }.drain now).2) := by
  simp [drain, front, h]

end Draining

/-- Each packet that is taken leaves fewer. -/
theorem length_pop_lt {q r : Inbox} {now : Nat} {p : Packet} (h : q.pop now = (r, some p)) :
    r.packets.length < q.packets.length := by
  have dropped : (q.dropStale now).packets.length ≤ q.packets.length :=
    (List.dropWhile_sublist _).length_le
  rcases q.pop_cases now with ⟨-, none⟩ | ⟨p', rest, packets, -, taken⟩
  · simp [none] at h
  · rw [taken, Prod.mk.injEq] at h
    rw [← h.1]
    rw [packets, List.length_cons] at dropped
    exact dropped

/-- Takes packets one after the other until there is none to take. -/
def popAll (q : Inbox) (now : Nat) : Inbox × List Packet :=
  match h : q.pop now with
  | (r, none) => (r, [])
  | (r, some p) =>
    have := length_pop_lt h
    let (last, ps) := r.popAll now
    (last, p :: ps)
termination_by q.packets.length

theorem popAll_of_none {q r : Inbox} {now : Nat} (h : q.pop now = (r, none)) :
    q.popAll now = (r, []) := by
  rw [popAll]
  split
  · rename_i h'
    rw [h, Prod.mk.injEq] at h'
    rw [h'.1]
  · rename_i h'
    simp [h] at h'

theorem popAll_of_some {q r : Inbox} {now : Nat} {p : Packet} (h : q.pop now = (r, some p)) :
    q.popAll now = ((r.popAll now).1, p :: (r.popAll now).2) := by
  rw [popAll]
  split
  · rename_i h'
    simp [h] at h'
  · rename_i h'
    rw [h, Prod.mk.injEq, Option.some.injEq] at h'
    rw [h'.1, h'.2]

/-- What popping leads to depends on the next packet that is taken. -/
theorem popAll_congr {q q' : Inbox} {now : Nat} (h : q.pop now = q'.pop now) :
    q.popAll now = q'.popAll now := by
  cases taken : q'.pop now with
  | mk r next =>
    rw [taken] at h
    cases next with
    | none => rw [popAll_of_none h, popAll_of_none taken]
    | some p => rw [popAll_of_some h, popAll_of_some taken]

/-- **Draining is popping until there is nothing left**, whatever waits and however the stale packets
lie between the others: the same packets in the same order, the same counts, and an empty queue. -/
theorem popAll_eq_drain (q : Inbox) (now : Nat) :
    q.popAll now = q.drain now ∧ (q.popAll now).1.packets = [] := by
  suffices same : q.popAll now = q.drain now from ⟨same, by rw [same]; rfl⟩
  generalize waiting : q.packets = ps
  induction ps generalizing q with
  | nil =>
    have none : q.pop now = (q, none) := by
      cases q
      subst waiting
      rfl
    rw [popAll_of_none none]
    cases q
    subst waiting
    rfl
  | cons p rest ih =>
    cases h : isStale now p with
    | true =>
      rw [drain_stale waiting h, popAll_congr (pop_stale waiting h)]
      exact ih _ rfl
    | false =>
      rw [drain_fresh waiting h, popAll_of_some (pop_fresh waiting h), ih _ rfl]

end Parley.Inbox

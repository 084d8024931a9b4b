import Parley.Proofs.Link.Keepalive
import Mathlib.Data.List.Infix
/-!
When a path is lost.

A request is answered by a response that carries its number, and it is missed when a tick finds it
five seconds old before that (`Request.fate`). By that rule three requests in a row that are missed
lose the path. The bookkeeping counts otherwise in one point: any response at all ends the row, also
one that nobody waits for. So a run is read as a chronicle, in which such stray responses stand
between the fates of the requests, and the path is lost exactly when three misses follow one another
there (`loss_judged`). No run loses its path without three missed requests in a row, and where there
are no stray responses the rule is met; but a stray response holds off the loss of a dead path
(`stray_defers_loss`).
-/
namespace Parley.Keepalive

/-- What happens to the bookkeeping of a path. -/
inductive Event where
  | tick (now : Nat)
  | response (sequence : UInt32) (now : Nat)

/-- When an event happens. -/
def Event.now : Event → Nat
  | tick now | response _ now => now

/-- A tick counts a request that has run out of time, and then sends the next one when it is due. -/
def step (k : Keepalive) : Event → Keepalive
  | .tick now => ((k.checkTimeout now).1.poll now).1
  | .response sequence now => k.recordResponse sequence now

/-- The bookkeeping after a run. -/
def run (k : Keepalive) (es : List Event) : Keepalive := es.foldl step k

/-! ### Requests and what becomes of them -/

/-- The number of the request that is due, as its datagram carries it. -/
def polled (k : Keepalive) (now : Nat) : Option UInt32 :=
  (k.poll now).2.bind fun (_, datagram) => (decode? datagram).map Prod.snd

/-- The number of the request that an event sends. -/
def asks (k : Keepalive) : Event → Option UInt32
  | .tick now => (k.checkTimeout now).1.polled now
  | .response _ _ => none

/-- A request that a run sends, with all that happens after it. -/
structure Request where
  number : UInt32
  sent : Nat
  after : List Event

/-- The requests of a run, in the order in which they are sent. -/
def requests (k : Keepalive) : List Event → List Request
  | [] => []
  | e :: es => (k.asks e).toList.map (⟨·, e.now, es⟩) ++ (k.step e).requests es

/-- What may become of a request. -/
inductive Fate where
  | answered
  | missed
  deriving DecidableEq

/-- What becomes of a request that was sent with the given number at the given time. -/
def fateIn (number : UInt32) (sent : Nat) : List Event → Option Fate
  | [] => none
  | .tick now :: es => if timeout ≤ now - sent then some .missed else fateIn number sent es
  | .response sequence _ :: es =>
    if sequence = number then some .answered else fateIn number sent es

/-- What becomes of a request: a response with its number answers it, unless a tick finds it too old
before that. -/
def Request.fate (r : Request) : Option Fate := fateIn r.number r.sent r.after

/-- As many requests in a row are missed as lose a path by the rule. -/
def MissedInARow (k : Keepalive) (es : List Event) : Prop :=
  List.replicate threshold (some .missed) <:+: (k.requests es).map Request.fate

instance (k : Keepalive) (es : List Event) : Decidable (k.MissedInARow es) :=
  inferInstanceAs (Decidable (_ <:+: _))

/-! ### Chronicles -/

/-- What an event tells of a path. -/
inductive Mark where
  /-- The request that was waiting has found its fate. -/
  | settled (fate : Fate)
  /-- A response has come for which no request was waiting. -/
  | stray
  deriving DecidableEq

/-- The fate of which a mark tells. -/
def Mark.fate? : Mark → Option Fate
  | settled fate => some fate
  | stray => none

/-- What an event tells of the path. -/
def marks (k : Keepalive) : Event → List Mark
  | .tick now =>
    match k.outstanding with
    | some (_, sent) => if timeout ≤ now - sent then [.settled .missed] else []
    | none => []
  | .response sequence _ =>
    match k.outstanding with
    | some (expected, _) => if expected = sequence then [.settled .answered] else [.stray]
    | none => [.stray]

/-- What a run tells of the path. -/
def chronicle (k : Keepalive) : List Event → List Mark
  | [] => []
  | e :: es => k.marks e ++ (k.step e).chronicle es

/-! ### One event -/

/-- The bookkeeping after the next request has been sent. -/
def asked (k : Keepalive) (now : Nat) : Keepalive :=
  { k with
    nextSequence := k.nextSequence + 1
    lastSent := now
    outstanding := some (k.nextSequence, now) }

/-- The bookkeeping after a request has been missed. -/
def missedOne (k : Keepalive) : Keepalive :=
  { k with
    outstanding := none
    missed := k.missed + 1
    lost := decide (threshold ≤ k.missed + 1) }

/-- A poll sends nothing, or the next request of a path that is not lost. -/
inductive Polls (k : Keepalive) (now : Nat) : Keepalive → Option UInt32 → Prop where
  | quiet : Polls k now k none
  | sends (alive : k.lost = false) : Polls k now (k.asked now) (some k.nextSequence)

theorem poll_polls (k : Keepalive) (now : Nat) : k.Polls now (k.poll now).1 (k.polled now) := by
  unfold polled poll
  split
  · exact .quiet
  · rename_i h
    have alive : k.lost = false := by simpa using fun lost => h (.inl lost)
    have number : (decode? (request k.nextSequence)).map Prod.snd = some k.nextSequence := by
      rw [decode?_request]
      rfl
    show k.Polls now (k.asked now) ((decode? (request k.nextSequence)).map Prod.snd)
    rw [number]
    exact .sends alive

/-- A request that waits is the one that was sent last, and the path is not lost. -/
def Tidy (k : Keepalive) : Prop :=
  ∀ number sent, k.outstanding = some (number, sent) → sent = k.lastSent ∧ k.lost = false

/-- What a tick does: it leaves a request that has time, counts one that has none, and polls when
nothing waits. -/
inductive Ticks (k : Keepalive) (now : Nat) : Prop where
  | waits {number : UInt32} {sent : Nat} (waiting : k.outstanding = some (number, sent))
      (young : ¬timeout ≤ now - sent) (step : k.step (.tick now) = k)
      (asks : k.asks (.tick now) = none)
  | misses {number : UInt32} {sent : Nat} (waiting : k.outstanding = some (number, sent))
      (old : timeout ≤ now - sent)
      (polls : k.missedOne.Polls now (k.step (.tick now)) (k.asks (.tick now)))
  | rests (idle : k.outstanding = none)
      (polls : k.Polls now (k.step (.tick now)) (k.asks (.tick now)))

theorem tick_cases {k : Keepalive} (h : k.Tidy) (now : Nat) : k.Ticks now := by
  have polls : (k.checkTimeout now).1.Polls now (k.step (.tick now)) (k.asks (.tick now)) :=
    poll_polls ..
  cases hwaiting : k.outstanding with
  | none =>
    have same : (k.checkTimeout now).1 = k := by
      unfold checkTimeout
      rw [hwaiting]
      split <;> rfl
    rw [same] at polls
    exact .rests hwaiting polls
  | some waiting =>
    obtain ⟨number, sent⟩ := waiting
    obtain ⟨last, alive⟩ := h number sent hwaiting
    by_cases old : timeout ≤ now - sent
    · have counted : (k.checkTimeout now).1 = k.missedOne := by
        unfold checkTimeout
        rw [hwaiting, alive]
        simp only [Bool.false_eq_true, if_false, if_neg (Nat.not_lt.2 old)]
        rfl
      rw [counted] at polls
      exact .misses hwaiting old polls
    · have young : now - sent < timeout := Nat.not_le.1 old
      have same : (k.checkTimeout now).1 = k := by
        unfold checkTimeout
        rw [hwaiting, alive]
        simp only [Bool.false_eq_true, if_false, if_pos young]
      -- The next request is due long after this one is too old.
      have early : now - k.lastSent < interval := by
        have apart : timeout ≤ interval := by decide
        rw [← last]
        omega
      have quiet : k.poll now = (k, none) := by
        unfold poll
        rw [if_pos (.inr early)]
      refine .waits hwaiting old ?_ ?_
      · show ((k.checkTimeout now).1.poll now).1 = k
        rw [same, quiet]
      · show (k.checkTimeout now).1.polled now = none
        rw [same, polled, quiet]
        rfl

theorem marks_of_young {k : Keepalive} {number : UInt32} {sent now : Nat}
    (waiting : k.outstanding = some (number, sent)) (young : ¬timeout ≤ now - sent) :
    k.marks (.tick now) = [] := by
  simp only [marks, waiting, if_neg young]

theorem marks_of_old {k : Keepalive} {number : UInt32} {sent now : Nat}
    (waiting : k.outstanding = some (number, sent)) (old : timeout ≤ now - sent) :
    k.marks (.tick now) = [.settled .missed] := by
  simp only [marks, waiting, if_pos old]

theorem marks_of_idle {k : Keepalive} (idle : k.outstanding = none) (now : Nat) :
    k.marks (.tick now) = [] := by
  simp only [marks, idle]

theorem Polls.tidy {k k' : Keepalive} {now : Nat} {number : Option UInt32}
    (h : k.Polls now k' number) (idle : k.outstanding = none) : k'.Tidy := by
  cases h with
  | quiet =>
    intro number sent waiting
    rw [idle] at waiting
    cases waiting
  | sends alive =>
    intro number sent waiting
    cases waiting
    exact ⟨rfl, alive⟩

/-- A response is the one that was waited for, or a stray one. Either ends the row of misses. -/
inductive Hears (k : Keepalive) (sequence : UInt32) (now : Nat) : Prop where
  | answers {sent : Nat} (waiting : k.outstanding = some (sequence, sent))
      (step : k.step (.response sequence now) =
        { k with roundTrip := some (now - sent), outstanding := none, missed := 0 })
      (marks : k.marks (.response sequence now) = [.settled .answered])
  | strays (unasked : ∀ sent, k.outstanding ≠ some (sequence, sent))
      (step : k.step (.response sequence now) = { k with missed := 0 })
      (marks : k.marks (.response sequence now) = [.stray])

theorem response_cases (k : Keepalive) (sequence : UInt32) (now : Nat) :
    k.Hears sequence now := by
  cases hwaiting : k.outstanding with
  | none =>
    refine .strays (by simp [hwaiting]) ?_ ?_
    · show k.recordResponse sequence now = _
      simp only [recordResponse, hwaiting]
    · simp only [marks, hwaiting]
  | some waiting =>
    obtain ⟨expected, sent⟩ := waiting
    by_cases same : expected = sequence
    · subst same
      refine .answers hwaiting ?_ ?_
      · show k.recordResponse expected now = _
        simp only [recordResponse, hwaiting, if_true]
      · simp only [marks, hwaiting, if_true]
    · refine .strays (by simp [hwaiting, same]) ?_ ?_
      · show k.recordResponse sequence now = _
        simp only [recordResponse, hwaiting, if_neg same]
      · simp only [marks, hwaiting, if_neg same]

theorem step_tidy {k : Keepalive} (h : k.Tidy) (e : Event) : (k.step e).Tidy := by
  cases e with
  | tick now =>
    cases tick_cases h now with
    | waits _ _ step =>
      rw [step]
      exact h
    | misses _ _ polls => exact polls.tidy rfl
    | rests idle polls => exact polls.tidy idle
  | response sequence now =>
    cases k.response_cases sequence now with
    | answers _ step =>
      rw [step]
      exact nofun
    | strays _ step =>
      rw [step]
      exact h

/-! ### The fates of the requests -/

/-- The request that is waiting, with what happens from now on. -/
def pending (k : Keepalive) (es : List Event) : List Request :=
  (k.outstanding.map fun (number, sent) => ⟨number, sent, es⟩).toList

theorem pending_of_none {k : Keepalive} (idle : k.outstanding = none) (es : List Event) :
    k.pending es = [] := by
  rw [pending, idle]
  rfl

theorem pending_of_some {k : Keepalive} {number : UInt32} {sent : Nat}
    (waiting : k.outstanding = some (number, sent)) (es : List Event) :
    k.pending es = [⟨number, sent, es⟩] := by
  rw [pending, waiting]
  rfl

/-- A request that waits for another response goes on waiting. -/
theorem pending_of_unasked {k : Keepalive} {sequence : UInt32}
    (unasked : ∀ sent, k.outstanding ≠ some (sequence, sent)) {now : Nat} {es : List Event} :
    (k.pending (.response sequence now :: es)).map Request.fate =
      (k.pending es).map Request.fate := by
  cases hwaiting : k.outstanding with
  | none => rw [pending_of_none hwaiting, pending_of_none hwaiting]
  | some waiting =>
    obtain ⟨number, sent⟩ := waiting
    have other : sequence ≠ number := fun same => unasked sent (same ▸ hwaiting)
    rw [pending_of_some hwaiting, pending_of_some hwaiting]
    exact congrArg (· :: []) (if_neg other)

/-- A poll adds to the requests the one that waits from now on. -/
theorem Polls.pending {k k' : Keepalive} {now : Nat} {number : Option UInt32}
    (h : k.Polls now k' number) (idle : k.outstanding = none) (es : List Event) :
    k'.pending es = number.toList.map (⟨·, now, es⟩) := by
  cases h with
  | quiet => exact pending_of_none idle es
  | sends => rfl

/-- The fates of which a chronicle tells. -/
def fates (marks : List Mark) : List Fate := marks.filterMap Mark.fate?

/-- What a request that is still waiting in the end adds to the fates of a run. -/
def unsettled (k : Keepalive) : List (Option Fate) := (k.outstanding.map fun _ => none).toList

/-- **The chronicle tells the fates of the requests in their order**, that of the waiting one
first. -/
theorem fates_chronicle {k : Keepalive} (h : k.Tidy) (es : List Event) :
    (k.pending es ++ k.requests es).map Request.fate =
      (fates (k.chronicle es)).map some ++ (k.run es).unsettled := by
  induction es generalizing k with
  | nil =>
    show (k.pending [] ++ []).map Request.fate = [] ++ k.unsettled
    rw [List.append_nil, List.nil_append, pending, unsettled]
    cases k.outstanding <;> rfl
  | cons e es ih =>
    have ih := ih (step_tidy h e)
    have requests : k.requests (e :: es) =
      (k.asks e).toList.map (⟨·, e.now, es⟩) ++ (k.step e).requests es := rfl
    have chronicle : k.chronicle (e :: es) = k.marks e ++ (k.step e).chronicle es := rfl
    show _ = _ ++ ((k.step e).run es).unsettled
    rw [requests, chronicle]
    cases e with
    | tick now =>
      cases tick_cases h now with
      | @waits number sent waiting young step asks =>
        have marks := marks_of_young waiting young
        have fate : (Request.mk number sent (.tick now :: es)).fate =
          (Request.mk number sent es).fate := if_neg young
        rw [step, pending_of_some waiting] at ih
        rw [asks, marks, step, pending_of_some waiting, List.nil_append, ← ih]
        exact congrArg (· :: _) fate
      | @misses number sent waiting old polls =>
        have marks := marks_of_old waiting old
        have fate : (Request.mk number sent (.tick now :: es)).fate = some .missed := if_pos old
        rw [polls.pending rfl] at ih
        rw [marks, pending_of_some waiting]
        show Request.fate _ :: _ = some Fate.missed :: _
        rw [fate]
        exact congrArg (some Fate.missed :: ·) ih
      | rests idle polls =>
        have marks := marks_of_idle idle now
        rw [polls.pending idle] at ih
        rw [marks, pending_of_none idle]
        exact ih
    | response sequence now =>
      cases k.response_cases sequence now with
      | @answers sent waiting step marks =>
        have fate : (Request.mk sequence sent (.response sequence now :: es)).fate =
          some .answered := if_pos rfl
        rw [marks, pending_of_some waiting]
        show Request.fate _ :: _ = some Fate.answered :: _
        rw [fate]
        rw [step, pending_of_none rfl] at ih
        rw [step]
        exact congrArg (some Fate.answered :: ·) ih
      | strays unasked step marks =>
        rw [step, List.map_append] at ih
        rw [marks, step, List.map_append, pending_of_unasked unasked]
        exact ih

/-! ### Rows of misses -/

/-- The marks of so many misses that follow one another. -/
def misses (n : Nat) : List Mark := List.replicate n (.settled .missed)

theorem misses_prefix_missed {n : Nat} {marks : List Mark} :
    misses (n + 1) <+: .settled .missed :: marks ↔ misses n <+: marks := by
  rw [misses, List.replicate_succ, List.cons_prefix_cons]
  exact and_iff_right rfl

theorem misses_not_front {n : Nat} {m : Mark} (other : .settled .missed ≠ m) {marks : List Mark} :
    ¬misses (n + 1) <+: m :: marks := by
  rw [misses, List.replicate_succ, List.cons_prefix_cons]
  exact fun h => other h.1

/-- A row of misses starts with any shorter one. -/
theorem misses_prefix_of_le {m n : Nat} (le : m ≤ n) {marks : List Mark}
    (h : misses n <+: marks) : misses m <+: marks := by
  have shorter : misses m <+: misses n := by
    refine ⟨misses (n - m), ?_⟩
    rw [misses, misses, List.replicate_append_replicate, Nat.add_sub_cancel' le]
    rfl
  exact shorter.trans h

theorem step_lost {k : Keepalive} (h : k.lost = true) (e : Event) : (k.step e).lost = true := by
  cases e with
  | tick now =>
    have counted := congrArg Prod.snd (k.path_checkTimeout now).1
    have polled := congrArg Prod.snd ((k.checkTimeout now).1.path_poll now)
    refine (polled.trans counted).trans ?_
    rw [h, Bool.true_or]
  | response sequence now => exact (congrArg Prod.snd (k.path_recordResponse sequence now)).trans h

theorem run_lost {k : Keepalive} (h : k.lost = true) (es : List Event) :
    (k.run es).lost = true := by
  induction es generalizing k with
  | nil => exact h
  | cons e es ih => exact ih (step_lost h e)

theorem Polls.counts {k k' : Keepalive} {now : Nat} {number : Option UInt32}
    (h : k.Polls now k' number) : k'.missed = k.missed ∧ k'.lost = k.lost := by
  cases h with
  | quiet | sends => exact ⟨rfl, rfl⟩

/-- Whether a chronicle goes on with so many misses that the path is lost, or tells of a whole row
later on. -/
def Loses (missed : Nat) (marks : List Mark) : Prop :=
  misses (threshold - missed) <+: marks ∨ misses threshold <:+: marks

/-- Any other mark than a miss ends the row. -/
theorem loses_other {missed : Nat} (few : missed < threshold) {m : Mark}
    (other : .settled .missed ≠ m) {marks : List Mark} :
    Loses missed (m :: marks) ↔ Loses 0 marks := by
  obtain ⟨n, hn⟩ : ∃ n, threshold - missed = n + 1 := ⟨threshold - missed - 1, by omega⟩
  have whole : ¬misses threshold <+: m :: marks := misses_not_front other
  unfold Loses
  rw [hn, List.infix_cons_iff, or_iff_right (misses_not_front other), or_iff_right whole]
  exact ⟨.inr, fun h => h.elim List.IsPrefix.isInfix id⟩

/-- A miss is one more of the row. -/
theorem loses_missed {missed : Nat} (few : missed + 1 < threshold) {marks : List Mark} :
    Loses missed (.settled .missed :: marks) ↔ Loses (missed + 1) marks := by
  obtain ⟨n, hn⟩ : ∃ n, threshold - missed = n + 1 := ⟨threshold - missed - 1, by omega⟩
  have hn' : threshold - (missed + 1) = n := by omega
  unfold Loses
  rw [hn, hn', misses_prefix_missed, List.infix_cons_iff]
  refine ⟨?_, fun h => h.imp_right .inr⟩
  rintro (h | h | h)
  · exact .inl h
  · -- A whole row that begins with this miss is longer than what the row still needs.
    have rest : misses 2 <+: marks := misses_prefix_missed.1 h
    have le : n ≤ 2 := by
      have : threshold = 3 := rfl
      omega
    exact .inl (misses_prefix_of_le le rest)
  · exact .inr h

/-- The path is lost when the row of misses is full. -/
theorem run_lost_iff {k : Keepalive} (tidy : k.Tidy) (alive : k.lost = false)
    (few : k.missed < threshold) (es : List Event) :
    (k.run es).lost = true ↔ Loses k.missed (k.chronicle es) := by
  induction es generalizing k with
  | nil =>
    show k.lost = true ↔ Loses k.missed []
    unfold Loses misses
    rw [alive, List.prefix_nil, List.infix_nil, List.replicate_eq_nil_iff,
      List.replicate_eq_nil_iff]
    have more : threshold - k.missed ≠ 0 := Nat.sub_ne_zero_of_lt few
    exact iff_of_false Bool.false_ne_true (not_or.2 ⟨more, by decide⟩)
  | cons e es ih =>
    have ih := fun alive few => ih (k := k.step e) (step_tidy tidy e) alive few
    show ((k.step e).run es).lost = true ↔ Loses k.missed (k.marks e ++ (k.step e).chronicle es)
    cases e with
    | tick now =>
      cases tick_cases tidy now with
      | waits waiting young step =>
        have marks := marks_of_young waiting young
        rw [step] at ih
        rw [marks, step]
        exact ih alive few
      | misses waiting old polls =>
        have marks := marks_of_old waiting old
        obtain ⟨missed, lost⟩ := polls.counts
        rw [marks]
        by_cases full : threshold ≤ k.missed + 1
        · refine iff_of_true (run_lost (lost.trans (decide_eq_true full)) es) (.inl ?_)
          have one : threshold - k.missed = 0 + 1 := by omega
          rw [one]
          exact misses_prefix_missed.2 List.nil_prefix
        · rw [missed] at ih
          have more := Nat.not_le.1 full
          exact (ih (lost.trans (decide_eq_false full)) more).trans (loses_missed more).symm
      | rests idle polls =>
        have marks := marks_of_idle idle now
        obtain ⟨missed, lost⟩ := polls.counts
        rw [missed] at ih
        rw [marks]
        exact ih (lost.trans alive) few
    | response sequence now =>
      have heard : (k.step (.response sequence now)).missed = 0 ∧
          (k.step (.response sequence now)).lost = false ∧
          ∃ m, k.marks (.response sequence now) = [m] ∧ .settled .missed ≠ m := by
        cases k.response_cases sequence now with
        | answers _ step marks =>
          rw [step, marks]
          exact ⟨rfl, alive, _, rfl, by decide⟩
        | strays _ step marks =>
          rw [step, marks]
          exact ⟨rfl, alive, _, rfl, by decide⟩
      obtain ⟨missed, alive, m, marks, other⟩ := heard
      rw [missed] at ih
      rw [marks]
      exact (ih alive (by decide)).trans (loses_other few other).symm

/-! ### The rule and the chronicle -/

/-- What a run says of the loss of its path. -/
structure Judged (k : Keepalive) (es : List Event) : Prop where
  /-- The path is lost by three misses among which no response came. -/
  lost : (k.run es).lost = true ↔ misses threshold <:+: k.chronicle es
  /-- Without the stray responses the chronicle is what becomes of the requests. -/
  fates : (k.requests es).filterMap Request.fate = (k.chronicle es).filterMap Mark.fate?
  /-- A path that is lost is lost by the rule. -/
  sound : (k.run es).lost = true → k.MissedInARow es
  /-- Where no response is stray the rule is met. -/
  complete : .stray ∉ k.chronicle es → k.MissedInARow es → (k.run es).lost = true

theorem new_tidy (remote : SocketAddress) (now : Nat) : (new remote now).Tidy := nofun

/-- The fates of the requests, without the one that may be waiting in the end. -/
theorem filterMap_fate (k : Keepalive) (es : List Event) (tidy : k.Tidy)
    (idle : k.outstanding = none) :
    (k.requests es).filterMap Request.fate = (k.chronicle es).filterMap Mark.fate? := by
  have told := congrArg (List.filterMap id) (fates_chronicle tidy es)
  have waiting : (k.run es).unsettled.filterMap id = [] := by
    unfold unsettled
    cases (k.run es).outstanding <;> rfl
  rw [pending_of_none idle, List.nil_append, List.filterMap_append, waiting,
    List.append_nil] at told
  simpa [List.filterMap_map, fates] using told

theorem missedInARow_iff {k : Keepalive} (tidy : k.Tidy) (idle : k.outstanding = none)
    (es : List Event) :
    k.MissedInARow es ↔ List.replicate threshold .missed <:+: fates (k.chronicle es) := by
  have told := fates_chronicle tidy es
  rw [pending_of_none idle, List.nil_append] at told
  unfold MissedInARow
  constructor
  · intro h
    have told := h.filterMap id
    rw [List.filterMap_map] at told
    rw [fates, ← filterMap_fate k es tidy idle]
    exact told
  · intro h
    rw [told]
    have marked := h.map some
    rw [List.map_replicate] at marked
    exact marked.trans (List.prefix_append ..).isInfix

/-- Without stray responses a chronicle is what it tells of the requests. -/
theorem map_fates {marks : List Mark} (tame : .stray ∉ marks) :
    (fates marks).map .settled = marks := by
  induction marks with
  | nil => rfl
  | cons m marks ih =>
    have rest := ih (fun h => tame (List.mem_cons_of_mem _ h))
    cases m with
    | settled fate => exact congrArg (Mark.settled fate :: ·) rest
    | stray => exact absurd List.mem_cons_self tame

/-- **A path is lost exactly by three misses between which nothing was received**, which are three
missed requests in a row; the converse holds where no response is stray. -/
theorem loss_judged (remote : SocketAddress) (start : Nat) (es : List Event) :
    Judged (new remote start) es := by
  have tidy := new_tidy remote start
  have few : (new remote start).missed < threshold := Nat.zero_lt_succ 2
  have lost : ((new remote start).run es).lost = true ↔
      misses threshold <:+: (new remote start).chronicle es := by
    refine (run_lost_iff tidy rfl few es).trans ?_
    exact ⟨fun h => h.elim List.IsPrefix.isInfix id, .inr⟩
  have rule := missedInARow_iff tidy rfl es
  refine ⟨lost, filterMap_fate _ es tidy rfl, fun h => rule.2 ?_, fun tame h => lost.2 ?_⟩
  · exact (lost.1 h).filterMap Mark.fate?
  · have marked := (rule.1 h).map Mark.settled
    rw [map_fates tame, List.map_replicate] at marked
    exact marked

/-- Two requests are missed, then the response to the first of them comes late, and then the third
request is missed as well: no request was answered, and still the path is not lost. -/
theorem stray_defers_loss :
    let k := new (.v4 ⟨0, 0, 0, 0⟩ 0) 0
    let es : List Event := [.tick 15000, .tick 20000, .tick 30000, .tick 35000, .response 1 36000,
      .tick 45000, .tick 50000]
    k.MissedInARow es ∧ (k.run es).lost = false := by
  decide

end Parley.Keepalive

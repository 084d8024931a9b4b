import Parley.Proofs.Session.Sending
/-!
What the server knows of our lobby.

The server goes by the notices that it has received over the connection, and forgets them with the
connection. Nothing but the verbs of the game and `checkGeneration` sends it any (`step_reports`).
So the server never takes a lobby for open that is closed; that it takes an open one for closed ends
when the session looks at the new connection (`Agrees`). `run_survives` says this of every run, and
what a connection carries on which the session has a lobby to tell of: the verbs that came first,
who we are, that the lobby is open, and the verbs that came later.
-/
namespace Parley

/-- Whether a message tells the server who we are, or that our lobby is open or closed. -/
def Message.isNotice (m : Message) : Bool :=
  match m.kind with
  | .serverSetClientId | .startAdvertising | .stopAdvertising => true
  | _ => false

/-- The notices among messages, in order. -/
def notices (ms : List Message) : List Message := ms.filter Message.isNotice

/-- Whether the server takes our lobby for open that has received these messages: what it has
received last of the two kinds decides. -/
def lobbyOpen (ms : List Message) : Bool :=
  ms.foldl (fun isOpen m =>
    match m.kind with
    | .startAdvertising => true
    | .stopAdvertising => false
    | _ => isOpen) false

@[simp] theorem lobbyOpen_notices (ms : List Message) : lobbyOpen (notices ms) = lobbyOpen ms := by
  unfold lobbyOpen notices
  rw [List.foldl_filter]
  refine congrArg (fun f => ms.foldl f false) (funext fun isOpen => funext fun m => ?_)
  unfold Message.isNotice
  cases m.kind <;> rfl

/-- What is routine is no notice. -/
theorem notices_routine {ms : List Message} (h : ∀ m ∈ ms, m.Routine) : notices ms = [] := by
  refine List.filter_eq_nil_iff.2 fun m hm => ?_
  cases h m hm with
  | negotiates negotiates =>
    have negotiation := negotiates.kind
    unfold Message.isNotice
    cases hkind : m.kind <;> simp [hkind, MessageKind.isNegotiation] at negotiation ⊢
  | advertisement | solicits | inquires => exact Bool.false_ne_true

/-! ### Transports -/

namespace Transport

variable {τ : Type} [Transport τ]

/-- How messages reach the server. It has received `received t` over the connection that `t` has, or
has had last, and a message gets there when it is sent while the transport is ready. -/
structure Delivers (received : τ → List Message) : Prop where
  ready : ∀ (t : τ) m, isReady (send t m).1 = isReady t
  connection : ∀ (t : τ) m, generation (send t m).1 = generation t
  arrives : ∀ t m, received (send t m).1 = if isReady t then received t ++ [m] else received t

/-- What becomes of a transport to which messages are handed. -/
theorem Delivers.each {received : τ → List Message} (h : Delivers received) (t : τ)
    (ms : List Message) : isReady (sendEach t ms) = isReady t ∧
      generation (sendEach t ms) = generation t ∧
      received (sendEach t ms) = if isReady t then received t ++ ms else received t := by
  induction ms generalizing t with
  | nil =>
    refine ⟨rfl, rfl, ?_⟩
    rw [List.append_nil, ite_self]
    rfl
  | cons m ms ih =>
    obtain ⟨ready, connection, arrived⟩ := ih (send t m).1
    refine ⟨ready.trans (h.ready t m), connection.trans (h.connection t m), ?_⟩
    show received (sendEach (send t m).1 ms) = _
    rw [arrived, h.ready, h.arrives]
    split
    · rw [List.append_assoc, List.singleton_append]
    · rfl

/-- What may become of the connection without our doing. It may be lost, and there may be a new one,
over which the server has received nothing. -/
inductive Shifts (received : τ → List Message) (t t' : τ) : Prop where
  | keeps (same : generation t' = generation t) (kept : received t' = received t)
      (lost : isReady t' = true → isReady t = true)
  | renews (later : generation t < generation t') (fresh : received t' = [])

end Transport

namespace Session

variable {τ : Type}

/-- The notice that goes with it. -/
def Event.notice? (e : Event τ) : Option Message :=
  e.opens?.map fun isOpen => .toServer (if isOpen then .startAdvertising else .stopAdvertising)

theorem lobbyOpen_notice (ms : List Message) (e : Event τ) :
    lobbyOpen (ms ++ e.notice?.toList) = e.opens?.getD (lobbyOpen ms) := by
  unfold Event.notice?
  rcases e.opens? with _ | _ | _
  · rw [Option.map_none, Option.toList_none, List.append_nil, Option.getD_none]
  · exact List.foldl_append
  · exact List.foldl_append

theorem filterMap_notice?_cons (e : Event τ) (es : List (Event τ)) :
    (e :: es).filterMap Event.notice? = e.notice?.toList ++ es.filterMap Event.notice? := by
  rw [List.filterMap_cons]
  cases e.notice? <;> rfl

/-- No verb says who we are. -/
theorem countP_notices (es : List (Event τ)) :
    (es.filterMap Event.notice?).countP (·.kind = .serverSetClientId) = 0 := by
  refine List.countP_eq_zero.2 fun m hm => ?_
  obtain ⟨e, -, notice⟩ := List.mem_filterMap.1 hm
  obtain ⟨isOpen, -, rfl⟩ := Option.map_eq_some_iff.1 notice
  cases isOpen <;> decide

theorem lobbyOpen_resumption (ms : List Message) (localId : Option PeerId) :
    lobbyOpen (ms ++ resumption localId) = true := by
  unfold resumption
  rw [← List.append_assoc]
  exact List.foldl_append

variable [Transport τ]

/-- The notices of an event. -/
def tells (s : Session τ) : Event τ → List Message
  | .checkGeneration =>
    if Transport.generation s.transport = s.generation ∨ s.hosted.isNone then []
    else resumption s.localId
  | e => e.notice?.toList

/-- Only a look at a new connection tells more than the verbs do. -/
theorem tells_of_settled {s : Session τ} {e : Event τ}
    (settled : e = .checkGeneration → s.generation = Transport.generation s.transport) :
    s.tells e = e.notice?.toList := by
  unfold tells
  split
  · exact if_pos (.inl (settled rfl).symm)
  · rfl

/-- The notices that the server has received over the connection. -/
def heard (received : τ → List Message) (s : Session τ) : List Message :=
  notices (received s.transport)

/-- **Of all that an event sends, the notices are those that it is to tell.** -/
theorem notices_sends {s : Session τ} (distinct : s.pool.Distinct) (grown : s.pool.Grown)
    (e : Event τ) : notices (s.sends e) = s.tells e := by
  cases e using Event.by_lobby with
  | look =>
    simp only [sends, tells]
    split
    · rfl
    · cases s.localId <;> rfl
  | opens | closes => rfl
  | others e looks silent =>
    rw [notices_routine (sends_routine distinct grown looks silent),
      tells_of_settled fun look => absurd look looks, Event.notice?, silent]
    rfl

/-- What an event, other than a change of the transport by itself, tells the server of our lobby. -/
structure Reports (received : τ → List Message) (s : Session τ) (e : Event τ) : Prop where
  isReady : Transport.isReady (s.step e).transport = Transport.isReady s.transport
  generation : Transport.generation (s.step e).transport = Transport.generation s.transport
  heard : heard received (s.step e) =
    if Transport.isReady s.transport then heard received s ++ s.tells e else heard received s
  isAdvertising : (s.step e).isAdvertising = e.opens?.getD s.isAdvertising
  looked : e = .checkGeneration → (s.step e).generation = Transport.generation s.transport
  unlooked : e ≠ .checkGeneration → (s.step e).generation = s.generation

/-- **What every event tells the server.** -/
theorem step_reports {received : τ → List Message} (delivers : Transport.Delivers received)
    {s : Session τ} (distinct : s.pool.Distinct) (grown : s.pool.Grown) {e : Event τ}
    (own : ∀ t, e ≠ .transport t) : s.Reports received e := by
  obtain ⟨ready, connection, arrived⟩ := delivers.each s.transport (s.sends e)
  rw [← s.step_transport own] at ready connection arrived
  have heard : heard received (s.step e) =
      if Transport.isReady s.transport then heard received s ++ s.tells e
      else heard received s := by
    rw [Session.heard, arrived, ← notices_sends distinct grown]
    split
    · exact List.filter_append ..
    · rfl
  obtain ⟨isAdvertising, unlooked⟩ := s.step_lobby own
  refine ⟨ready, connection, heard, isAdvertising, fun look => ?_, unlooked⟩
  subst look
  exact s.checkGeneration_sends.seen

/-! ### Runs -/

/-- All along a run the transport does by itself nothing but lose its connection or get a new
one. -/
def Connects (received : τ → List Message) (s : Session τ) : List (Event τ) → Prop
  | [] => True
  | e :: es => (∀ t, e = .transport t → Transport.Shifts received s.transport t) ∧
    Connects received (s.step e) es

theorem connects_append {received : τ → List Message} {s : Session τ} {es fs : List (Event τ)} :
    Connects received s (es ++ fs) ↔ Connects received s es ∧ Connects received (s.run es) fs := by
  induction es generalizing s with
  | nil => exact (and_iff_right trivial).symm
  | cons e es ih => exact (and_congr_right fun _ => ih).trans and_assoc.symm

/-- How the session and the server agree on our lobby. The server may not know yet of one that is
open, but only while the session has not looked at the connection. -/
structure Agrees (received : τ → List Message) (s : Session τ) : Prop where
  seen : s.generation ≤ Transport.generation s.transport
  sound : Transport.isReady s.transport = true →
    lobbyOpen (heard received s) = true → s.isAdvertising = true
  complete : Transport.isReady s.transport = true →
    s.generation = Transport.generation s.transport →
    s.isAdvertising = true → lobbyOpen (heard received s) = true

/-- What every run keeps. -/
structure Tuned (received : τ → List Message) (s : Session τ) : Prop where
  sound : s.Sound
  grown : s.pool.Grown
  agrees : s.Agrees received

section Run
variable {received : τ → List Message}

theorem Agrees.shift {s : Session τ} (h : s.Agrees received) {t : τ}
    (shifts : Transport.Shifts received s.transport t) :
    (s.step (.transport t)).Agrees received := by
  cases shifts with
  | keeps same kept lost =>
    have heard : heard received (s.step (.transport t)) = heard received s := congrArg notices kept
    refine ⟨same ▸ h.seen, fun ready shown => ?_, fun ready looked hosting => ?_⟩
    · exact h.sound (lost ready) (heard ▸ shown)
    · exact heard ▸ h.complete (lost ready) (looked.trans same) hosting
  | renews later fresh =>
    refine ⟨h.seen.trans later.le, fun _ shown => ?_, fun _ looked => ?_⟩
    · simp [heard, step, fresh, lobbyOpen, notices] at shown
    · exact absurd looked (h.seen.trans_lt later).ne

/-- A look brings the server up to date. -/
theorem Reports.look {s : Session τ} (reports : s.Reports received .checkGeneration)
    (h : s.Agrees received) : (s.step .checkGeneration).Agrees received := by
  have looked := reports.looked rfl
  have hosted : (s.step .checkGeneration).isAdvertising = s.isAdvertising := reports.isAdvertising
  by_cases settled : Transport.generation s.transport = s.generation ∨ s.hosted.isNone
  · have silent : s.tells .checkGeneration = [] := if_pos settled
    have heard := reports.heard
    rw [silent, List.append_nil, ite_self] at heard
    refine ⟨(reports.generation ▸ looked).le, ?_, fun ready _ hosting => ?_⟩
    · rw [reports.isReady, heard, hosted]
      exact h.sound
    · rw [reports.isReady] at ready
      rw [hosted] at hosting
      rw [heard]
      refine h.complete ready (settled.resolve_right fun none => ?_).symm hosting
      simp [Session.isAdvertising, Option.isNone_iff_eq_none.1 none] at hosting
  · have told : s.tells .checkGeneration = resumption s.localId := if_neg settled
    have hosting : s.isAdvertising = true := by
      cases hhosted : s.hosted with
      | none => exact absurd (.inr (by rw [hhosted]; rfl)) settled
      | some ad => simp [Session.isAdvertising, hhosted]
    refine ⟨(reports.generation ▸ looked).le, fun _ _ => hosted.trans hosting, fun ready _ _ => ?_⟩
    rw [reports.isReady] at ready
    rw [reports.heard, if_pos ready, told]
    exact lobbyOpen_resumption ..

/-- A verb tells the server what it makes of the lobby, and anything else leaves both alone. -/
theorem Reports.others {s : Session τ} {e : Event τ} (reports : s.Reports received e)
    (looks : e ≠ .checkGeneration) (h : s.Agrees received) : (s.step e).Agrees received := by
  have unlooked := reports.unlooked looks
  have tells : s.tells e = e.notice?.toList := tells_of_settled fun look => absurd look looks
  have heard (ready : Transport.isReady s.transport = true) :
      lobbyOpen ((s.step e).heard received) = e.opens?.getD (lobbyOpen (s.heard received)) := by
    rw [reports.heard, if_pos ready, tells, lobbyOpen_notice]
  have seen := reports.generation
  have isReady := reports.isReady
  refine ⟨by rw [seen, unlooked]; exact h.seen, fun ready => ?_, fun ready looked => ?_⟩
  all_goals
    rw [isReady] at ready
    rw [heard ready, reports.isAdvertising]
    cases e.opens? with
    | some isOpen => exact id
    | none => ?_
  · exact h.sound ready
  · exact h.complete ready (by rw [← unlooked, looked, seen])

variable (delivers : Transport.Delivers received)
include delivers

theorem step_tuned {s : Session τ} (h : s.Tuned received) {e : Event τ}
    (shifts : ∀ t, e = .transport t → Transport.Shifts received s.transport t) :
    (s.step e).Tuned received := by
  refine ⟨step_sound h.sound e, step_grown h.sound h.grown e, ?_⟩
  by_cases own : ∃ t, e = .transport t
  · obtain ⟨t, rfl⟩ := own
    exact h.agrees.shift (shifts t rfl)
  · have reports := step_reports delivers h.sound.distinct h.grown (not_exists.1 own)
    by_cases looks : e = .checkGeneration
    · subst looks
      exact reports.look h.agrees
    · exact reports.others looks h.agrees

/-- The connection that the session has looked at, and the one that the transport has, are never
earlier ones than before. -/
theorem step_order {s : Session τ} (h : s.Tuned received) {e : Event τ}
    (shifts : ∀ t, e = .transport t → Transport.Shifts received s.transport t) :
    s.generation ≤ (s.step e).generation ∧
      Transport.generation s.transport ≤ Transport.generation (s.step e).transport := by
  by_cases own : ∃ t, e = .transport t
  · obtain ⟨t, rfl⟩ := own
    refine ⟨le_rfl, ?_⟩
    cases shifts t rfl with
    | keeps same => exact same.ge
    | renews later => exact later.le
  · have reports := step_reports delivers h.sound.distinct h.grown (not_exists.1 own)
    refine ⟨?_, reports.generation.ge⟩
    by_cases looks : e = .checkGeneration
    · exact (reports.looked looks).symm ▸ h.agrees.seen
    · exact (reports.unlooked looks).ge

theorem run_tuned {s : Session τ} (h : s.Tuned received) {es : List (Event τ)}
    (connects : Connects received s es) : (s.run es).Tuned received := by
  induction es generalizing s with
  | nil => exact h
  | cons e es ih => exact ih (step_tuned delivers h connects.1) connects.2

theorem run_order {s : Session τ} (h : s.Tuned received) {es : List (Event τ)}
    (connects : Connects received s es) : s.generation ≤ (s.run es).generation ∧
      Transport.generation s.transport ≤ Transport.generation (s.run es).transport := by
  induction es generalizing s with
  | nil => exact ⟨le_rfl, le_rfl⟩
  | cons e es ih =>
    obtain ⟨seen, connection⟩ := step_order delivers h connects.1
    obtain ⟨seen', connection'⟩ := ih (step_tuned delivers h connects.1) connects.2
    exact ⟨seen.trans seen', connection.trans connection'⟩

/-- Once the session has looked at a connection, it need not look again as long as that lasts. -/
theorem run_seen {s : Session τ} (h : s.Tuned received)
    (seen : s.generation = Transport.generation s.transport) {es : List (Event τ)}
    (connects : Connects received s es)
    (same : Transport.generation (s.run es).transport = Transport.generation s.transport) :
    (s.run es).generation = Transport.generation (s.run es).transport := by
  refine (run_tuned delivers h connects).agrees.seen.antisymm ?_
  rw [same, ← seen]
  exact (run_order delivers h connects).1

/-! ### One connection -/

/-- What a step on one connection adds to what the server has received over it, if the session does
not look at the connection for the first time: what the verbs of the game say while the transport is
ready. -/
theorem step_heard {s : Session τ} (h : s.Tuned received) {e : Event τ}
    (shifts : ∀ t, e = .transport t → Transport.Shifts received s.transport t)
    (same : Transport.generation (s.step e).transport = Transport.generation s.transport)
    (settled : e = .checkGeneration → s.generation = Transport.generation s.transport) :
    (Transport.isReady (s.step e).transport = true → Transport.isReady s.transport = true) ∧
      heard received (s.step e) =
        heard received s ++ if Transport.isReady s.transport then e.notice?.toList else [] := by
  by_cases own : ∃ t, e = .transport t
  · obtain ⟨t, rfl⟩ := own
    have silent : (Event.transport t : Event τ).notice?.toList = [] := rfl
    cases shifts t rfl with
    | keeps _ kept lost =>
      refine ⟨lost, ?_⟩
      rw [silent, ite_self, List.append_nil]
      exact congrArg notices kept
    | renews later => exact absurd same later.ne'
  · have reports := step_reports delivers h.sound.distinct h.grown (not_exists.1 own)
    refine ⟨fun ready => reports.isReady ▸ ready, ?_⟩
    rw [reports.heard, tells_of_settled settled]
    split
    · rfl
    · exact (List.append_nil _).symm

/-- So what a run on one connection adds is what the verbs of the game have said, up to the loss of
the connection. -/
theorem run_heard {s : Session τ} (h : s.Tuned received) {es : List (Event τ)}
    (connects : Connects received s es)
    (same : Transport.generation (s.run es).transport = Transport.generation s.transport)
    (settled : .checkGeneration ∈ es → s.generation = Transport.generation s.transport) :
    ∃ said, heard received (s.run es) = heard received s ++ said ∧
      said <+: es.filterMap Event.notice? ∧
      (Transport.isReady s.transport = false → said = []) ∧
      (Transport.isReady (s.run es).transport = true →
        Transport.isReady s.transport = true ∧ said = es.filterMap Event.notice?) := by
  induction es generalizing s with
  | nil =>
    have nothing : heard received s = heard received s ++ [] := (List.append_nil _).symm
    exact ⟨[], nothing, List.prefix_rfl, fun _ => rfl, fun ready => ⟨ready, rfl⟩⟩
  | cons e es ih =>
    have tuned := step_tuned delivers h connects.1
    have first := (step_order delivers h connects.1).2
    have rest := (run_order delivers tuned connects.2).2
    have kept : Transport.generation (s.step e).transport = Transport.generation s.transport :=
      (rest.trans same.le).antisymm first
    obtain ⟨ready, added⟩ := step_heard delivers h connects.1 kept fun look =>
      settled (look ▸ List.mem_cons_self)
    have settles (look : .checkGeneration ∈ es) :
        (s.step e).generation = Transport.generation (s.step e).transport := by
      have seen := settled (List.mem_cons_of_mem e look)
      exact run_seen delivers h seen (show Connects received s [e] from ⟨connects.1, trivial⟩) kept
    obtain ⟨said, total, few, none, all⟩ := ih tuned connects.2 (same.trans kept.symm) settles
    rw [filterMap_notice?_cons]
    cases was : Transport.isReady s.transport with
    | true =>
      rw [was, if_pos rfl] at added
      refine ⟨e.notice?.toList ++ said, ?_, (List.prefix_append_right_inj _).2 few, nofun, ?_⟩
      · rw [run, List.foldl_cons, ← run, total, added, List.append_assoc]
      · exact fun still => ⟨rfl, congrArg (e.notice?.toList ++ ·) (all still).2⟩
    | false =>
      -- The connection is lost, and does not come back.
      have lost : Transport.isReady (s.step e).transport = false := by
        by_contra still
        exact Bool.false_ne_true (was.symm.trans (ready (Bool.eq_true_of_not_eq_false still)))
      rw [was, if_neg Bool.false_ne_true, List.append_nil] at added
      refine ⟨[], ?_, List.nil_prefix, fun _ => rfl, fun still => ?_⟩
      · rw [run, List.foldl_cons, ← run, total, none lost, added]
      · exact absurd ((all still).1.symm.trans lost) nofun

/-- Without a look the session goes by the connection that it has seen before. -/
theorem run_unlooked {s : Session τ} (h : s.Tuned received) {es : List (Event τ)}
    (connects : Connects received s es) (unlooked : .checkGeneration ∉ es) :
    (s.run es).generation = s.generation := by
  induction es generalizing s with
  | nil => rfl
  | cons e es ih =>
    obtain ⟨other, others⟩ := not_or.1 (List.mem_cons.not.1 unlooked)
    refine (ih (step_tuned delivers h connects.1) connects.2 others).trans ?_
    by_cases own : ∃ t, e = .transport t
    · obtain ⟨t, rfl⟩ := own
      rfl
    · have reports := step_reports delivers h.sound.distinct h.grown (not_exists.1 own)
      exact reports.unlooked fun look => other look.symm

end Run

/-- The session has looked at the connection that the transport has after a run: it has begun with
that one, or has called `checkGeneration` since there is that one. -/
def Looked (s : Session τ) (es : List (Event τ)) : Prop :=
  ∃ before after, es = before ++ after ∧
    (before = [] ∨ ∃ front, before = front ++ [.checkGeneration]) ∧
    Transport.generation (s.run es).transport = Transport.generation (s.run before).transport

/-- After `before` the transport gets a new connection, that of `t`. The first look at it comes
after `gap`, and finds it ready, a lobby open, and that we are known as `id`. -/
structure Resumes (s : Session τ) (before : List (Event τ)) (t : τ) (gap : List (Event τ))
    (id : PeerId) : Prop where
  renewed : Transport.generation (s.run before).transport < Transport.generation t
  first : .checkGeneration ∉ gap
  same : Transport.generation (s.run (before ++ .transport t :: gap)).transport =
    Transport.generation t
  ready : Transport.isReady (s.run (before ++ .transport t :: gap)).transport = true
  hosting : (s.run (before ++ .transport t :: gap)).isAdvertising = true
  known : (s.run (before ++ .transport t :: gap)).localId = some id

/-- How advertising survives the loss of connections. -/
structure Survives (received : τ → List Message) (s : Session τ) (es : List (Event τ)) : Prop where
  /-- While the transport is ready, and the session has looked at its connection, the server takes
  our lobby for open exactly when it is. -/
  agrees : Transport.isReady (s.run es).transport = true → s.Looked es →
    lobbyOpen (received (s.run es).transport) = (s.run es).isAdvertising
  /-- A connection on which the session resumes carries, between what the verbs of the game say
  before and after, who we are and then that the lobby is open. Who we are is said only there. -/
  resumes : ∀ before t gap id after,
    es = before ++ .transport t :: gap ++ .checkGeneration :: after → s.Resumes before t gap id →
    Transport.generation (s.run es).transport = Transport.generation t →
    (∃ said, heard received (s.run es) = gap.filterMap Event.notice? ++
        [⟨PeerId.server, .serverSetClientId, id.text⟩, .toServer .startAdvertising] ++ said ∧
      said <+: after.filterMap Event.notice? ∧
      (Transport.isReady (s.run es).transport = true → said = after.filterMap Event.notice?)) ∧
    (heard received (s.run es)).countP (·.kind = .serverSetClientId) = 1

section Survival
variable {received : τ → List Message} (delivers : Transport.Delivers received)

theorem new_tuned {transport : τ} (closed : lobbyOpen (received transport) = false)
    (client : ClientInfo) (includeLoopback : Bool) :
    (new transport client includeLoopback).Tuned received := by
  refine ⟨new_sound transport client includeLoopback, Pool.new_grown includeLoopback, le_rfl,
    fun _ shown => ?_, fun _ _ => nofun⟩
  rw [heard, lobbyOpen_notices] at shown
  exact absurd (closed.symm.trans shown) nofun

include delivers

theorem seen_of_looked {s : Session τ} (h : s.Tuned received)
    (seen : s.generation = Transport.generation s.transport) {es : List (Event τ)}
    (connects : Connects received s es) (looked : s.Looked es) :
    (s.run es).generation = Transport.generation (s.run es).transport := by
  obtain ⟨before, after, rfl, begun, same⟩ := looked
  obtain ⟨first, last⟩ := connects_append.1 connects
  rw [run_append] at same ⊢
  refine run_seen delivers (run_tuned delivers h first) ?_ last same
  rcases begun with rfl | ⟨front, rfl⟩
  · exact seen
  · have tuned := run_tuned delivers h (connects_append.1 first).1
    have reports := step_reports delivers tuned.sound.distinct tuned.grown
      (e := .checkGeneration) nofun
    rw [run_concat, reports.looked rfl, reports.generation]

/-- What a connection carries on which the session looks for the first time. -/
theorem run_first_look {s : Session τ} (h : s.Tuned received) (fresh : heard received s = [])
    (unseen : s.generation < Transport.generation s.transport) {gap after : List (Event τ)}
    (connects : Connects received s (gap ++ .checkGeneration :: after))
    (first : .checkGeneration ∉ gap)
    (kept : Transport.generation (s.run gap).transport = Transport.generation s.transport)
    (ready : Transport.isReady (s.run gap).transport = true)
    (hosting : (s.run gap).isAdvertising = true)
    (same : Transport.generation (s.run (gap ++ .checkGeneration :: after)).transport =
      Transport.generation s.transport) :
    ∃ said, heard received (s.run (gap ++ .checkGeneration :: after)) =
        gap.filterMap Event.notice? ++ resumption (s.run gap).localId ++ said ∧
      said <+: after.filterMap Event.notice? ∧
      (Transport.isReady (s.run (gap ++ .checkGeneration :: after)).transport = true →
        said = after.filterMap Event.notice?) := by
  obtain ⟨early, look, late⟩ := connects_append.1 connects
  have unlooked := run_unlooked delivers h early first
  obtain ⟨said, verbs, -, -, all⟩ := run_heard delivers h early kept fun look => absurd look first
  rw [fresh, List.nil_append, (all ready).2] at verbs
  rw [run_append] at same ⊢
  have tuned := run_tuned delivers h early
  generalize s.run gap = r at *
  have reports := step_reports delivers tuned.sound.distinct tuned.grown
    (e := .checkGeneration) nofun
  have resumed : heard received (r.step .checkGeneration) =
      gap.filterMap Event.notice? ++ resumption r.localId := by
    have new : ¬(Transport.generation r.transport = r.generation ∨ r.hosted.isNone) := by
      rintro (seen | none)
      · exact unseen.ne (by rw [← kept, seen, unlooked])
      · rw [isAdvertising, Option.isNone_iff_eq_none.1 none] at hosting
        cases hosting
    rw [reports.heard, if_pos ready, verbs]
    exact congrArg _ (if_neg new)
  have seen : (r.step .checkGeneration).generation =
      Transport.generation (r.step .checkGeneration).transport :=
    (reports.looked rfl).trans reports.generation.symm
  have lasts : Transport.generation ((r.step .checkGeneration).run after).transport =
      Transport.generation (r.step .checkGeneration).transport :=
    same.trans (kept.symm.trans reports.generation.symm)
  obtain ⟨said, total, few, -, all⟩ :=
    run_heard delivers (step_tuned delivers tuned look) late lasts fun _ => seen
  exact ⟨said, total.trans (by rw [resumed]), few, fun ready => (all ready).2⟩

/-- **Advertising survives the loss of connections.** -/
theorem run_survives {transport : τ} (closed : lobbyOpen (received transport) = false)
    {client : ClientInfo} {includeLoopback : Bool} {es : List (Event τ)}
    (connects : Connects received (new transport client includeLoopback) es) :
    (new transport client includeLoopback).Survives received es := by
  have tuned := new_tuned closed client includeLoopback
  generalize hs : new transport client includeLoopback = s at *
  have seen : s.generation = Transport.generation s.transport := by rw [← hs]; rfl
  refine ⟨fun ready looked => ?_, fun before t gap id after split resumes same => ?_⟩
  · have agrees := (run_tuned delivers tuned connects).agrees
    have looked := seen_of_looked delivers tuned seen connects looked
    rw [← lobbyOpen_notices]
    exact Bool.eq_iff_iff.2 ⟨agrees.sound ready, agrees.complete ready looked⟩
  · subst split
    obtain ⟨renewed, first, kept, ready, hosting, known⟩ := resumes
    rw [List.append_assoc] at connects same ⊢
    obtain ⟨old, shifts, rest⟩ := connects_append.1 connects
    rw [run_append] at kept ready hosting known same ⊢
    have earlier := run_tuned delivers tuned old
    generalize s.run before = b at *
    -- A new connection carries nothing yet.
    have fresh : heard received (b.step (.transport t)) = [] := by
      cases shifts t rfl with
      | keeps same => exact absurd same renewed.ne'
      | renews _ fresh => rw [heard, step, fresh]; rfl
    have unseen : (b.step (.transport t)).generation < Transport.generation t :=
      earlier.agrees.seen.trans_lt renewed
    obtain ⟨said, total, few, all⟩ := run_first_look delivers (step_tuned delivers earlier shifts)
      fresh unseen rest first kept ready hosting same
    have name : resumption ((b.step (.transport t)).run gap).localId =
        [⟨PeerId.server, .serverSetClientId, id.text⟩, .toServer .startAdvertising] :=
      congrArg resumption known
    have onward : b.run (.transport t :: gap ++ .checkGeneration :: after) =
      (b.step (.transport t)).run (gap ++ .checkGeneration :: after) := rfl
    have none : said.countP (·.kind = .serverSetClientId) = 0 :=
      Nat.eq_zero_of_le_zero (few.sublist.countP_le.trans (countP_notices after).le)
    rw [name] at total
    rw [onward]
    refine ⟨⟨said, total, few, all⟩, ?_⟩
    rw [total, List.countP_append, List.countP_append, countP_notices, none]
    rfl

end Survival

/-! ### A run -/

/-- A transport that is no more than what a session has to do with. -/
structure Line where
  up : Bool
  connections : Nat
  received : List Message

instance : Transport Line where
  send l m :=
    if l.up then ({ l with received := l.received ++ [m] }, none)
    else (l, some (.notReady .connecting))
  isReady := Line.up
  generation := Line.connections

theorem Line.delivers : Transport.Delivers Line.received := by
  refine ⟨fun l m => ?_, fun l m => ?_, fun l m => ?_⟩ <;>
  · simp only [Transport.send, Transport.isReady, Transport.generation]
    split <;> rfl

/-- A session that knows its name opens a lobby, loses its connection, and closes the lobby and
opens another one, of which the server cannot be told. -/
def untilLost : List (Event Line) :=
  [.dispatch ⟨.filled 1, .serverSetClientId, ""⟩ (Pool.quietOccasion 0),
    .advertise (Ad.new "" "" 0 []), .transport ⟨false, 1, [.toServer .startAdvertising]⟩,
    .checkGeneration, .unadvertise, .advertise (Ad.new "" "" 1 [])]

/-- On the next connection the first look tells who we are and that the lobby is open, and the
second one nothing. -/
theorem run_survives_loss :
    let s : Session Line := new ⟨true, 1, []⟩ ⟨0, 0⟩ false
    let es := untilLost ++ .transport ⟨true, 2, []⟩ :: [.tick (Pool.quietOccasion 0)] ++
      .checkGeneration :: [.checkGeneration]
    Transport.Delivers Line.received ∧ lobbyOpen s.transport.received = false ∧
      Connects Line.received s es ∧ s.Survives Line.received es ∧ s.Looked es ∧
      s.Resumes untilLost ⟨true, 2, []⟩ [.tick (Pool.quietOccasion 0)] (.filled 1) ∧
      (s.run es).isAdvertising = true ∧ heard Line.received (s.run es) =
        [⟨PeerId.server, .serverSetClientId, (PeerId.filled 1).text⟩,
          .toServer .startAdvertising] := by
  intro s es
  have connects : Connects Line.received s es := by
    refine ⟨nofun, nofun, fun t h => ?_, nofun, nofun, nofun, fun t h => ?_, nofun, nofun, nofun,
      trivial⟩
    · cases h
      exact .keeps rfl (by decide +kernel) nofun
    · cases h
      exact .renews (by decide +kernel) rfl
  have looked : s.Looked es := ⟨es, [], (List.append_nil _).symm,
    .inr ⟨untilLost ++ .transport ⟨true, 2, []⟩ :: [.tick (Pool.quietOccasion 0), .checkGeneration],
      rfl⟩, rfl⟩
  have resumes : s.Resumes untilLost ⟨true, 2, []⟩ [.tick (Pool.quietOccasion 0)] (.filled 1) :=
    ⟨by decide +kernel, by simp, by decide +kernel, by decide +kernel, by decide +kernel,
      by decide +kernel⟩
  exact ⟨Line.delivers, rfl, connects, run_survives Line.delivers rfl connects, looked, resumes,
    by decide +kernel, by decide +kernel⟩

end Session
end Parley

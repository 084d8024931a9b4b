import Parley.Client
import Parley.Proofs.Pool.Fate
import Parley.Proofs.Session.Projection
/-!
Messages that cannot be handled.

An error leaves no trace: whatever may fail comes before the first change to the books. The one
exception is the agent that a negotiation drops before it creates another, and there is none where
the creation is refused, as long as no agent is for the server or for ourselves (`Guarded`). The
transport may have taken note of an answer that it could not deliver, but no more. So a batch comes
to the same as what is handled of it (`refusals_leave_no_trace`).
-/
namespace Parley

/-- A transport that takes everything and keeps nothing. -/
structure Mute where

instance : Transport Mute where
  send t _ := (t, none)
  isReady _ := true
  generation _ := 0

namespace Session

variable {τ : Type}

/-- A session without its transport. -/
def books (s : Session τ) : Session Mute := s.through fun _ => ⟨⟩

/-- The pool is open and holds no agent for the server or for ourselves. -/
structure Guarded (s : Session τ) : Prop where
  running : s.pool.running = true
  unserved : ¬s.pool.HasAgent PeerId.server
  unowned : ∀ own, s.pool.localId = some own → ¬s.pool.HasAgent own

end Session

namespace Pool

/-- Where there is no agent, none is dropped. -/
theorem removeIf_vacant {p : Pool} {peer : PeerId} (vacant : ¬p.HasAgent peer)
    (condition : Agent → Bool) : p.removeIf peer condition = p := by
  unfold removeIf
  cases found : p.agent? peer with
  | none => rfl
  | some a => exact absurd ⟨a, found⟩ vacant

end Pool

namespace Session

variable {τ : Type}

/-- For whom no agent may be created there is none. -/
theorem Guarded.vacant {s : Session τ} (guarded : s.Guarded) {peer : PeerId}
    (refused : ¬s.pool.Admits peer) : ¬s.pool.HasAgent peer := by
  by_cases server : peer = PeerId.server
  · exact server ▸ guarded.unserved
  · by_cases own : s.pool.localId = some peer
    · exact guarded.unowned peer own
    · exact absurd ⟨guarded.running, server, own⟩ refused

/-- A message of a negotiation for which there is no agent leaves the pool as it is. -/
theorem Guarded.negotiate {s : Session τ} (guarded : s.Guarded) {peer : PeerId}
    {kind : MessageKind} {data : String} {o : Occasion} {pool : Pool} {e : PoolError}
    (h : s.pool.negotiate peer kind data o = (pool, .error e)) : pool = s.pool := by
  let condition := Pool.outdates kind data
  cases ensured : (s.pool.removeIf peer condition).ensure peer o with
  | error err =>
    have refused : ¬s.pool.Admits peer := by
      intro admits
      obtain ⟨q, ok⟩ := (Pool.removeIf_admits admits condition).ensure o
      rw [ok] at ensured
      cases ensured
    rw [Pool.negotiate_of_error ensured, Pool.removeIf_vacant (guarded.vacant refused)] at h
    exact (congrArg Prod.fst h).symm
  | ok q =>
    rw [Pool.negotiate_of_ok ensured] at h
    cases congrArg Prod.snd h

variable [Transport τ]

/-- A message that cannot be handled changes nothing but, if it asks for our advertisement, the
transport. -/
structure Ineffective (s : Session τ) (m : Message) (o : Occasion) : Prop where
  books : (s.dispatch m o).1.books = s.books
  transport : m.kind ≠ .solicitAds → (s.dispatch m o).1.transport = s.transport

theorem Ineffective.of_same {s : Session τ} {m : Message} {o : Occasion}
    (same : (s.dispatch m o).1 = s) : s.Ineffective m o :=
  ⟨congrArg Session.books same, fun _ => congrArg Session.transport same⟩

theorem Guarded.ineffective {s : Session τ} (guarded : s.Guarded) {m : Message} {o : Occasion}
    {e : DispatchError} (fails : (s.dispatch m o).2 = some e) : s.Ineffective m o := by
  cases kind : m.kind with
  | startAdvertising | stopAdvertising | serverEcho | requestAdvertisers =>
    simp only [dispatch, kind, reduceCtorEq] at fails
  | serverSetClientId =>
    refine .of_same ?_
    simp only [dispatch, kind] at fails ⊢
    by_cases blank : Text.trim m.data = ""
    · rw [if_pos blank] at fails
      cases fails
    · rw [if_neg blank] at fails ⊢
      cases read : PeerId.ofText m.data with
      | ok id =>
        rw [read] at fails
        cases fails
      | error => rfl
  | solicitAds =>
    refine ⟨?_, fun other => absurd kind other⟩
    simp only [dispatch, kind]
    cases s.hosted <;> rfl
  | gameAd =>
    refine .of_same ?_
    simp only [dispatch, kind, mergeAd] at fails ⊢
    cases read : Ad.ofPayload m.data with
    | error => rfl
    | ok ad =>
      cases ensured : s.pool.ensure m.peer o with
      | error => rfl
      | ok q =>
        rw [read, ensured] at fails
        cases fails
  | agentLocalDescription | agentCandidate | agentGatheringDone =>
    refine .of_same ?_
    simp only [dispatch, kind] at fails ⊢
    generalize negotiated : s.pool.negotiate m.peer _ m.data o = outcome at fails ⊢
    obtain ⟨pool, out | out⟩ := outcome
    · rw [guarded.negotiate negotiated]
    · cases fails

/-! ### Batches -/

/-- What is handled of a batch when the batch is. -/
def accepted (s : Session τ) : List (Message × Occasion) → List (Message × Occasion)
  | [] => []
  | (m, o) :: batch =>
    let rest := (s.dispatch m o).1.accepted batch
    if (s.dispatch m o).2.isNone then (m, o) :: rest else rest

theorem books_dispatchAll (s : Session τ) (batch : List (Message × Occasion)) :
    (s.dispatchAll batch).books = s.books.dispatchAll batch :=
  (through_dispatchAll (fun _ _ => rfl) s batch).symm

theorem accepted_dispatchAll {s : Session τ} {batch : List (Message × Occasion)}
    (guarded : ∀ n < batch.length, (s.dispatchAll (batch.take n)).Guarded) :
    (s.dispatchAll (s.accepted batch)).books = (s.dispatchAll batch).books := by
  induction batch generalizing s with
  | nil => rfl
  | cons x batch ih =>
    obtain ⟨m, o⟩ := x
    have later : ((s.dispatch m o).1.dispatchAll ((s.dispatch m o).1.accepted batch)).books =
        ((s.dispatch m o).1.dispatchAll batch).books :=
      ih fun n bound => guarded (n + 1) (Nat.succ_lt_succ bound)
    unfold accepted
    cases result : (s.dispatch m o).2 with
    | none => exact later
    | some e =>
      have now : s.Guarded := guarded 0 (Nat.zero_lt_succ _)
      have same := (now.ineffective result).books
      simp only [Option.isNone_some, Bool.false_eq_true, if_false]
      rw [books_dispatchAll, ← same, ← books_dispatchAll]
      exact later

/-- **What cannot be handled leaves no trace**, and a batch with such messages comes to the same as
without them. -/
theorem refusals_leave_no_trace :
    (∀ (s : Session τ) (m : Message) (o : Occasion) (e : DispatchError), s.Guarded →
      (s.dispatch m o).2 = some e → s.Ineffective m o) ∧
    ∀ (s : Session τ) (batch : List (Message × Occasion)),
      (∀ n < batch.length, (s.dispatchAll (batch.take n)).Guarded) →
        (s.dispatchAll (s.accepted batch)).books = (s.dispatchAll batch).books :=
  ⟨fun _ _ _ _ guarded fails => guarded.ineffective fails,
    fun _ _ guarded => accepted_dispatchAll guarded⟩

instance (s : Session τ) : Decidable s.Guarded :=
  decidable_of_iff (s.pool.running = true ∧ s.pool.agent? PeerId.server = none ∧
      ∀ own ∈ s.pool.localId, s.pool.agent? own = none) <| by
    constructor
    · rintro ⟨running, unserved, unowned⟩
      refine ⟨running, ?_, fun own known => ?_⟩
      · rintro ⟨a, found⟩
        cases unserved.symm.trans found
      · rintro ⟨a, found⟩
        cases (unowned own known).symm.trans found
    · rintro ⟨running, unserved, unowned⟩
      have none_of {peer : PeerId} (vacant : ¬s.pool.HasAgent peer) : s.pool.agent? peer = none :=
        Option.eq_none_iff_forall_ne_some.2 fun a found => vacant ⟨a, found⟩
      exact ⟨running, none_of unserved, fun own known => none_of (unowned own known)⟩

/-- A client with a lobby open and no connection. -/
def unconnected : Client :=
  (new ⟨Channel.new "", []⟩ ⟨0, 0⟩ false : Client).advertise (Ad.new "" "" 0 []) |>.1

/-- We are given an identity, and a peer tells of its game. In between come an identity that is
none, our own advertisement, a question that cannot be answered, and a ping of ours. -/
def mixedBatch : List (Message × Occasion) :=
  [(⟨PeerId.server, .serverSetClientId, (PeerId.filled 1).text⟩, Pool.quietOccasion 0),
    (⟨PeerId.server, .serverSetClientId, "?"⟩, Pool.quietOccasion 1),
    (⟨.filled 1, .gameAd, (Ad.new "" "" 0 []).payload⟩, Pool.quietOccasion 2),
    (⟨.filled 2, .solicitAds, ""⟩, Pool.quietOccasion 3),
    (Message.ping (.filled 1), Pool.quietOccasion 4),
    (⟨.filled 2, .gameAd, (Ad.new "" "" 0 []).payload⟩, Pool.quietOccasion 5)]

theorem refusals_leave_no_trace_of_mixture :
    (∀ n < mixedBatch.length, (unconnected.dispatchAll (mixedBatch.take n)).Guarded) ∧
      (unconnected.dispatch (Message.ping PeerId.server) (Pool.quietOccasion 0)).2 =
        some (.pool (.invalidPeer PeerId.server)) ∧
      unconnected.Ineffective (Message.ping PeerId.server) (Pool.quietOccasion 0) ∧
      (unconnected.accepted mixedBatch).map (·.2.now) = [0, 5] ∧
      (unconnected.dispatchAll (unconnected.accepted mixedBatch)).books =
        (unconnected.dispatchAll mixedBatch).books := by
  have guarded : ∀ n < mixedBatch.length,
      (unconnected.dispatchAll (mixedBatch.take n)).Guarded := by decide +kernel
  have fails : (unconnected.dispatch (Message.ping PeerId.server) (Pool.quietOccasion 0)).2 =
      some (.pool (.invalidPeer PeerId.server)) := by decide +kernel
  have first : unconnected.Guarded := guarded 0 (by decide)
  exact ⟨guarded, fails, refusals_leave_no_trace.1 _ _ _ _ first fails, by decide +kernel,
    refusals_leave_no_trace.2 _ _ guarded⟩

end Session
end Parley

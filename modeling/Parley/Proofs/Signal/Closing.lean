import Parley.Proofs.Signal.Channel
/-!
Channels that have been closed.

A channel that has been closed is never ready again: it sends nothing, its calls of `receive` end at
once with an empty batch, and there is no new connection. Its state, however, is not always that of
a closed channel. An attempt to connect sets the state before it is known how it ends, and sets it
back only when it has succeeded. So the state is `connecting` from an attempt that is refused to one
that is accepted (`Rests`), and closing is final just where no attempt is refused
(`closing_final_iff`).
-/
namespace Parley.Channel

/-- The attempt to connect that an event is. -/
def Event.attempt? : Event → Option Attempt
  | .connect attempt => some attempt
  | _ => none

/-- The latest of the attempts to connect of a run. -/
def lastAttempt (es : List Event) : Option Attempt := (es.filterMap Event.attempt?).getLast?

theorem lastAttempt_concat (es : List Event) (e : Event) :
    lastAttempt (es ++ [e]) = e.attempt?.or (lastAttempt es) := by
  unfold lastAttempt
  rw [List.filterMap_append, List.getLast?_append]
  cases h : e.attempt? <;> simp [h]

/-- The state of a channel that has been closed, after the given attempt to connect. -/
def restingState : Option Attempt → ChannelState
  | some .refused => .connecting
  | some .accepted | none => .closed

/-! ### One call -/

theorem receive_of_closed {c : Channel} (h : c.closed = true) (arrivals : List Arrival) :
    c.receive arrivals = (c, some [], arrivals) := by
  cases arrivals with
  | nil => exact if_pos h
  | cons a arrivals =>
    have ended : c.arrive a = (c, some []) := if_pos h
    rw [receive, ended]
    simp only [h, if_true]

/-- A channel that has been closed, and what it has been through since: it was closed with the given
number of connections behind it, and the latest attempt to connect was the given one. -/
structure Rests (generation : Nat) (attempt : Option Attempt) (c : Channel) : Prop where
  closed : c.closed = true
  generation : c.generation = generation
  state : c.state = restingState attempt

theorem Rests.unready {n : Nat} {attempt : Option Attempt} {c : Channel} (h : Rests n attempt c) :
    c.state ≠ .ready := by
  rw [h.state]
  unfold restingState
  split <;> nofun

theorem close_rests {c : Channel} (h : c.closed = false) : Rests c.generation none c.close := by
  unfold close
  rw [if_neg (Bool.eq_false_iff.1 h)]
  exact ⟨rfl, rfl, rfl⟩

theorem Rests.step {n : Nat} {attempt : Option Attempt} {c : Channel} (h : Rests n attempt c)
    (e : Event) : Rests n (e.attempt?.or attempt) (c.step e) := by
  cases e with
  | connect outcome =>
    cases outcome with
    | refused => exact ⟨h.closed, h.generation, rfl⟩
    | accepted =>
      show Rests n (some .accepted) (c.connect .accepted).1
      rw [connect_of_closed h.closed]
      exact ⟨h.closed, h.generation, rfl⟩
  | send m taken =>
    show Rests n attempt (c.send m taken).1
    rw [send_unready h.unready]
    exact ⟨h.closed, h.generation, h.state⟩
  | receive arrivals =>
    show Rests n attempt (c.receive arrivals).1
    rw [receive_of_closed h.closed]
    exact h
  | close =>
    show Rests n attempt c.close
    unfold close
    rw [if_pos h.closed]
    exact h

/-! ### Runs -/

theorem run_rests {c : Channel} (h : c.closed = false) (es : List Event) :
    Rests c.generation (lastAttempt es) (c.close.run es) := by
  induction es using List.reverseRecOn with
  | nil => exact close_rests h
  | append_singleton es e ih =>
    rw [run_concat, lastAttempt_concat]
    exact ih.step e

/-- Nothing but `close` closes a channel. -/
theorem step_closed {c : Channel} (sound : c.Sound) {e : Event} (h : e ≠ .close) :
    (c.step e).closed = c.closed := by
  cases e with
  | connect attempt => exact (c.connect_keeps attempt).1
  | send m taken =>
    show (c.send m taken).1.closed = c.closed
    rcases sound.send_cases m taken with ⟨frame, done⟩ | ⟨e, done⟩
    · rw [done]
    · rw [done]
      rfl
  | receive arrivals =>
    refine receive_preserves (P := fun d => d.closed = c.closed) ?_ rfl arrivals
    exact fun _ _ same alters => alters.closed.trans same
  | close => exact absurd rfl h

theorem run_unclosed (address : String) {es : List Event} (h : .close ∉ es) :
    ((new address).run es).closed = false := by
  induction es using List.reverseRecOn with
  | nil => rfl
  | append_singleton es e ih =>
    obtain ⟨others, last⟩ := not_or.1 (mt List.mem_append.2 h)
    have notClose : e ≠ .close := fun same => last (same ▸ List.mem_singleton_self _)
    rw [run_concat, step_closed (run_sound address es) notClose]
    exact ih others

/-- What holds of a channel that was closed, `es` being what has happened since. -/
structure Finished (c : Channel) (es : List Event) : Prop where
  /-- There is no new connection. -/
  generation : (c.run es).generation = c.generation
  /-- Every send is refused with the state, and nothing is handed to a connection. -/
  refuses : ∀ m, (c.run es).handed m = [] ∧
    ∀ taken, ((c.run es).send m taken).2 = .error (.notReady (c.run es).state)
  /-- Every call of `receive` ends at once, with an empty batch. -/
  empty : ∀ arrivals, (c.run es).receive arrivals = (c.run es, some [], arrivals)
  /-- The state tells of the latest attempt to connect. -/
  state : (c.run es).state = restingState (lastAttempt es)

theorem close_finished {c : Channel} (h : c.closed = false) (es : List Event) :
    Finished c.close es := by
  have rests := run_rests h es
  have stopped := send_unready rests.unready
  refine ⟨?_, fun m => ?_, receive_of_closed rests.closed, rests.state⟩
  · rw [rests.generation, (close_rests h).generation]
  · exact ⟨handed_of_failSend (stopped m), fun taken => congrArg Prod.snd (stopped m taken)⟩

/-- The state stays that of a closed channel just as long as no attempt to connect is refused. -/
theorem lastAttempt_unrefused {es : List Event} :
    (∀ front, front <+: es → restingState (lastAttempt front) = .closed) ↔
      .connect .refused ∉ es := by
  induction es using List.reverseRecOn with
  | nil => simp [lastAttempt, restingState]
  | append_singleton es e ih =>
    have fronts : (∀ front, front <+: es ++ [e] → restingState (lastAttempt front) = .closed) ↔
        (∀ front, front <+: es → restingState (lastAttempt front) = .closed) ∧
          restingState (lastAttempt (es ++ [e])) = .closed := by
      simp only [List.prefix_concat_iff, or_imp, forall_and, forall_eq]
      exact and_comm
    rw [fronts, ih, List.mem_append, not_or, List.mem_singleton, lastAttempt_concat]
    refine and_congr_right fun unrefused => ?_
    -- The state before the last event is that of a closed channel; an attempt alone changes it.
    have before := ih.2 unrefused es (List.prefix_refl es)
    cases e with
    | connect attempt => cases attempt <;> simp [Event.attempt?, restingState]
    | send | receive | close => simpa [Event.attempt?] using before

/-- **A channel that is closed does nothing more, but its state is that of a closed channel only as
long as no attempt to connect is refused.** -/
theorem closing_final_iff (address : String) (before after : List Event)
    (first : .close ∉ before) :
    let c := ((new address).run before).close
    Finished c after ∧
      ((∀ es, es <+: after → (c.run es).state = .closed ∧
          ∀ m taken, ((c.run es).send m taken).2 = .error (.notReady .closed)) ↔
        .connect .refused ∉ after) := by
  intro c
  have finished (es : List Event) : Finished c es := close_finished (run_unclosed address first) es
  refine ⟨finished after, ?_⟩
  rw [← lastAttempt_unrefused]
  refine forall₂_congr fun es _ => ?_
  rw [← (finished es).state]
  refine ⟨And.left, fun closed => ⟨closed, fun m taken => ?_⟩⟩
  rw [((finished es).refuses m).2 taken, closed]

/-- A connected channel is closed, an attempt to connect is refused, and another one succeeds: there
is no new connection, and the state has not been that of a closed channel all the time. -/
theorem closing_final_after_refusal :
    let before : List Event := [.connect .accepted]
    let after : List Event := [.connect .refused, .close, .connect .accepted]
    let c := ((new "127.0.0.1:1").run before).close
    .close ∉ before ∧ Finished c after ∧ (c.run after).generation = 1 ∧
      ¬∀ es, es <+: after → (c.run es).state = .closed ∧
        ∀ m taken, ((c.run es).send m taken).2 = .error (.notReady .closed) := by
  intro before after c
  have first : .close ∉ before := by decide
  obtain ⟨finished, final⟩ := closing_final_iff "127.0.0.1:1" before after first
  exact ⟨first, finished, finished.generation, fun h => final.1 h (by decide)⟩

/-- A channel that is closed and then finds no server is as one that is being connected: that is its
state, and it says so to those who send. -/
theorem refused_attempt_unsettles :
    let c := (new "127.0.0.1:1").run [.close, .connect .refused]
    c.closed = true ∧ c.state ≠ .closed ∧
      (c.send (.toServer .startAdvertising) true).2 = .error (.notReady .connecting) := by
  decide

end Parley.Channel

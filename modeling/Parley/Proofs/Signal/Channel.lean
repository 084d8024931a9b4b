import Parley.Proofs.Signal.RoundTrip
import Parley.Signal.Channel
/-!
The sends of a channel.

Calls of a channel follow one another in any order. The outside decides how an attempt to connect
ends, what arrives, and whether the connection takes what is written.

A channel is ready only while it has a connection for both directions (`Sound`). So there is no send
that is not counted: it is counted as sent when the connection has taken the message, and as failed
otherwise (`sends_accounted`). A send that is refused does not reach the connection.
-/
namespace Parley.Channel

/-- What is done with a channel, and what the outside makes of it. -/
inductive Event where
  | connect (attempt : Attempt)
  | send (m : Message) (taken : Bool)
  | receive (arrivals : List Arrival)
  | close
  deriving DecidableEq

/-- The channel after an event. -/
def step (c : Channel) : Event → Channel
  | .connect attempt => (c.connect attempt).1
  | .send m taken => (c.send m taken).1
  | .receive arrivals => (c.receive arrivals).1
  | .close => c.close

/-- The channel after a run. -/
def run (c : Channel) (es : List Event) : Channel := es.foldl step c

theorem run_concat (c : Channel) (es : List Event) (e : Event) :
    c.run (es ++ [e]) = (c.run es).step e := List.foldl_append

/-- The outcome of the send that an event is. -/
def outcome (c : Channel) : Event → Option (Except ChannelError Bytes)
  | .send m taken => some (c.send m taken).2
  | _ => none

/-- The outcomes of the sends of a run, in their order. -/
def outcomes (c : Channel) : List Event → List (Except ChannelError Bytes)
  | [] => []
  | e :: es => (c.outcome e).toList ++ (c.step e).outcomes es

theorem outcomes_concat (c : Channel) (es : List Event) (e : Event) :
    c.outcomes (es ++ [e]) = c.outcomes es ++ ((c.run es).outcome e).toList := by
  induction es generalizing c with
  | nil => simp [outcomes, run]
  | cons e' es ih =>
    rw [List.cons_append, outcomes, outcomes, ih, List.append_assoc]
    rfl

/-! ### What a call does -/

theorem connect_of_closed {c : Channel} (h : c.closed = true) :
    c.connect .accepted = ({ c.dropConnection with state := .closed }, some (.notReady .closed)) :=
  if_pos h

theorem connect_of_open {c : Channel} (h : c.closed = false) :
    c.connect .accepted =
      ({ c with
          state := .ready, reader := true, writer := true, pending := []
          generation := c.generation + 1 },
        none) :=
  if_neg (Bool.eq_false_iff.1 h)

/-- What every attempt to connect leaves alone. -/
theorem connect_keeps (c : Channel) (attempt : Attempt) :
    (c.connect attempt).1.closed = c.closed ∧ (c.connect attempt).1.sent = c.sent ∧
      (c.connect attempt).1.sendFailures = c.sendFailures := by
  cases attempt with
  | refused => exact ⟨rfl, rfl, rfl⟩
  | accepted =>
    cases closed : c.closed with
    | true =>
      rw [connect_of_closed closed]
      exact ⟨closed, rfl, rfl⟩
    | false =>
      rw [connect_of_open closed]
      exact ⟨closed, rfl, rfl⟩

/-- What an arrival may do to a channel. -/
inductive Alters (c : Channel) : Channel → Prop
  | keeps : Alters c c
  | takes (pending : Bytes) (received parseFailures : Nat) :
      Alters c { c with pending, received, parseFailures }
  | drops : Alters c { c.dropConnection with state := .connecting }
  | attempts (attempt : Attempt) (reconnects : Nat) :
      Alters c { (c.connect attempt).1 with reconnects }

theorem takeOctets_alters (c : Channel) (bs : Bytes) : Alters c (c.takeOctets bs).1 := by
  unfold takeOctets
  simp only
  split
  · exact .takes ..
  · split <;> exact .takes ..

theorem reconnect_alters (c : Channel) (attempt : Attempt) :
    Alters c (c.reconnect attempt).1 := by
  have tried (n : Nat) : Alters c { (c.connect attempt).1 with reconnects := n } := .attempts ..
  unfold reconnect
  split <;> rename_i connected _ h <;> rw [h] at tried
  · exact tried _
  · exact tried connected.reconnects

theorem arrive_alters (c : Channel) (a : Arrival) : Alters c (c.arrive a).1 := by
  unfold arrive
  split
  · exact .keeps
  · split
    · cases a with
      | octets bs => exact c.takeOctets_alters bs
      | quiet | attempt => exact .keeps
      | lost => exact .drops
    · cases a with
      | attempt outcome => exact c.reconnect_alters outcome
      | octets | quiet | lost => exact .drops

/-- What every arrival leaves true is true when a call of `receive` ends or waits. -/
theorem receive_preserves {P : Channel → Prop} (h : ∀ c d, P c → Alters c d → P d) {c : Channel}
    (hc : P c) (arrivals : List Arrival) : P (c.receive arrivals).1 := by
  induction arrivals generalizing c with
  | nil =>
    unfold receive
    split <;> exact hc
  | cons a arrivals ih =>
    have next := h c _ hc (c.arrive_alters a)
    unfold receive
    split <;> rename_i arrived <;> rw [arrived] at next
    · exact next
    · exact ih next

theorem Alters.counters {c d : Channel} (h : Alters c d) :
    d.sent = c.sent ∧ d.sendFailures = c.sendFailures := by
  cases h with
  | keeps | takes | drops => exact ⟨rfl, rfl⟩
  | attempts attempt => exact (c.connect_keeps attempt).2

theorem Alters.closed {c d : Channel} (h : Alters c d) : d.closed = c.closed := by
  cases h with
  | keeps | takes | drops => rfl
  | attempts attempt => exact (c.connect_keeps attempt).1

/-! ### Channels that are ready -/

/-- Where the channel is ready, it has not been closed, and there is a connection to read from and
one to write to. -/
structure Sound (c : Channel) : Prop where
  connected : c.state = .ready → c.reader = true ∧ c.writer = true
  unclosed : c.state = .ready → c.closed = false

theorem Sound.of_unready {c : Channel} (h : c.state ≠ .ready) : c.Sound :=
  ⟨fun ready => absurd ready h, fun ready => absurd ready h⟩

theorem connect_sound (c : Channel) (attempt : Attempt) : (c.connect attempt).1.Sound := by
  cases attempt with
  | refused => exact .of_unready nofun
  | accepted =>
    cases closed : c.closed with
    | true =>
      rw [connect_of_closed closed]
      exact .of_unready nofun
    | false =>
      rw [connect_of_open closed]
      exact ⟨fun _ => ⟨rfl, rfl⟩, fun _ => closed⟩

theorem Sound.alters {c d : Channel} (h : c.Sound) (alters : Alters c d) : d.Sound := by
  cases alters with
  | keeps => exact h
  | takes => exact ⟨h.connected, h.unclosed⟩
  | drops => exact .of_unready nofun
  | attempts attempt =>
    have sound := c.connect_sound attempt
    exact ⟨sound.connected, sound.unclosed⟩

/-! ### One send -/

/-- The octets that a send hands to the connection, whether that takes them or not. -/
def handed (c : Channel) (m : Message) : Bytes := (c.send m true).2.toOption.getD []

theorem send_unready {c : Channel} (h : c.state ≠ .ready) (m : Message) (taken : Bool) :
    c.send m taken = c.failSend (.notReady c.state) := if_neg h

theorem send_delimiter {c : Channel} (ready : c.state = .ready) {m : Message}
    (h : ['-', '+'] <:+: m.data.toList) (taken : Bool) :
    c.send m taken = c.failSend (.encode .delimiterInPayload) := by
  obtain ⟨e, encoded⟩ := (Frame.encode_eq_error m).2 h
  cases e
  rw [send, if_pos ready, encoded]

theorem send_frame {c : Channel} (ready : c.state = .ready) (writer : c.writer = true)
    {m : Message} {frame : Bytes} (encoded : Frame.encode m = .ok frame) (taken : Bool) :
    c.send m taken =
      if taken then ({ c with sent := c.sent + 1 }, .ok frame) else c.failSend .io := by
  rw [send, if_pos ready, encoded]
  exact if_pos writer

/-- A send that fails before it comes to the connection. -/
theorem handed_of_failSend {c : Channel} {m : Message} {e : ChannelError}
    (h : ∀ taken, c.send m taken = c.failSend e) : c.handed m = [] := by
  rw [handed, h]
  rfl

/-- The exit of a send that is not counted is never taken: a channel that is ready can write. -/
theorem Sound.send_cases {c : Channel} (h : c.Sound) (m : Message) (taken : Bool) :
    (∃ frame, c.send m taken = ({ c with sent := c.sent + 1 }, .ok frame)) ∨
      ∃ e, c.send m taken = c.failSend e := by
  by_cases ready : c.state = .ready
  · cases encoded : Frame.encode m with
    | error e => exact .inr ⟨_, send_delimiter ready ((Frame.encode_eq_error m).1 ⟨e, encoded⟩) _⟩
    | ok frame =>
      have written := send_frame ready (h.connected ready).2 encoded
      cases taken with
      | true => exact .inl ⟨frame, written true⟩
      | false => exact .inr ⟨.io, written false⟩
  · exact .inr ⟨_, send_unready ready m taken⟩

/-! ### Runs -/

theorem Sound.step {c : Channel} (h : c.Sound) (e : Event) : (c.step e).Sound := by
  cases e with
  | connect attempt => exact c.connect_sound attempt
  | send m taken =>
    show (c.send m taken).1.Sound
    rcases h.send_cases m taken with ⟨frame, done⟩ | ⟨e, done⟩ <;> rw [done] <;>
      exact ⟨h.connected, h.unclosed⟩
  | receive arrivals => exact receive_preserves (fun _ _ sound => sound.alters) h arrivals
  | close =>
    show c.close.Sound
    unfold close
    split
    · exact h
    · exact .of_unready nofun

theorem run_sound (address : String) (es : List Event) : ((new address).run es).Sound := by
  induction es using List.reverseRecOn with
  | nil => exact .of_unready nofun
  | append_singleton es e ih =>
    rw [run_concat]
    exact ih.step e

/-- No event but a send is counted as one, and a send moves just one of the two counters. -/
theorem Sound.counters {c : Channel} (h : c.Sound) (e : Event) :
    (c.step e).sent = c.sent + (c.outcome e).toList.countP (·.isOk) ∧
      (c.step e).sendFailures = c.sendFailures + (c.outcome e).toList.countP (!·.isOk) := by
  cases e with
  | connect attempt => exact (c.connect_keeps attempt).2
  | send m taken =>
    rw [outcome, Channel.step]
    rcases h.send_cases m taken with ⟨frame, done⟩ | ⟨e, done⟩ <;> rw [done] <;>
      exact ⟨rfl, rfl⟩
  | receive arrivals =>
    refine receive_preserves
      (P := fun d => d.sent = c.sent ∧ d.sendFailures = c.sendFailures) ?_ ⟨rfl, rfl⟩ arrivals
    rintro d d' ⟨sent, failed⟩ alters
    exact ⟨alters.counters.1.trans sent, alters.counters.2.trans failed⟩
  | close =>
    show c.close.sent = c.sent ∧ c.close.sendFailures = c.sendFailures
    unfold close
    split <;> exact ⟨rfl, rfl⟩

theorem run_counters (address : String) (es : List Event) :
    ((new address).run es).sent = ((new address).outcomes es).countP (·.isOk) ∧
      ((new address).run es).sendFailures = ((new address).outcomes es).countP (!·.isOk) := by
  induction es using List.reverseRecOn with
  | nil => exact ⟨rfl, rfl⟩
  | append_singleton es e ih =>
    have counted := (run_sound address es).counters e
    rw [run_concat, outcomes_concat, List.countP_append, List.countP_append, ← ih.1, ← ih.2]
    exact counted

/-- What can be said of sending on a channel, when the sends so far have had the given outcomes. -/
structure Accounted (c : Channel) (outcomes : List (Except ChannelError Bytes)) : Prop where
  /-- A channel that is ready has a connection to read from and one to write to. -/
  connected : c.state = .ready → c.reader = true ∧ c.writer = true
  /-- A send adds one to one of the two counters, to that of the sent messages just when it
  succeeds, and changes nothing else. -/
  counted : ∀ m taken, (c.send m taken).1 =
    if (c.send m taken).2.isOk then { c with sent := c.sent + 1 }
    else { c with sendFailures := c.sendFailures + 1 }
  /-- Where the channel is not ready, nothing is handed to the connection. -/
  unready : c.state ≠ .ready → ∀ m, c.handed m = [] ∧
    ∀ taken, (c.send m taken).2 = .error (.notReady c.state)
  /-- Nor is it of a message with the delimiter in it. -/
  refused : c.state = .ready → ∀ m, ['-', '+'] <:+: m.data.toList → c.handed m = [] ∧
    ∀ taken, (c.send m taken).2 = .error (.encode .delimiterInPayload)
  /-- Any other message is handed to the connection as a whole. -/
  written : c.state = .ready → ∀ m, ¬['-', '+'] <:+: m.data.toList →
    Frame.encode m = .ok (c.handed m) ∧
      ∀ taken, (c.send m taken).2 = if taken then .ok (c.handed m) else .error .io
  /-- The counters tell how many sends have succeeded, and how many have failed. -/
  sent : c.sent = outcomes.countP (·.isOk)
  failed : c.sendFailures = outcomes.countP (!·.isOk)

/-- **Every send is counted once**, whatever the channel has gone through. -/
theorem sends_accounted (address : String) (es : List Event) :
    Accounted ((new address).run es) ((new address).outcomes es) := by
  have sound := run_sound address es
  obtain ⟨sent, failed⟩ := run_counters address es
  generalize (new address).run es = c at sound sent failed ⊢
  refine ⟨sound.connected, fun m taken => ?_, fun unready m => ?_, fun ready m h => ?_,
    fun ready m clean => ?_, sent, failed⟩
  · rcases sound.send_cases m taken with ⟨frame, done⟩ | ⟨e, done⟩ <;> rw [done] <;> rfl
  · have stopped := send_unready unready m
    exact ⟨handed_of_failSend stopped, fun taken => congrArg Prod.snd (stopped taken)⟩
  · have stopped := send_delimiter ready h
    exact ⟨handed_of_failSend stopped, fun taken => congrArg Prod.snd (stopped taken)⟩
  · cases encoded : Frame.encode m with
    | error e => exact absurd ((Frame.encode_eq_error m).1 ⟨e, encoded⟩) clean
    | ok frame =>
      have written := send_frame ready (sound.connected ready).2 encoded
      have whole : c.handed m = frame := by
        rw [handed, written]
        rfl
      rw [whole]
      refine ⟨rfl, fun taken => ?_⟩
      rw [written]
      cases taken <;> rfl

end Parley.Channel

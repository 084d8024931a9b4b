import Parley.Proofs.Signal.Channel
/-!
What is received over a connection.

The octets of a connection arrive in reads of any lengths, and `receive` is called again and again
(`receiveAll`). What waits for a delimiter is dropped when it grows too long, so it never holds more
than `maxPending` octets while a read is awaited; and where every part of the stream between two
delimiters is shorter than that, nothing is dropped, and the batches together are what the stream
holds, however it was cut into reads (`stream_received`).

Both come from one fact: when a delimiter arrives at last, all of the octets that were waiting stand
in front of it, but perhaps for its first octet.
-/
namespace Parley

/-! ### Parts of a stream -/

namespace Frame

/-- The parts into which its delimiters cut a stream. -/
def parts (bs : Bytes) : List Bytes := (split bs).1 ++ [(split bs).2]

theorem Cut.rest_suffix {bs : Bytes} {segments : List Bytes} {rest : Bytes}
    (h : Cut bs segments rest) : rest <:+ bs := by
  induction h with
  | rest => exact List.suffix_refl _
  | segment _ _ ih => exact ih.trans (List.suffix_append _ _)

/-- Either no delimiter is there, or the first segment stands in front of the first one. -/
theorem Cut.cases {bs : Bytes} {segments : List Bytes} {rest : Bytes} (h : Cut bs segments rest) :
    hasDelimiter bs = false ∧ rest = bs ∨ ∃ segment ∈ segments, ∃ after,
      bs = segment ++ delimiter ++ after ∧ rest <:+ after := by
  cases h with
  | rest none =>
    refine .inl ⟨Bool.eq_false_iff.2 fun found => ?_, rfl⟩
    obtain ⟨i, hi⟩ := hasDelimiter_iff.1 found
    exact none i hi
  | @segment segment after _ _ _ cut =>
    exact .inr ⟨segment, List.mem_cons_self, after, rfl, cut.rest_suffix⟩

theorem split_rest_open (bs : Bytes) : hasDelimiter (split bs).2 = false := by
  refine Bool.eq_false_iff.2 fun h => ?_
  obtain ⟨i, hi⟩ := hasDelimiter_iff.1 h
  exact (split_cut bs).rest_open i hi

theorem decodeAll_open {bs : Bytes} (h : hasDelimiter bs = false) : decodeAll bs = ⟨[], 0, bs⟩ := by
  refine decodeAll_eq_iff.2 ⟨[], .rest fun i hi => ?_, .nil⟩
  rw [hasDelimiter_iff.2 ⟨i, hi⟩] at h
  cases h

/-- Octets without a delimiter end at the latest with the first octet of the one that follows. -/
theorem open_le_segment {bs more segment after : Bytes} (hopen : hasDelimiter bs = false)
    (h : bs ++ more = segment ++ delimiter ++ after) : bs.length ≤ segment.length + 1 := by
  by_contra longer
  have inside := delimiterAt_segment segment after
  rw [← h, delimiterAt_append (by omega)] at inside
  rw [hasDelimiter_iff.2 ⟨_, inside⟩] at hopen
  cases hopen

/-- What waits at some point of a stream is not longer than the part to which it belongs, but for
the first octet of a delimiter. -/
theorem rest_le_of_parts {seen more : Bytes} {limit : Nat}
    (h : ∀ part ∈ parts (seen ++ more), part.length < limit) :
    (decodeAll seen).rest.length ≤ limit := by
  -- What waits and what is still to come are cut as they are in the stream.
  have cut := split_cut ((split seen).2 ++ more)
  have whole := split_eq_iff.2 ((split_cut seen).append cut)
  rw [parts, whole] at h
  show (split seen).2.length ≤ limit
  rcases cut.cases with ⟨-, same⟩ | ⟨segment, member, after, split, -⟩
  · have last := h _ (List.mem_append_right _ List.mem_cons_self)
    rw [same, List.length_append] at last
    omega
  · have first := h segment (List.mem_append_left _ (List.mem_append_right _ member))
    have short := open_le_segment (split_rest_open seen) split
    omega

/-- When a delimiter has arrived, what waits behind it has arrived with it. -/
theorem rest_le_of_found {bs more : Bytes} (hopen : hasDelimiter bs = false)
    (found : hasDelimiter (bs ++ more) = true) :
    (decodeAll (bs ++ more)).rest.length ≤ more.length := by
  show (split (bs ++ more)).2.length ≤ more.length
  rcases (split_cut (bs ++ more)).cases with ⟨missing, -⟩ | ⟨segment, -, after, split, suffix⟩
  · rw [found] at missing
    cases missing
  · have short := open_le_segment hopen split
    have behind := suffix.length_le
    have length := congrArg List.length split
    simp only [List.length_append, delimiter, List.length_cons, List.length_nil] at length
    omega

end Frame

namespace Channel

/-! ### Arrivals on one connection -/

/-- The octets of an arrival. -/
def Arrival.bytes : Arrival → Bytes
  | .octets bs => bs
  | .quiet | .lost | .attempt _ => []

/-- What a read gives while the connection lasts: some octets, at most as many as fit, or nothing for
now. -/
def Arrival.IsRead : Arrival → Prop
  | .octets bs => bs ≠ [] ∧ bs.length ≤ readSize
  | .quiet => True
  | .lost | .attempt _ => False

/-- The stream that arrives. -/
def stream (arrivals : List Arrival) : Bytes := arrivals.flatMap Arrival.bytes

/-- Calls `receive` again and again, until a call waits for more than what has arrived. The batches
that the calls before it have handed out come along. -/
def receiveAll (c : Channel) (arrivals : List Arrival) : Channel × List (List Message) :=
  match c.receive arrivals with
  | (d, none, _) => (d, [])
  | (d, some batch, rest) =>
    if _ : rest.length < arrivals.length then
      ((receiveAll d rest).1, batch :: (receiveAll d rest).2)
    else (d, [batch])
termination_by arrivals.length

/-- A channel that reads from its connection. -/
structure Listens (c : Channel) : Prop where
  unclosed : c.closed = false
  reader : c.reader = true

/-- A channel on whose connection nothing has arrived. -/
structure Fresh (c : Channel) : Prop extends Listens c where
  pending : c.pending = []

/-- A connection begins so. -/
theorem connect_fresh {c : Channel} (h : c.closed = false) : (c.connect .accepted).1.Fresh := by
  rw [connect_of_open h]
  exact ⟨⟨h, rfl⟩, rfl⟩

theorem Listens.arrive_octets {c : Channel} (h : c.Listens) (bs : Bytes) :
    c.arrive (.octets bs) = c.takeOctets bs := by
  simp [arrive, h.unclosed, h.reader]

theorem Listens.arrive_quiet {c : Channel} (h : c.Listens) : c.arrive .quiet = (c, none) := by
  simp [arrive, h.unclosed, h.reader]

/-! ### Calling again and again -/

theorem receiveAll_of_none {c d : Channel} {arrivals rest : List Arrival}
    (h : c.receive arrivals = (d, none, rest)) : c.receiveAll arrivals = (d, []) := by
  rw [receiveAll, h]

theorem receiveAll_of_some {c d : Channel} {arrivals rest : List Arrival} {batch : List Message}
    (h : c.receive arrivals = (d, some batch, rest)) (shorter : rest.length < arrivals.length) :
    c.receiveAll arrivals = ((d.receiveAll rest).1, batch :: (d.receiveAll rest).2) := by
  rw [receiveAll, h]
  exact dif_pos shorter

/-- A call that hands out a batch has taken the arrival that completed it. -/
theorem receive_shorter {c d : Channel} (h : c.closed = false) {arrivals rest : List Arrival}
    {batch : List Message} (hreceive : c.receive arrivals = (d, some batch, rest)) :
    rest.length < arrivals.length := by
  induction arrivals generalizing c with
  | nil => simp [receive, h] at hreceive
  | cons a arrivals ih =>
    have unclosed := (c.arrive_alters a).closed.trans h
    unfold receive at hreceive
    split at hreceive <;> rename_i arrived <;> rw [arrived] at unclosed
    · cases hreceive
      rw [if_neg (Bool.eq_false_iff.1 unclosed)]
      exact Nat.lt_succ_self _
    · exact Nat.lt_succ_of_lt (ih unclosed hreceive)

/-- An arrival hands out its batch, if there is one, before all that follow. -/
theorem receiveAll_cons {c : Channel} (h : c.closed = false) (a : Arrival)
    (arrivals : List Arrival) :
    c.receiveAll (a :: arrivals) = (((c.arrive a).1.receiveAll arrivals).1,
      (c.arrive a).2.toList ++ ((c.arrive a).1.receiveAll arrivals).2) := by
  have unclosed := (c.arrive_alters a).closed.trans h
  rcases arrived : c.arrive a with ⟨d, _ | batch⟩ <;> rw [arrived] at unclosed
  · have waits : c.receive (a :: arrivals) = d.receive arrivals := by rw [receive, arrived]
    rcases received : d.receive arrivals with ⟨d', _ | batch, rest⟩
    · rw [receiveAll_of_none (waits.trans received), receiveAll_of_none received]
      rfl
    · have shorter := receive_shorter unclosed received
      rw [receiveAll_of_some (waits.trans received) (Nat.lt_succ_of_lt shorter),
        receiveAll_of_some received shorter]
      rfl
  · have hands : c.receive (a :: arrivals) = (d, some batch, arrivals) := by
      rw [receive, arrived]
      exact congrArg (d, some batch, ·) (if_neg (Bool.eq_false_iff.1 unclosed))
    rw [receiveAll_of_some hands (Nat.lt_succ_self _)]
    rfl

theorem receiveAll_nil {c : Channel} (h : c.closed = false) : c.receiveAll [] = (c, []) := by
  have waits : c.receive [] = (c, none, []) := if_neg (Bool.eq_false_iff.1 h)
  exact receiveAll_of_none waits

/-! ### What waits for a delimiter -/

/-- No delimiter has arrived in what waits for one, and that is not too long. -/
structure Bounded (c : Channel) : Prop extends Listens c where
  opened : Frame.hasDelimiter c.pending = false
  bounded : c.pending.length ≤ maxPending

theorem Bounded.take {c : Channel} (h : c.Bounded) {bs : Bytes} (short : bs.length ≤ readSize) :
    (c.takeOctets bs).1.Bounded := by
  unfold takeOctets
  simp only
  by_cases found : Frame.hasDelimiter (c.pending ++ bs) = true
  · rw [if_pos found]
    have behind := Frame.rest_le_of_found h.opened found
    exact ⟨⟨h.unclosed, h.reader⟩, Frame.split_rest_open _,
      behind.trans (short.trans (by decide))⟩
  · rw [if_neg found]
    by_cases long : maxPending < (c.pending ++ bs).length
    · rw [if_pos long]
      exact ⟨⟨h.unclosed, h.reader⟩, rfl, Nat.zero_le _⟩
    · rw [if_neg long]
      exact ⟨⟨h.unclosed, h.reader⟩, Bool.eq_false_iff.2 found, Nat.le_of_not_lt long⟩

theorem receiveAll_bounded {c : Channel} (h : c.Bounded) {arrivals : List Arrival}
    (reads : ∀ a ∈ arrivals, a.IsRead) : (c.receiveAll arrivals).1.Bounded := by
  induction arrivals generalizing c with
  | nil =>
    rw [receiveAll_nil h.unclosed]
    exact h
  | cons a arrivals ih =>
    obtain ⟨first, others⟩ := List.forall_mem_cons.1 reads
    rw [receiveAll_cons h.unclosed]
    refine ih ?_ others
    cases a with
    | octets bs =>
      rw [h.toListens.arrive_octets]
      exact h.take first.2
    | quiet =>
      rw [h.toListens.arrive_quiet]
      exact h
    | lost | attempt => exact first.elim

theorem Fresh.bounded {c : Channel} (h : c.Fresh) : c.Bounded :=
  ⟨h.toListens, by rw [h.pending]; rfl, by rw [h.pending]; exact Nat.zero_le _⟩

/-! ### What has been handed out -/

/-- From `start` to `c` the channel has taken octets that hold `d`, and has lost none of them. -/
structure Holds (start c : Channel) (d : Frame.Decoded) : Prop extends Listens c where
  pending : c.pending = d.rest
  received : c.received = start.received + d.messages.length
  parseFailures : c.parseFailures = start.parseFailures + d.failures

theorem Fresh.holds {c : Channel} (h : c.Fresh) : Holds c c (Frame.decodeAll []) :=
  ⟨h.toListens, h.pending, rfl, rfl⟩

/-- Octets behind which what waits still fits are taken, and their messages are handed out. -/
theorem Holds.take {start c : Channel} {d : Frame.Decoded} (h : Holds start c d) {bs : Bytes}
    (fits : (Frame.feed d bs).rest.length ≤ maxPending) :
    Holds start (c.takeOctets bs).1 (Frame.feed d bs) ∧
      (Frame.feed d bs).messages = d.messages ++ (c.takeOctets bs).2.toList.flatten := by
  unfold takeOctets
  simp only [h.pending]
  by_cases found : Frame.hasDelimiter (d.rest ++ bs) = true
  · rw [if_pos found]
    refine ⟨⟨⟨h.unclosed, h.reader⟩, rfl, ?_, ?_⟩, ?_⟩
    · show c.received + (Frame.decodeAll (d.rest ++ bs)).messages.length = _
      rw [h.received, Frame.feed, List.length_append, Nat.add_assoc]
    · show c.parseFailures + (Frame.decodeAll (d.rest ++ bs)).failures = _
      rw [h.parseFailures, Frame.feed, Nat.add_assoc]
    · simp [Frame.feed]
  · have opened := Frame.decodeAll_open (Bool.eq_false_iff.2 found)
    rw [Frame.feed, opened] at fits ⊢
    rw [if_neg found, if_neg (Nat.not_lt_of_le fits)]
    exact ⟨⟨⟨h.unclosed, h.reader⟩, rfl, by simpa using h.received, h.parseFailures⟩, rfl⟩

/-- When what waits always fits, the batches are what the stream holds. -/
theorem receiveAll_holds {start c : Channel} {seen : Bytes}
    (h : Holds start c (Frame.decodeAll seen)) {arrivals : List Arrival}
    (reads : ∀ a ∈ arrivals, a.IsRead)
    (fits : ∀ front, front <+: seen ++ stream arrivals →
      (Frame.decodeAll front).rest.length ≤ maxPending) :
    Holds start (c.receiveAll arrivals).1 (Frame.decodeAll (seen ++ stream arrivals)) ∧
      (Frame.decodeAll (seen ++ stream arrivals)).messages =
        (Frame.decodeAll seen).messages ++ (c.receiveAll arrivals).2.flatten := by
  induction arrivals generalizing c seen with
  | nil =>
    rw [receiveAll_nil h.unclosed, stream, List.flatMap_nil, List.append_nil]
    exact ⟨h, (List.append_nil _).symm⟩
  | cons a arrivals ih =>
    obtain ⟨first, others⟩ := List.forall_mem_cons.1 reads
    have whole : seen ++ stream (a :: arrivals) = (seen ++ a.bytes) ++ stream arrivals := by
      rw [stream, List.flatMap_cons, ← List.append_assoc, ← stream]
    rw [whole] at fits ⊢
    rw [receiveAll_cons h.unclosed]
    -- The arrival moves its octets from what is to come to what has been seen.
    obtain ⟨next, batch⟩ : Holds start (c.arrive a).1 (Frame.decodeAll (seen ++ a.bytes)) ∧
        (Frame.decodeAll (seen ++ a.bytes)).messages =
          (Frame.decodeAll seen).messages ++ (c.arrive a).2.toList.flatten := by
      cases a with
      | octets bs =>
        have room := fits (seen ++ bs) (List.prefix_append _ _)
        rw [← Frame.feed_decodeAll] at room
        rw [h.toListens.arrive_octets, Arrival.bytes, ← Frame.feed_decodeAll]
        exact h.take room
      | quiet =>
        rw [h.toListens.arrive_quiet, Arrival.bytes, List.append_nil]
        exact ⟨h, (List.append_nil _).symm⟩
      | lost | attempt => exact first.elim
    obtain ⟨last, batches⟩ := ih next others fits
    refine ⟨last, ?_⟩
    rw [batches, batch, List.flatten_append, List.append_assoc]

/-- What comes of a stream that a channel receives. -/
structure Received (c : Channel) (arrivals : List Arrival) : Prop where
  /-- The batches together are the messages of the stream, in their order. -/
  messages : (c.receiveAll arrivals).2.flatten = (Frame.decodeAll (stream arrivals)).messages
  received : (c.receiveAll arrivals).1.received =
    c.received + (Frame.decodeAll (stream arrivals)).messages.length
  parseFailures : (c.receiveAll arrivals).1.parseFailures =
    c.parseFailures + (Frame.decodeAll (stream arrivals)).failures
  /-- What waits then is what follows the last delimiter. -/
  pending : (c.receiveAll arrivals).1.pending = (Frame.decodeAll (stream arrivals)).rest

/-- **Receiving is bounded, and loses nothing of a stream of short parts.** Whatever arrives, at
every moment at which a read is awaited no more than `maxPending` octets wait for a delimiter; and
when all parts of the stream are shorter, the batches hold what the stream holds, however it was cut
into reads. -/
theorem stream_received {c : Channel} (fresh : c.Fresh) {arrivals : List Arrival}
    (reads : ∀ a ∈ arrivals, a.IsRead) :
    (∀ front, front <+: arrivals → (c.receiveAll front).1.Listens ∧
      (c.receiveAll front).1.pending.length ≤ maxPending) ∧
    ((∀ part ∈ Frame.parts (stream arrivals), part.length < maxPending) →
      c.Received arrivals) := by
  refine ⟨fun front hfront => ?_, fun short => ?_⟩
  · have bounded := receiveAll_bounded fresh.bounded fun a ha => reads a (hfront.subset ha)
    exact ⟨bounded.toListens, bounded.bounded⟩
  · have fits : ∀ front, front <+: [] ++ stream arrivals →
        (Frame.decodeAll front).rest.length ≤ maxPending := by
      rintro front ⟨more, whole⟩
      rw [List.nil_append] at whole
      exact Frame.rest_le_of_parts (whole ▸ short)
    obtain ⟨holds, batches⟩ := receiveAll_holds fresh.holds reads fits
    exact ⟨batches.symm, holds.received, holds.parseFailures, holds.pending⟩

/-- A message whose delimiter comes in two reads, a segment that is no message, and the start of
another. -/
theorem stream_received_split :
    let c := ((new "127.0.0.1:1").connect .accepted).1
    let arrivals : List Arrival := [
      .octets (Text.octets (Message.ping .server).json.text ++ [Frame.dash]), .quiet,
      .octets [Frame.plus, 0x78], .octets (Frame.delimiter ++ [0x7b])]
    c.Fresh ∧ (∀ a ∈ arrivals, a.IsRead) ∧
      (∀ part ∈ Frame.parts (stream arrivals), part.length < maxPending) ∧
      (∀ front, front <+: arrivals → (c.receiveAll front).1.pending.length ≤ maxPending) ∧
      c.Received arrivals ∧ (c.receiveAll arrivals).2.flatten = [Message.ping .server] ∧
      (c.receiveAll arrivals).1.parseFailures = 1 := by
  intro c arrivals
  have fresh : c.Fresh := connect_fresh rfl
  have reads : ∀ a ∈ arrivals, a.IsRead := by
    have written : (Text.octets (Message.ping .server).json.text).length + 1 ≤ readSize := by
      decide +kernel
    simpa [arrivals, Arrival.IsRead, Frame.delimiter, readSize] using written
  have short : ∀ part ∈ Frame.parts (stream arrivals), part.length < maxPending := by
    decide +kernel
  have holds : Frame.decodeAll (stream arrivals) = ⟨[Message.ping .server], 1, [0x7b]⟩ := by
    decide +kernel
  obtain ⟨bounded, lossless⟩ := stream_received fresh reads
  have received := lossless short
  refine ⟨fresh, reads, short, fun front h => (bounded front h).2, received, ?_, ?_⟩
  · rw [received.messages, holds]
  · rw [received.parseFailures, holds]
    rfl

end Channel
end Parley

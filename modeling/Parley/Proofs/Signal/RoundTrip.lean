import Parley.Proofs.Json.Record
import Parley.Proofs.PeerId
import Parley.Proofs.Signal.Frame
/-!
Reading back the messages that were written to a stream.

The delimiter must not stand in the record of a message. Nothing of a record but its payload can
bring it in: the names of the members, the identity and the number of the kind contain no dash, and
the quote behind the payload is no plus. Within the payload, escaping leaves the two characters of
the delimiter as they are and writes nothing else by their octets (`hasDelimiter_escape`). So a
message is refused just when its payload contains the delimiter, and the records of all others are
the segments into which their stream is cut.
-/
namespace Parley
namespace Message

/-- The record of a message is read as the message. -/
theorem ofRaw?_json (m : Message) : ofRaw? m.json.raw = some m := by
  have peer : peerOfRaw? (Json.string m.peer.text).raw = some m.peer := by
    rw [peerOfRaw?, Json.text?_string]
    simp [PeerId.ofText_text]
  have small : m.kind.tag < 256 := by cases m.kind <;> decide
  have kind := Json.nat?_number small
  have data := Json.text?_string m.data
  rw [ofRaw?, json, Json.record?_object ["peer_ID", "message_type", "data"] rfl (by decide)]
  simp [List.lookup_cons, List.lookup_nil, peer, kind, data, MessageKind.ofTag?_tag]

end Message

namespace Frame

/-- **A segment that was written from a message is read as the message.** -/
theorem decode?_text (m : Message) : decode? (Text.octets m.json.text) = some m := by
  rw [decode?, Json.ofBytes?_text, Option.bind_some, m.ofRaw?_json]

/-! ### Where a delimiter may stand -/

theorem hasDelimiter_front {front : Bytes} (h : dash ∉ front) (bs : Bytes) :
    hasDelimiter (front ++ bs) = hasDelimiter bs := by
  induction front with
  | nil => rfl
  | cons b front ih =>
    have hb : b ≠ dash := (List.ne_of_not_mem_cons h).symm
    rw [List.cons_append, hasDelimiter_cons, ih (List.not_mem_of_not_mem_cons h),
      beq_false_of_ne hb]
    rfl

theorem hasDelimiter_back {back : Bytes} (h : plus ∉ back) (bs : Bytes) :
    hasDelimiter (bs ++ back) = hasDelimiter bs := by
  have closed : ∀ bs : Bytes, plus ∉ bs → hasDelimiter bs = false := by
    intro bs hbs
    cases hd : hasDelimiter bs with
    | false => rfl
    | true =>
      obtain ⟨i, -, hplus⟩ := hasDelimiter_iff.1 hd
      exact absurd (List.mem_of_getElem? hplus) hbs
  induction bs with
  | nil => exact closed back h
  | cons b bs ih =>
    rw [List.cons_append, hasDelimiter_cons, hasDelimiter_cons, ih]
    cases bs with
    | nil =>
      have first : (back.head? == some plus) = false :=
        beq_false_of_ne fun hhead => h (List.mem_of_mem_head? hhead)
      rw [List.nil_append, first]
      rfl
    | cons => rfl

/-- The octets of a character inside of a literal. -/
def escaped (c : Char) : Bytes := (Json.escapeChar c).flatMap String.utf8EncodeChar

theorem escaped_dash : escaped '-' = [dash] := by decide

theorem escaped_plus : escaped '+' = [plus] := by decide

/-- Neither octet of the delimiter is written for another character. -/
theorem mem_escaped {c : Char} {b : UInt8} (hb : b ∈ escaped c) (hdelimiter : b ∈ delimiter) :
    c = Char.ofNat b.toNat := by
  have low : ∀ n : Fin 128, ∀ b ∈ delimiter, b ∈ escaped (Char.ofNat n) →
      Char.ofNat n = Char.ofNat b.toNat := by decide +kernel
  by_cases hc : c.toNat < 0x80
  · have known := low ⟨c.toNat, hc⟩ b hdelimiter
    rw [Char.ofNat_toNat] at known
    exact known hb
  · have self : Json.escapeChar c = [c] := by
      have hquote : c ≠ '"' := by
        rintro rfl
        exact hc (by decide)
      have hbackslash : c ≠ '\\' := by
        rintro rfl
        exact hc (by decide)
      rw [Json.escapeChar, if_neg hquote, if_neg hbackslash, if_pos (by omega)]
    rw [escaped, self, List.flatMap_singleton] at hb
    have high := Text.utf8EncodeChar_high (Nat.not_lt.1 hc) hb
    have short : ∀ b ∈ delimiter, b.toNat < 0x80 := by simp [delimiter, dash, plus]
    exact absurd (short b hdelimiter) (Nat.not_lt.2 high)

theorem escaped_ne_nil (c : Char) : escaped c ≠ [] := by
  intro h
  have spells := Json.spells_escapeChar c
  rw [show (Json.escapeChar c).flatMap String.utf8EncodeChar = [] from h] at spells
  have length := String.length_utf8EncodeChar c
  generalize String.utf8EncodeChar c = text at spells length
  cases spells
  exact absurd c.utf8Size_pos (by simp [← length])

theorem octets_escape (s : String) : Text.octets (Json.escape s) = s.toList.flatMap escaped := by
  rw [Json.escape, Text.octets_ofList, List.flatMap_assoc]
  rfl

theorem dash_escape {s : String} (h : '-' ∉ s.toList) : dash ∉ Text.octets (Json.escape s) := by
  rw [octets_escape]
  intro hdash
  obtain ⟨c, hc, hb⟩ := List.mem_flatMap.1 hdash
  rw [mem_escaped hb (by decide)] at hc
  exact h hc

theorem head?_escaped (cs : List Char) :
    (cs.flatMap escaped).head? = some plus ↔ ['+'] <+: cs := by
  cases cs with
  | nil => simp
  | cons c cs =>
    obtain ⟨b, bs, hbs⟩ := List.exists_cons_of_ne_nil (escaped_ne_nil c)
    rw [List.flatMap_cons, List.cons_prefix_cons, hbs]
    simp only [List.cons_append, List.head?_cons, Option.some.injEq, List.nil_prefix, and_true]
    constructor
    · rintro rfl
      exact (mem_escaped (hbs ▸ List.mem_cons_self ..) (by decide)).symm
    · rintro rfl
      rw [escaped_plus] at hbs
      exact (List.cons.inj hbs).1.symm

/-- **Escaping neither makes a delimiter nor hides one.** -/
theorem hasDelimiter_escape (s : String) :
    hasDelimiter (Text.octets (Json.escape s)) = true ↔ ['-', '+'] <:+: s.toList := by
  rw [octets_escape]
  induction s.toList with
  | nil => simp [hasDelimiter]
  | cons c cs ih =>
    rw [List.flatMap_cons, List.infix_cons_iff, List.cons_prefix_cons, ← ih, ← head?_escaped]
    by_cases hc : c = '-'
    · subst hc
      rw [escaped_dash, List.singleton_append, hasDelimiter_cons]
      simp
    · have plain : dash ∉ escaped c := fun h => hc (mem_escaped h (by decide))
      rw [hasDelimiter_front plain]
      simp [Ne.symm hc]

/-- What stands around the payload in the record of a message. -/
theorem text_parts (m : Message) : ∃ front back, Text.octets m.json.text =
    front ++ (Text.octets (Json.escape m.data) ++ back) ∧ dash ∉ front ∧ plus ∉ back := by
  have identity : dash ∉ Text.octets (Json.escape m.peer.text) :=
    dash_escape (Base64.dash_text m.peer.bytes)
  have number : dash ∉ Text.octets m.kind.tag.repr := by cases m.kind <;> decide +kernel
  refine ⟨0x7b :: Json.quote :: (Text.octets (Json.escape "peer_ID") ++ Json.quote :: 0x3a ::
      Json.quote :: (Text.octets (Json.escape m.peer.text) ++ Json.quote :: 0x2c :: Json.quote ::
        (Text.octets (Json.escape "message_type") ++ Json.quote :: 0x3a ::
          (Text.octets m.kind.tag.repr ++ 0x2c :: Json.quote ::
            (Text.octets (Json.escape "data") ++ [Json.quote, 0x3a, Json.quote]))))),
    [Json.quote, 0x7d], ?_, ?_, by decide⟩
  · rw [Message.json, Json.text, Text.octets_append, Text.octets_append]
    simp only [Json.membersText_cons, Json.text, Json.octets_literal]
    simp
    rfl
  · have names : dash ∉ Text.octets (Json.escape "peer_ID") ∧
        dash ∉ Text.octets (Json.escape "message_type") ∧ dash ∉ Text.octets (Json.escape "data") :=
      ⟨dash_escape (by decide), dash_escape (by decide), dash_escape (by decide)⟩
    have marks : dash ≠ 0x7b ∧ dash ≠ Json.quote ∧ dash ≠ 0x3a ∧ dash ≠ 0x2c := by decide
    simp [identity, number, names, marks]

/-- The record of a message contains the delimiter just when the payload does. -/
theorem hasDelimiter_text (m : Message) :
    hasDelimiter (Text.octets m.json.text) = true ↔ ['-', '+'] <:+: m.data.toList := by
  obtain ⟨front, back, htext, hfront, hback⟩ := text_parts m
  rw [htext, hasDelimiter_front hfront, hasDelimiter_back hback, hasDelimiter_escape]

/-! ### Writing and reading -/

/-- What is written for a message, and what its record does not contain then. -/
theorem encode_eq_ok {m : Message} {frame : Bytes} (h : encode m = .ok frame) :
    frame = Text.octets m.json.text ++ delimiter ∧
      hasDelimiter (Text.octets m.json.text) = false := by
  simp only [encode] at h
  split at h
  · cases h
  · rename_i hopen
    cases h
    exact ⟨rfl, by simpa using hopen⟩

theorem encode_eq_error (m : Message) :
    (∃ e, encode m = .error e) ↔ ['-', '+'] <:+: m.data.toList := by
  rw [← hasDelimiter_text, encode]
  split
  · rename_i hdelimiter
    exact iff_of_true ⟨_, rfl⟩ hdelimiter
  · rename_i hopen
    exact iff_of_false nofun hopen

/-- The records of messages are the segments of their stream. -/
theorem frames_cut {ms : List Message} {frames : List Bytes} (h : ms.mapM encode = .ok frames) :
    ∃ segments, Cut frames.flatten segments [] ∧ Reads segments ms 0 := by
  induction ms generalizing frames with
  | nil =>
    cases h
    exact ⟨[], .rest fun i hi => by simpa using hi.lt, .nil⟩
  | cons m ms ih =>
    rw [List.mapM_cons] at h
    cases hframe : encode m with
    | error e => simp [hframe, bind, Except.bind] at h
    | ok frame =>
      cases hframes : ms.mapM encode with
      | error e => simp [hframe, hframes, bind, Except.bind] at h
      | ok frames' =>
        simp only [hframe, hframes, bind, Except.bind, pure, Except.pure, Except.ok.injEq] at h
        subst h
        obtain ⟨rfl, hopen⟩ := encode_eq_ok hframe
        obtain ⟨segments, hcut, hreads⟩ := ih hframes
        obtain ⟨b, bs, hstart, -⟩ := Json.text_starts m.json
        rw [List.flatten_cons]
        exact ⟨_, .segment (delimiter_first hopen _) hcut,
          .message (by simp [hstart]) (decode?_text m) hreads⟩

/-- **What is written is read back, and what cannot be is refused.** A message is refused just when
its payload contains the delimiter; the stream of all that are written holds them in their order,
and nothing else. -/
theorem decodeAll_encode :
    (∀ m, (∃ e, encode m = .error e) ↔ ['-', '+'] <:+: m.data.toList) ∧
    ∀ ms frames, ms.mapM encode = .ok frames → decodeAll frames.flatten = ⟨ms, 0, []⟩ :=
  ⟨encode_eq_error, fun _ _ h => decodeAll_eq_iff.2 (frames_cut h)⟩

/-- Two messages are read back from one stream, one of them with a payload that has to be escaped,
and a payload with the delimiter in it is refused. -/
theorem decodeAll_encode_two :
    let ms : List Message := [.ping .server, ⟨.filled 0, .gameAd, "-\"-\n+\\é"⟩]
    (∃ frames, ms.mapM encode = .ok frames ∧ decodeAll frames.flatten = ⟨ms, 0, []⟩) ∧
      ∃ e, encode ⟨.server, .gameAd, "a-+b"⟩ = .error e := by
  intro ms
  have written : ms.mapM encode =
      .ok (ms.map fun m => Text.octets m.json.text ++ delimiter) := by decide +kernel
  exact ⟨⟨_, written, decodeAll_encode.2 ms _ written⟩, (decodeAll_encode.1 _).2 (by decide)⟩

end Frame
end Parley

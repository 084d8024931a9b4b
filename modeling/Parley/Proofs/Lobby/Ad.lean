import Parley.Lobby.Ad
import Parley.Proofs.Binary
import Parley.Proofs.PeerId
import Parley.Proofs.Text.Clip
/-!
What an advertisement becomes on its way through a payload.

The writer puts every part in whole, and the reader cuts what it has read. So a payload is read
back for an advertisement of any size, as the advertisement within its bounds
(`ofPayload_payload`), and what has been read is within them already: for that, the way through a
payload changes nothing. `payload_round_trip` says both, without saying how a text is cut.

A part is written behind its length, a number of eight octets. `Measured` asks for no more than
that the lengths of the parts are such numbers, as those of all that fits into a memory are.
-/
namespace Parley.Ad

/-- The length of each part is a number of eight octets. -/
structure Measured (ad : Ad) : Prop where
  name : ad.name.utf8ByteSize < Bytes.capacity 8
  stat : ad.stat.utf8ByteSize < Bytes.capacity 8
  extra : ad.extra.length < Bytes.capacity 8

/-- Every part is within its bound. -/
structure Within (ad : Ad) : Prop where
  name : ad.name.utf8ByteSize ≤ maxName
  stat : ad.stat.utf8ByteSize ≤ maxStat
  extra : ad.extra.length ≤ maxExtra

theorem Within.measured {ad : Ad} (h : ad.Within) : ad.Measured :=
  ⟨h.name.trans_lt (by decide), h.stat.trans_lt (by decide), h.extra.trans_lt (by decide)⟩

/-- What is within the bounds is left as it is. -/
theorem Within.bound {ad : Ad} (h : ad.Within) : ad.bound = ad := by
  rw [Ad.bound, Text.clip, if_pos h.name, Text.clip, if_pos h.stat, List.take_of_length_le h.extra]

theorem bound_within (ad : Ad) : ad.bound.Within :=
  ⟨(Text.clip_clipped maxName ad.name).fits, (Text.clip_clipped maxStat ad.stat).fits,
    List.length_take_le ..⟩

/-! ### The record -/

theorem getPeer_putText (id : PeerId) (rest : Bytes) :
    getPeer (Binary.putText id.text ++ rest) = some (id, rest) := by
  have short : id.text.utf8ByteSize < Bytes.capacity 8 := by
    rw [PeerId.utf8ByteSize_text]
    decide
  simp [getPeer, Binary.getText_putText short, PeerId.ofText_text]

/-- The record of an advertisement is read as the advertisement, but for when it was seen. -/
theorem ofRecord?_record {ad : Ad} (h : ad.Measured) :
    ofRecord? ad.record = some { ad with lastSeen := none } := by
  have last : Binary.getUInt32 (Binary.putUInt32 ad.product) = some (ad.product, []) := by
    have read := Binary.getUInt32_putUInt32 ad.product []
    rwa [List.append_nil] at read
  simp only [record, List.append_assoc, ofRecord?, getPeer_putText, Binary.getUInt32_putUInt32,
    Binary.getText_putText h.name, Binary.getText_putText h.stat,
    Binary.getBytes_putBytes h.extra, last, Option.bind_eq_bind, Option.bind_some, Option.pure_def]

/-- No record says when its advertisement was seen. -/
theorem lastSeen_of_ofRecord? {bs : Bytes} {ad : Ad} (h : ofRecord? bs = some ad) :
    ad.lastSeen = none := by
  simp only [ofRecord?, Option.bind_eq_bind, Option.bind_eq_some_iff, Option.pure_def,
    Option.some.injEq] at h
  obtain ⟨_, _, _, _, _, _, _, _, _, _, _, _, _, _, _, _, rfl⟩ := h
  rfl

/-! ### The payload -/

/-- A payload is read back as the advertisement within its bounds. -/
theorem ofPayload_payload {ad : Ad} (h : ad.Measured) :
    ofPayload ad.payload = .ok { ad.bound with lastSeen := none } := by
  simp only [ofPayload, payload, Base64.trim_text, Base64.ofText?_text, ofRecord?_record h, bound]

theorem ofPayload_eq_ok {s : String} {ad : Ad} (h : ofPayload s = .ok ad) :
    ∃ raw : Ad, raw.lastSeen = none ∧ raw.bound = ad := by
  unfold ofPayload at h
  split at h
  · cases h
  · split at h
    · cases h
    · rename_i raw read
      cases h
      exact ⟨raw, lastSeen_of_ofRecord? read, rfl⟩

/-- **A payload is read back as its advertisement, cut to the bounds.** Of the name and the line of
settings the reader has the longest runs of whole characters of at most 128 octets, of the extra
data the first 128 octets, and everything else as it was, but for when it was seen. And what any
text is read as is within the bounds, and its own payload is read back as just that. -/
theorem payload_round_trip :
    (∀ ad : Ad, ad.Measured → ∃ name stat : String,
      Text.Clipped 128 ad.name name ∧ Text.Clipped 128 ad.stat stat ∧
        ofPayload ad.payload =
          .ok { ad with name, stat, extra := ad.extra.take 128, lastSeen := none }) ∧
    ∀ (s : String) (ad : Ad), ofPayload s = .ok ad →
      ad.name.utf8ByteSize ≤ 128 ∧ ad.stat.utf8ByteSize ≤ 128 ∧ ad.extra.length ≤ 128 ∧
        ofPayload ad.payload = .ok ad := by
  refine ⟨fun ad measured => ?_, fun s ad read => ?_⟩
  · exact ⟨_, _, Text.clip_clipped 128 ad.name, Text.clip_clipped 128 ad.stat,
      ofPayload_payload measured⟩
  · obtain ⟨raw, unseen, rfl⟩ := ofPayload_eq_ok read
    have within := raw.bound_within
    have again := ofPayload_payload within.measured
    rw [within.bound] at again
    have kept : { raw.bound with lastSeen := none } = raw.bound := by
      rw [← unseen]
      rfl
    exact ⟨within.name, within.stat, within.extra, again.trans (congrArg _ kept)⟩

/-- An advertisement over the bounds, with two octets for the character at the cut of its name. -/
def oversized : Ad where
  host := .filled 5
  index := 3
  state := inProgressState
  name := String.ofList ('n' :: List.replicate 64 'é')
  stat := "1,2,3"
  extra := List.replicate 129 7
  version := 7
  product := 42
  lastSeen := some 1000

/-- Of a name that is cut in the middle of a character the reader has what is before it. -/
theorem payload_round_trip_oversized :
    ∃ read : Ad, ofPayload oversized.payload = .ok read ∧ read.name.utf8ByteSize ≤ 128 ∧
      Text.Clipped 128 oversized.name read.name ∧ ofPayload read.payload = .ok read := by
  have measured : oversized.Measured :=
    ⟨by decide +kernel, by decide +kernel, by decide +kernel⟩
  obtain ⟨name, stat, cut, _, read⟩ := payload_round_trip.1 oversized measured
  obtain ⟨short, _, _, again⟩ := payload_round_trip.2 _ _ read
  exact ⟨_, read, short, cut, again⟩

example : oversized.bound.name = String.ofList ('n' :: List.replicate 63 'é') := by
  decide +kernel

end Parley.Ad

import Parley.Link.Negotiation
import Parley.Proofs.Net.Text
import Parley.Proofs.Signal.RoundTrip
/-!
Texts in which no dash stands.

The delimiter of the stream starts with a dash, so a message whose payload has none is always
written (`Frame.encode_undashed`). What the payloads of negotiations are made of has none: numbers,
addresses, the names of kinds and of members, and whatever JSON makes of these. The one text of a
candidate that a peer could choose is its foundation; `Candidate.new` makes it of the kind and the
address.
-/
namespace Parley

/-- No dash stands in the text. -/
def Text.Undashed (s : String) : Prop := '-' ∉ s.toList

namespace Text

instance (s : String) : Decidable (Undashed s) := inferInstanceAs (Decidable ('-' ∉ s.toList))

theorem Undashed.append {s t : String} (hs : Undashed s) (ht : Undashed t) :
    Undashed (s ++ t) := by
  rw [Undashed, String.toList_append, List.mem_append]
  exact not_or.2 ⟨hs, ht⟩

theorem dash_toDigits {radix : Nat} (h : 1 < radix) (hradix : radix ≤ 16) (n : Nat) :
    '-' ∉ Nat.toDigits radix n := by
  have all : ∀ d : Fin 16, Nat.digitChar d ≠ '-' := by decide
  intro hdash
  obtain ⟨d, hd, hchar⟩ := exists_digit_of_mem_toDigits h hdash
  exact all ⟨d, hd.trans_le hradix⟩ hchar

theorem undashed_toString (n : Nat) : Undashed (toString n) := by
  show '-' ∉ n.repr.toList
  rw [Nat.toList_repr]
  exact dash_toDigits (by decide) (by decide) n

end Text

/-- **A message whose payload has no dash is written.** -/
theorem Frame.encode_undashed {m : Message} (h : Text.Undashed m.data) :
    ∃ frame, encode m = .ok frame := by
  cases written : encode m with
  | ok frame => exact ⟨frame, rfl⟩
  | error e => exact absurd (((encode_eq_error m).1 ⟨e, written⟩).subset (by simp)) h

/-! ### Documents -/

namespace Json
open Text

theorem undashed_literal {s : String} (h : Undashed s) : Undashed (literal s) := by
  have quoted : Undashed "\"" := by decide
  have inside : Undashed (escape s) := by
    intro hdash
    refine Frame.dash_escape h ?_
    rw [octets_eq]
    exact List.mem_flatMap.2 ⟨'-', hdash, by decide⟩
  exact (quoted.append inside).append quoted

theorem undashed_itemsText {items : List Json} (h : ∀ item ∈ items, Undashed item.text) :
    Undashed (itemsText items) := by
  induction items with
  | nil => exact List.not_mem_nil
  | cons item items ih =>
    obtain ⟨first, rest⟩ := List.forall_mem_cons.1 h
    cases items with
    | nil => exact first
    | cons => exact (first.append (by decide : Undashed ",")).append (ih rest)

/-- No dash stands in the name of a member nor in its value. -/
def UndashedMember (m : String × Json) : Prop := Undashed m.1 ∧ Undashed m.2.text

theorem undashed_member {key : String} {value : Json} (name : Undashed key)
    (h : Undashed value.text) : UndashedMember (key, value) := ⟨name, h⟩

theorem undashed_membersText {members : List (String × Json)}
    (h : ∀ m ∈ members, UndashedMember m) : Undashed (membersText members) := by
  induction members with
  | nil => exact List.not_mem_nil
  | cons m members ih =>
    obtain ⟨⟨key, value⟩, rest⟩ := List.forall_mem_cons.1 h
    have first := ((undashed_literal key).append (by decide : Undashed ":")).append value
    cases members with
    | nil => exact first
    | cons => exact (first.append (by decide : Undashed ",")).append (ih rest)

theorem undashed_array {items : List Json} (h : ∀ item ∈ items, Undashed item.text) :
    Undashed (array items).text := by
  rw [text]
  exact (Undashed.append (by decide) (undashed_itemsText h)).append (by decide)

theorem undashed_object {members : List (String × Json)} (h : ∀ m ∈ members, UndashedMember m) :
    Undashed (object members).text := by
  rw [text]
  exact (Undashed.append (by decide) (undashed_membersText h)).append (by decide)

end Json

/-! ### Addresses -/

section Addresses
open Text

theorem Ipv4.undashed_text (ip : Ipv4) : Undashed ip.text := by
  have digits (n : Nat) : '-' ∉ Nat.toDigits 10 n := dash_toDigits (by decide) (by decide) n
  rw [Undashed, Net.ipv4_text_toList]
  simp [digits]

theorem Ipv6.undashed_groupsText (gs : List Nat) : Undashed (groupsText gs) := by
  have digits (n : Nat) : '-' ∉ Nat.toDigits 16 n := dash_toDigits (by decide) (by decide) n
  cases gs with
  | nil => exact List.not_mem_nil
  | cons g gs =>
    rw [Undashed, Net.groupsText_cons, Net.joined]
    simp [digits]

theorem Ipv6.undashed_text (ip : Ipv6) : Undashed ip.text := by
  unfold Ipv6.text
  split
  · exact Undashed.append (by decide) (Ipv4.undashed_text _)
  · simp only
    split
    · exact ((undashed_groupsText _).append (by decide)).append (undashed_groupsText _)
    · exact undashed_groupsText _

theorem IpAddress.undashed_text (ip : IpAddress) : Undashed ip.text := by
  cases ip with
  | v4 ip => exact ip.undashed_text
  | v6 ip => exact ip.undashed_text

theorem SocketAddress.undashed_text (address : SocketAddress) : Undashed address.text := by
  cases address with
  | v4 ip port => exact (ip.undashed_text.append (by decide)).append (undashed_toString _)
  | v6 ip port flow scope =>
    have start : Undashed ("[" ++ ip.text) := Undashed.append (by decide) ip.undashed_text
    rw [SocketAddress.text]
    split
    · exact (start.append (by decide)).append (undashed_toString _)
    · have whole := (start.append (by decide : Undashed "%")).append (undashed_toString scope.toNat)
      exact (whole.append (by decide)).append (undashed_toString _)

end Addresses
end Parley

import Parley.Proofs.PeerId
import Mathlib.Order.Basic
/-!
A list of peers is cut by their texts.

What stands at the `i`-th place of a list is decided by the `i`-th piece of its octets alone
(`getElem?_readList`), and a piece names an identity when it is the identity's own text: one with
blank characters in it is too short for any (`readPiece_eq_ok_iff`). `cut_by_text` is what follows
for a whole list, with bad pieces in it and a fragment behind it.
-/
namespace Parley

namespace PeerId

/-! ### Pieces -/

section Pieces
variable {size : Nat} (positive : 0 < size)
include positive

/-- There is a piece for each complete one. -/
theorem getElem?_pieces {fuel : Nat} {bs : Bytes} (enough : bs.length ≤ fuel) (i : Nat) :
    (pieces size fuel bs)[i]? =
      if size * (i + 1) ≤ bs.length then some ((bs.drop (size * i)).take size) else none := by
  induction fuel generalizing bs i with
  | zero =>
    have short : ¬size * (i + 1) ≤ bs.length := by
      have : size ≤ size * (i + 1) := Nat.le_mul_of_pos_right size i.succ_pos
      omega
    rw [pieces, if_neg short, List.getElem?_nil]
  | succ fuel ih =>
    simp only [pieces, List.length_take]
    split
    · rename_i complete
      cases i with
      | zero => rw [List.getElem?_cons_zero, if_pos (by omega), Nat.mul_zero, List.drop_zero]
      | succ i =>
        have rest : (bs.drop size).length ≤ fuel := by
          rw [List.length_drop]
          omega
        have next : size * (i + 1) ≤ bs.length - size ↔ size * (i + 1 + 1) ≤ bs.length := by
          rw [Nat.mul_succ size (i + 1)]
          omega
        have place : size + size * i = size * (i + 1) := by rw [Nat.mul_succ, Nat.add_comm]
        rw [List.getElem?_cons_succ, ih rest, List.drop_drop, List.length_drop, place,
          if_congr next rfl rfl]
    · rename_i incomplete
      have short : ¬size * (i + 1) ≤ bs.length := by
        have : size ≤ size * (i + 1) := Nat.le_mul_of_pos_right size i.succ_pos
        omega
      rw [if_neg short, List.getElem?_nil]

theorem length_pieces {fuel : Nat} {bs : Bytes} (enough : bs.length ≤ fuel) :
    (pieces size fuel bs).length = bs.length / size := by
  refine eq_of_forall_ge_iff fun i => ?_
  have incomplete : ¬size * (i + 1) ≤ bs.length ↔ bs.length / size ≤ i := by
    rw [not_le, ← Nat.lt_succ_iff, Nat.div_lt_iff_lt_mul positive, Nat.mul_comm]
  rw [← List.getElem?_eq_none_iff, getElem?_pieces positive enough, ite_eq_right_iff, ← incomplete]
  exact ⟨fun h complete => absurd (h complete) nofun, fun h complete => absurd complete h⟩

end Pieces

/-- The octets at the `i`-th place of a list of peers. -/
def piece (s : String) (i : Nat) : Bytes := ((Text.octets s).drop (textLength * i)).take textLength

/-- What a piece names. -/
def readPiece (octets : Bytes) : Except Error PeerId :=
  match Text.ofOctets? octets with
  | some t => ofText t
  | none => .error .invalidText

theorem readList_eq (s : String) :
    readList s = (pieces textLength (Text.octets s).length (Text.octets s)).map readPiece := rfl

/-- What stands in a list is what its pieces name, as far as they are complete. -/
theorem getElem?_readList (s : String) (i : Nat) : (readList s)[i]? =
    if (piece s i).length = textLength then some (readPiece (piece s i)) else none := by
  have positive : 0 < textLength := by decide
  have complete : textLength * (i + 1) ≤ (Text.octets s).length ↔
      (piece s i).length = textLength := by
    rw [piece, List.length_take, List.length_drop, Nat.mul_succ]
    omega
  rw [readList_eq, List.getElem?_map, getElem?_pieces positive (Nat.le_refl _),
    if_congr complete rfl rfl]
  split <;> rfl

/-- A complete piece names an identity when it is the identity's text. -/
theorem readPiece_eq_ok_iff {bs : Bytes} (complete : bs.length = textLength) {id : PeerId} :
    readPiece bs = .ok id ↔ bs = Text.octets id.text := by
  constructor
  · intro h
    unfold readPiece at h
    split at h
    · rename_i t ht
      obtain ⟨front, back, -, -, rfl⟩ := ofText_eq_ok_iff.1 h
      have octets := Text.octets_of_ofOctets? ht
      -- The text takes all of the piece, so nothing is left for blank characters.
      have whole := congrArg List.length octets
      rw [complete, Text.length_octets, String.utf8ByteSize_append, String.utf8ByteSize_append,
        utf8ByteSize_text] at whole
      obtain rfl : front = "" := String.utf8ByteSize_eq_zero_iff.1 (by omega)
      obtain rfl : back = "" := String.utf8ByteSize_eq_zero_iff.1 (by omega)
      rw [← octets, String.empty_append, String.append_empty]
    · cases h
  · rintro rfl
    rw [readPiece, Text.ofOctets?_octets]
    exact ofText_text id

/-! ### Lists -/

theorem length_readList (s : String) : (readList s).length = s.utf8ByteSize / textLength := by
  rw [readList_eq, List.length_map, length_pieces (by decide) (Nat.le_refl _), Text.length_octets]

theorem length_piece (s : String) (i : Nat) :
    (piece s i).length = min textLength (s.utf8ByteSize - textLength * i) := by
  rw [piece, List.length_take, List.length_drop, Text.length_octets]

/-- The place of an identity in a list is where its text stands among the octets. -/
theorem getElem?_readList_eq_ok_iff (s : String) (i : Nat) (id : PeerId) :
    (readList s)[i]? = some (.ok id) ↔ piece s i = Text.octets id.text := by
  rw [getElem?_readList]
  split
  · rename_i complete
    rw [Option.some.injEq, readPiece_eq_ok_iff complete]
  · rename_i incomplete
    refine iff_of_false nofun fun named => incomplete ?_
    rw [named, Text.length_octets, utf8ByteSize_text]

/-- A list that starts with an identity goes on as the list behind it. -/
theorem readList_text_append (id : PeerId) (s : String) :
    readList (id.text ++ s) = .ok id :: readList s := by
  have size : (Text.octets id.text).length = textLength := id.utf8ByteSize_text
  refine List.ext_getElem? fun i => ?_
  cases i with
  | zero =>
    rw [List.getElem?_cons_zero, getElem?_readList_eq_ok_iff, piece, Nat.mul_zero, List.drop_zero,
      Text.octets_append, List.take_left' size]
  | succ i =>
    have next : piece (id.text ++ s) (i + 1) = piece s i := by
      rw [piece, Text.octets_append, Nat.mul_succ, Nat.add_comm, ← List.drop_drop,
        List.drop_left' size, piece]
    rw [List.getElem?_cons_succ, getElem?_readList, getElem?_readList, next]

theorem readList_join (ids : List PeerId) :
    readList (String.join (ids.map text)) = ids.map .ok := by
  induction ids with
  | nil => rfl
  | cons id ids ih => rw [List.map_cons, String.join_cons, readList_text_append, ih, List.map_cons]

/-- Behind complete pieces a fragment adds nothing. -/
theorem readList_append_fragment {s t : String} (complete : textLength ∣ s.utf8ByteSize)
    (fragment : t.utf8ByteSize < textLength) : readList (s ++ t) = readList s := by
  refine List.ext_getElem? fun i => ?_
  rw [getElem?_readList, getElem?_readList]
  by_cases inside : textLength * (i + 1) ≤ s.utf8ByteSize
  · have same : piece (s ++ t) i = piece s i := by
      rw [← Text.length_octets, Nat.mul_succ] at inside
      rw [piece, Text.octets_append, List.drop_append_of_le_length (by omega),
        List.take_append_of_le_length (by rw [List.length_drop]; omega), piece]
    rw [same]
  · have short : s.utf8ByteSize ≤ textLength * i := by
      obtain ⟨n, hn⟩ := complete
      rw [hn] at inside ⊢
      exact Nat.mul_le_mul_left _ (Nat.le_of_lt_succ (Nat.lt_of_mul_lt_mul_left (not_le.1 inside)))
    rw [if_neg (by rw [length_piece, String.utf8ByteSize_append]; omega),
      if_neg (by rw [length_piece]; omega)]

/-- **Identities have one text each, and a list of peers is cut by it.** A text names an identity
when it is the identity's own, which is twenty-four characters long, with blank characters around
it. A list has one result for each complete piece, which names an identity when it is the
identity's text; so the texts of identities are read as just these, what stands at one place says
nothing of what stands at another, and a fragment at the end is left out. -/
theorem cut_by_text :
    (∀ (s : String) (id : PeerId), ofText s = .ok id ↔
      ∃ front back, Text.Blanks front ∧ Text.Blanks back ∧ s = front ++ id.text ++ back) ∧
    (∀ id : PeerId, id.text.length = textLength) ∧
    (∀ s : String, (readList s).length = s.utf8ByteSize / textLength ∧
      ∀ (i : Nat) (id : PeerId),
        (readList s)[i]? = some (.ok id) ↔ piece s i = Text.octets id.text) ∧
    (∀ ids : List PeerId, readList (String.join (ids.map text)) = ids.map .ok) ∧
    (∀ (s t : String) (i : Nat), piece s i = piece t i → (readList s)[i]? = (readList t)[i]?) ∧
    (∀ s t : String, textLength ∣ s.utf8ByteSize → t.utf8ByteSize < textLength →
      readList (s ++ t) = readList s) :=
  ⟨fun _ _ => ofText_eq_ok_iff, length_text,
    fun s => ⟨length_readList s, getElem?_readList_eq_ok_iff s⟩, readList_join,
    fun s t i same => by rw [getElem?_readList, getElem?_readList, same],
    fun _ _ => readList_append_fragment⟩

/-- A piece that is no text and a fragment behind the last piece leave the identities around them
as they are. -/
theorem cut_by_text_around_bad :
    let one := filled 1
    let three := filled 3
    let good := String.join ([one, filled 2, three].map text)
    let spoiled := one.text ++ "########################" ++ three.text
    (piece spoiled 0 = piece good 0 ∧ piece spoiled 2 = piece good 2) ∧
      textLength ∣ spoiled.utf8ByteSize ∧ "AAAA".utf8ByteSize < textLength ∧
      (readList good = [.ok one, .ok (filled 2), .ok three] ∧
        readList (spoiled ++ "AAAA") = readList spoiled ∧
        (readList spoiled)[0]? = (readList good)[0]? ∧
        (readList spoiled)[2]? = (readList good)[2]?) := by
  intro one three good spoiled
  have first : piece spoiled 0 = piece good 0 := by decide +kernel
  have last : piece spoiled 2 = piece good 2 := by decide +kernel
  have complete : textLength ∣ spoiled.utf8ByteSize := by decide +kernel
  have fragment : "AAAA".utf8ByteSize < textLength := by decide +kernel
  obtain ⟨-, -, -, texts, places, behind⟩ := cut_by_text
  exact ⟨⟨first, last⟩, complete, fragment, texts [one, filled 2, three],
    behind spoiled "AAAA" complete fragment, places spoiled good 0 first,
    places spoiled good 2 last⟩

end PeerId
end Parley

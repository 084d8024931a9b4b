import Parley.PeerId
import Parley.Proofs.Base64
import Parley.Proofs.Text.Blank
/-!
The text of an identity, and the order of identities.

The text is base64, which has no blank characters that a reader would leave out. It is always
twenty-four octets long, which is what a list of texts with nothing between them relies on.

Of two identities that differ exactly one is above the other.
-/
namespace Parley

theorem Base64.solid_text (bs : Bytes) : ∀ c ∈ (text bs).toList, Text.isBlank c = false := by
  rw [text, String.toList_ofList]
  exact forall_mem_encode (by decide) (by decide) bs

theorem Base64.trim_text (bs : Bytes) : Text.trim (text bs) = text bs :=
  (Text.trim_eq_iff (solid_text bs)).2 ⟨"", "", nofun, nofun, by simp⟩

namespace PeerId

theorem ofBytes_eq_ok_iff {bs : Bytes} {id : PeerId} : ofBytes bs = .ok id ↔ bs = id.bytes := by
  unfold ofBytes
  split
  · rw [Except.ok.injEq]
    exact ⟨fun h => congrArg bytes h, fun h => ext_bytes h⟩
  · rename_i hlength
    refine iff_of_false nofun ?_
    rintro rfl
    exact hlength id.length_bytes

/-- A text names an identity when it is the identity's own text, with blank characters around it. -/
theorem ofText_eq_ok_iff {s : String} {id : PeerId} : ofText s = .ok id ↔
    ∃ front back, Text.Blanks front ∧ Text.Blanks back ∧ s = front ++ id.text ++ back := by
  rw [text, ← Text.trim_eq_iff (Base64.solid_text id.bytes), ← Base64.ofText?_eq_some_iff, ofText]
  cases Base64.ofText? (Text.trim s) with
  | none => exact iff_of_false nofun nofun
  | some bs => rw [ofBytes_eq_ok_iff, Option.some.injEq]

/-- **The text of an identity names the identity.** -/
theorem ofText_text (id : PeerId) : ofText id.text = .ok id :=
  ofText_eq_ok_iff.2 ⟨"", "", nofun, nofun, by simp⟩

/-- The text of an identity is twenty-four characters long. -/
theorem length_text (id : PeerId) : id.text.length = textLength := by
  rw [text, Base64.text, String.length_ofList, Base64.length_encode, id.length_bytes]
  rfl

/-- The text of an identity is twenty-four octets long. -/
theorem utf8ByteSize_text (id : PeerId) : id.text.utf8ByteSize = textLength := by
  rw [text, Base64.utf8ByteSize_text, id.length_bytes]
  rfl

/-! ### Order -/

theorem compare_eq_gt {as bs : Bytes} : compare as bs = .gt ↔ bs < as := by
  induction as generalizing bs with
  | nil => cases bs <;> simp
  | cons a as ih =>
    cases bs with
    | nil => simp
    | cons b bs =>
      rw [List.cons_lt_cons_iff, ← ih, List.compare_cons_cons, Ordering.then_eq_gt,
        Std.compare_eq_gt, Std.LawfulEqCmp.compare_eq_iff_eq, eq_comm (a := a)]

/-- An identity is above another when its octets are greater, the first difference deciding. -/
theorem isAbove_iff {a b : PeerId} : a.isAbove b = true ↔ b.bytes < a.bytes :=
  beq_iff_eq.trans compare_eq_gt

/-- Of two identities exactly one is above the other. -/
theorem isAbove_of_ne {a b : PeerId} (h : a ≠ b) : a.isAbove b = !b.isAbove a := by
  have swapped : compare a.bytes b.bytes = (compare b.bytes a.bytes).swap := Std.OrientedCmp.eq_swap
  show (compare a.bytes b.bytes == .gt) = !(compare b.bytes a.bytes == .gt)
  rw [swapped]
  cases order : compare b.bytes a.bytes with
  | lt | gt => rfl
  | eq => exact absurd (ext_bytes (Std.LawfulEqCmp.eq_of_compare order)).symm h

end PeerId
end Parley

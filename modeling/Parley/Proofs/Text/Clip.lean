import Parley.Text.Clip
import Mathlib.Data.String.Basic
/-!
What is left of a text that has been cut.

`Clipped max s t` says what cutting is for, with nothing of how it is done: `t` is the longest run
of whole characters at the start of `s` that takes at most `max` octets. `clip_clipped` is that of
`clip`, and `Clipped.append` says that cutting the back of a text before the whole of it makes no
difference.
-/
namespace Parley.Text

/-- `t` is the longest run of whole characters at the start of `s` that fits into `max` octets. -/
structure Clipped (max : Nat) (s t : String) : Prop where
  front : t.toList <+: s.toList
  fits : t.utf8ByteSize ≤ max
  longest : ∀ u : String, u.toList <+: s.toList → u.utf8ByteSize ≤ max → u.toList <+: t.toList

theorem clipped_front (room : Nat) (cs : List Char) : clipped room cs <+: cs := by
  induction cs generalizing room with
  | nil => exact List.prefix_rfl
  | cons c cs ih =>
    rw [clipped]
    split
    · exact (List.prefix_cons_inj c).2 (ih _)
    · exact List.nil_prefix

theorem clipped_fits (room : Nat) (cs : List Char) : String.utf8Len (clipped room cs) ≤ room := by
  induction cs generalizing room with
  | nil => exact Nat.zero_le _
  | cons c cs ih =>
    rw [clipped]
    split
    · have rest := ih (room - c.utf8Size)
      rw [String.utf8Len_cons]
      omega
    · exact Nat.zero_le _

theorem clipped_longest {room : Nat} {us cs : List Char} (h : us <+: cs)
    (fits : String.utf8Len us ≤ room) : us <+: clipped room cs := by
  induction cs generalizing room us with
  | nil => exact h
  | cons c cs ih =>
    cases us with
    | nil => exact List.nil_prefix
    | cons u us =>
      obtain ⟨rfl, hrest⟩ := List.cons_prefix_cons.1 h
      rw [String.utf8Len_cons] at fits
      rw [clipped, if_pos (by omega)]
      exact (List.prefix_cons_inj u).2 (ih hrest (by omega))

/-- **Cutting keeps the longest run of whole characters that fits.** -/
theorem clip_clipped (max : Nat) (s : String) : Clipped max s (clip max s) := by
  unfold clip
  split
  · rename_i whole
    exact ⟨List.prefix_rfl, whole, fun _ hu _ => hu⟩
  · refine ⟨?_, ?_, fun u hu fits => ?_⟩
    · rw [String.toList_ofList]
      exact clipped_front max s.toList
    · rw [String.utf8ByteSize_ofList]
      exact clipped_fits max s.toList
    · rw [String.toList_ofList]
      rw [← String.utf8Len_toList] at fits
      exact clipped_longest hu fits

/-- What is cut behind a text may be cut before it is put there. -/
theorem Clipped.append {max : Nat} {m s t u : String} (h : Clipped max s t)
    (h' : Clipped max (m ++ t) u) : Clipped max (m ++ s) u := by
  refine ⟨?_, h'.fits, fun v hv fits => h'.longest v ?_ fits⟩
  · have front := h'.front
    rw [String.toList_append] at front ⊢
    exact front.trans ((List.prefix_append_right_inj _).2 h.front)
  · rw [String.toList_append] at hv ⊢
    -- What a run takes of the back, beyond the front, fits by itself.
    rcases List.prefix_or_prefix_of_prefix hv (List.prefix_append ..) with inside | ⟨w, hw⟩
    · exact inside.trans (List.prefix_append ..)
    · rw [← hw, List.prefix_append_right_inj] at hv ⊢
      rw [← String.utf8Len_toList, ← hw, String.utf8Len_append] at fits
      have within : (String.ofList w).utf8ByteSize ≤ max := by
        rw [String.utf8ByteSize_ofList]
        omega
      have taken := h.longest (String.ofList w) (by rwa [String.toList_ofList]) within
      rwa [String.toList_ofList] at taken

end Parley.Text

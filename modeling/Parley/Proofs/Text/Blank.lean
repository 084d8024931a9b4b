import Parley.Text.Blank
import Mathlib.Data.List.DropRight
/-!
What trimming leaves of a text.

Only characters of one kind are left out, at either end, and as many as there are: what is left has
none of them at its ends, and around it there was nothing else (`dropEnds_eq_iff`). So a text without
any blank character is what is left of just those texts that have nothing but blank characters
around it (`trim_eq_iff`).
-/
namespace Parley.Text

/-! ### The ends of a list -/

section Ends
variable {α : Type} {p : α → Bool} {cs mid front back : List α}

/-- The elements without those of a kind at either end. -/
def dropEnds (p : α → Bool) (cs : List α) : List α := (cs.dropWhile p).rdropWhile p

/-- Neither end is of a kind. -/
structure BareEnds (p : α → Bool) (cs : List α) : Prop where
  first : ∀ c ∈ cs.head?, p c = false
  last : ∀ c ∈ cs.getLast?, p c = false

theorem bareEnds_of_forall (h : ∀ c ∈ cs, p c = false) : BareEnds p cs :=
  ⟨fun c hc => h c (List.mem_of_mem_head? hc), fun c hc => h c (List.mem_of_mem_getLast? hc)⟩

theorem dropWhile_append_bare (hfront : ∀ c ∈ front, p c = true)
    (hcs : ∀ c ∈ cs.head?, p c = false) : (front ++ cs).dropWhile p = cs := by
  rw [List.dropWhile_append_of_pos hfront]
  cases cs with
  | nil => rfl
  | cons c cs => exact List.dropWhile_cons_of_neg (by simp [hcs c rfl])

theorem dropEnds_surrounded (hfront : ∀ c ∈ front, p c = true) (bare : BareEnds p mid)
    (hback : ∀ c ∈ back, p c = true) : dropEnds p (front ++ mid ++ back) = mid := by
  have reversed : ∀ c ∈ back.reverse, p c = true := fun c hc => hback c (List.mem_reverse.1 hc)
  by_cases hempty : mid = []
  · subst hempty
    have all : ∀ c ∈ front ++ back, p c = true := fun c hc =>
      (List.mem_append.1 hc).elim (hfront c) (hback c)
    rw [dropEnds, List.append_nil, List.dropWhile_eq_nil_iff.2 all]
    rfl
  · have first : ∀ c ∈ (mid ++ back).head?, p c = false := by
      rw [List.head?_append_of_ne_nil _ hempty]
      exact bare.first
    have last : ∀ c ∈ mid.reverse.head?, p c = false := by
      rw [List.head?_reverse]
      exact bare.last
    rw [dropEnds, List.append_assoc, dropWhile_append_bare hfront first, List.rdropWhile,
      List.reverse_append, dropWhile_append_bare reversed last, List.reverse_reverse]

theorem bareEnds_dropEnds (p : α → Bool) (cs : List α) : BareEnds p (dropEnds p cs) := by
  refine ⟨fun c hc => ?_, fun c hc => ?_⟩
  · -- What is left begins where the elements in front end.
    obtain ⟨rest, hrest⟩ : dropEnds p cs <+: cs.dropWhile p := List.rdropWhile_prefix ..
    have first := List.head?_dropWhile_not p cs
    rwa [← hrest, List.head?_append, hc] at first
  · obtain ⟨ne, rfl⟩ := List.mem_getLast?_eq_getLast hc
    exact Bool.eq_false_iff.2 (List.rdropWhile_last_not _ _ ne)

/-- What is left has bare ends, and what was around it is all of the kind. -/
theorem dropEnds_eq_iff : dropEnds p cs = mid ↔ BareEnds p mid ∧ ∃ front back : List α,
    (∀ c ∈ front, p c = true) ∧ (∀ c ∈ back, p c = true) ∧ cs = front ++ mid ++ back := by
  constructor
  · rintro rfl
    refine ⟨bareEnds_dropEnds p cs, cs.takeWhile p, (cs.dropWhile p).rtakeWhile p,
      fun c hc => List.mem_takeWhile_imp hc, fun c hc => List.mem_rtakeWhile_imp hc, ?_⟩
    rw [dropEnds, List.append_assoc, List.rdropWhile_append_rtakeWhile,
      List.takeWhile_append_dropWhile]
  · rintro ⟨bare, front, back, hfront, hback, rfl⟩
    exact dropEnds_surrounded hfront bare hback

end Ends

/-- The same for texts. -/
theorem ofList_dropEnds_eq_iff {p : Char → Bool} {s t : String} :
    String.ofList (dropEnds p s.toList) = t ↔ BareEnds p t.toList ∧ ∃ front back : String,
      (∀ c ∈ front.toList, p c = true) ∧ (∀ c ∈ back.toList, p c = true) ∧
        s = front ++ t ++ back := by
  rw [← String.toList_inj, String.toList_ofList, dropEnds_eq_iff]
  refine and_congr_right fun _ => ⟨?_, ?_⟩
  · rintro ⟨front, back, hfront, hback, hs⟩
    refine ⟨String.ofList front, String.ofList back, ?_, ?_, ?_⟩
    · rwa [String.toList_ofList]
    · rwa [String.toList_ofList]
    · rw [← String.toList_inj, hs]
      simp
  · rintro ⟨front, back, hfront, hback, rfl⟩
    exact ⟨front.toList, back.toList, hfront, hback, by simp⟩

/-! ### Blank characters -/

/-- Nothing but blank characters. -/
def Blanks (s : String) : Prop := ∀ c ∈ s.toList, isBlank c = true

/-- A text without blank characters is what trimming leaves of those that have blank characters
around it, and of no others. -/
theorem trim_eq_iff {s t : String} (h : ∀ c ∈ t.toList, isBlank c = false) :
    trim s = t ↔ ∃ front back, Blanks front ∧ Blanks back ∧ s = front ++ t ++ back := by
  have ends : trim s = t ↔ _ := ofList_dropEnds_eq_iff
  rw [ends, and_iff_right (bareEnds_of_forall h)]
  rfl

end Parley.Text

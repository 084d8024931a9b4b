import Parley.Proofs.Link.CheckList.Choice
import Parley.Proofs.Link.CheckList.Evolution
import Parley.Proofs.Link.Traffic
import Mathlib.Data.List.Count
/-!
What becomes of the nominations in a check list.

A check that runs out of time takes the nomination of its pair with it. An answer that refuses the
check does not: the pair fails and stays nominated (`Refuses`). But for such answers no action
brings a nominated pair to its end (`act_bears`), so that on the other side no failed pair is
nominated (`Withdrawn`), and the controlling side has at most the one nomination that it has sent
(`Exclusive`).
-/
namespace Parley
open CheckList (Action)

/-- Elements that count after a change counted before it, so there are no more of them. -/
theorem countP_le_of_forall₂ {α : Type} {R : α → α → Prop} {f : α → Bool} {l m : List α}
    (h : List.Forall₂ R l m) (hf : ∀ a b, R a b → f b = true → f a = true) :
    m.countP f ≤ l.countP f := by
  induction h with
  | nil => exact Nat.le_refl _
  | @cons a b l m hab _ ih =>
    rw [List.countP_cons, List.countP_cons]
    cases hb : f b with
    | true => simpa [hf a b hab hb] using ih
    | false => exact ih.trans (Nat.le_add_right ..)

/-- The check is under way, or has shown that the path works. -/
def Pair.Live (p : Pair) : Prop := p.state = .inProgress ∨ p.state = .succeeded

namespace CheckList

/-- The answer refuses a nomination: it is no success, and the pair that takes it is nominated. -/
def Refuses (l : CheckList) (r : BindingResponse) : Prop :=
  r.success = false ∧ ∃ p, l.pairs.find? (·.awaits r.id) = some p ∧ p.nominated = true

/-- A pair that is nominated after a change was nominated before it, and has not failed by it. -/
def Bears (p q : Pair) : Prop :=
  q.nominated = true →
    p.nominated = true ∧ (q.state = .failed → p.state = .failed) ∧ (p.Live → q.Live)

theorem Bears.refl (p : Pair) : Bears p p := fun h => ⟨h, fun h => h, fun h => h⟩

/-- An action that goes on with the list and nominates nothing. -/
def Action.Plain : Action → Prop
  | .reset _ | .mark _ | .nominate .. => False
  | _ => True

theorem Evolves.bears {l : CheckList} {x : Action} {p q : Pair} (h : Evolves l x p q)
    (hx : x.Plain) (hsuccess : ∀ r, x = .answer r → r.success = true) : Bears p q := by
  cases h with
  | same => exact .refl p
  | unfrozen hp | released _ hp => exact fun hq => ⟨hq, by simp, by simp [Pair.Live, hp]⟩
  | improved _ _ _ _ hidle hnext =>
    have idle : ¬p.Live := by
      rintro (h | h) <;> simp [h] at hidle
    refine fun hq => ⟨hq, fun hfailed => ?_, fun hlive => absurd hlive idle⟩
    rcases hnext with h | ⟨-, h⟩
    · exact h.symm.trans hfailed
    · cases h.symm.trans hfailed
  | triggered hp =>
    rcases hp with hp | hp <;> simp [Bears, Pair.trigger, Pair.Live, hp]
  | started => exact fun hq => ⟨hq, by simp [Pair.startCheck], fun _ => .inl rfl⟩
  | resent => exact fun hq => ⟨hq, fun h => h, fun h => h⟩
  | answered =>
    rename_i r hawaits
    simp [Bears, Pair.Live, hsuccess r rfl]
  | expired => simp [Bears]
  | marked | nominated => exact hx.elim

/-- The pair that takes an answer is the first one that waits for it. -/
theorem find?_awaits {l : CheckList} {r : BindingResponse} {front back : List Pair} {p : Pair}
    (hl : l.pairs = front ++ p :: back) (hawaits : p.awaits r.id = true)
    (hfront : ∀ x ∈ front, x.awaits r.id = false) :
    l.pairs.find? (·.awaits r.id) = some p :=
  List.find?_eq_some_iff_append.2 ⟨hawaits, front, back, hl, by simpa using hfront⟩

/-- A refusal leaves a failed pair behind that is nominated. -/
theorem Refuses.leaves {l : CheckList} {r : BindingResponse} (h : l.Refuses r) :
    ∃ p ∈ (l.handleResponse r).1.pairs, p.state = .failed ∧ p.nominated = true := by
  obtain ⟨hsuccess, p, hfind, hmark⟩ := h
  rcases handleResponse_cases l r with ⟨-, none⟩ | ⟨front, q, back, hl, hawaits, hfront, h⟩
  · simpa [none p (List.mem_of_find?_eq_some hfind)] using List.find?_some hfind
  · obtain rfl : q = p := Option.some.inj ((find?_awaits hl hawaits hfront).symm.trans hfind)
    exact ⟨{ q with state := .failed }, by simp [h, hsuccess], rfl, hmark⟩

/-- An answer that refuses no nomination leaves those that there are. -/
theorem answer_bears {l : CheckList} {r : BindingResponse} (hr : ¬l.Refuses r) :
    List.Forall₂ Bears l.pairs (l.handleResponse r).1.pairs := by
  cases hsuccess : r.success with
  | true =>
    refine (handleResponse_evolution l r).imp fun p q h => h.bears trivial ?_
    rintro _ ⟨⟩
    exact hsuccess
  | false =>
    have stay : ∀ ps : List Pair, List.Forall₂ Bears ps ps :=
      fun ps => List.forall₂_same.2 fun p _ => .refl p
    rcases handleResponse_cases l r with ⟨h, -⟩ | ⟨front, p, back, hl, hawaits, hfront, h⟩
    · rw [h]
      exact stay _
    · have plain : p.nominated = false := by
        by_contra hmark
        exact hr ⟨hsuccess, p, find?_awaits hl hawaits hfront, by simpa using hmark⟩
      simp only [h, hsuccess, Bool.false_eq_true, if_false]
      rw [hl]
      refine List.rel_append (stay front) (.cons (fun hq => ?_) (stay back))
      rw [show p.nominated = true from hq] at plain
      cases plain

/-- **No nominated pair comes to its end** by an action that nominates nothing, unless it is an
answer that refuses a nomination. -/
theorem act_bears {l : CheckList} {x : Action} (hx : x.Plain)
    (hr : ∀ r, x = .answer r → ¬l.Refuses r) : ∃ old formed, (l.act x).pairs.Perm (old ++ formed) ∧
      List.Forall₂ Bears l.pairs old ∧ ∀ q ∈ formed, q.nominated = false := by
  by_cases hanswer : ∃ r, x = .answer r
  · obtain ⟨r, rfl⟩ := hanswer
    exact ⟨_, [], by rw [List.append_nil]; rfl, answer_bears (hr r rfl), by simp⟩
  · have goes : ∀ controlling, x ≠ .reset controlling := by
      rintro controlling rfl
      exact hx
    obtain ⟨old, formed, hperm, hold, hformed⟩ := evolution l goes
    exact ⟨old, formed, hperm, hold.imp fun p q h => h.bears hx fun r hr => absurd ⟨r, hr⟩ hanswer,
      fun q hq => (hformed q hq).not_nominated⟩

/-- What the actions of a series keep that nominate nothing and refuse no nomination, the series
keeps, when an answer comes alone. -/
theorem acts_keep {P : CheckList → Prop}
    (keeps : ∀ l x, x.Plain → (∀ r, x = .answer r → ¬l.Refuses r) → P l → P (l.act x))
    {l : CheckList} {xs : List Action} (h : P l) (plain : ∀ x ∈ xs, x.Plain)
    (answered : ∀ r, .answer r ∈ xs → xs = [.answer r])
    (hr : ∀ r, .answer r ∈ xs → ¬l.Refuses r) : P (l.acts xs) := by
  by_cases hanswer : ∃ r, .answer r ∈ xs
  · obtain ⟨r, hmem⟩ := hanswer
    rw [answered r hmem]
    refine keeps l (.answer r) trivial ?_ h
    rintro _ ⟨⟩
    exact hr r hmem
  · clear answered hr
    induction xs generalizing l with
    | nil => exact h
    | cons x xs ih =>
      have first : P (l.act x) := keeps l x (plain x (List.mem_cons_self ..))
        (fun r hr => absurd ⟨r, hr ▸ List.mem_cons_self ..⟩ hanswer) h
      exact ih first (fun y hy => plain y (List.mem_cons_of_mem _ hy))
        fun ⟨r, hr⟩ => hanswer ⟨r, List.mem_cons_of_mem _ hr⟩

/-! ### The two sides -/

/-- No pair that has failed is nominated. -/
def Withdrawn (l : CheckList) : Prop := ∀ p ∈ l.pairs, p.state = .failed → p.nominated = false

theorem Withdrawn.act {l : CheckList} (h : l.Withdrawn) {x : Action} (hx : x.Plain)
    (hr : ∀ r, x = .answer r → ¬l.Refuses r) : (l.act x).Withdrawn := by
  obtain ⟨old, formed, hperm, hold, hformed⟩ := act_bears hx hr
  intro q hq hfailed
  by_contra hmark
  rcases List.mem_append.1 (hperm.mem_iff.1 hq) with hq | hq
  · obtain ⟨p, hp, bears⟩ := exists_of_mem_forall₂ hold hq
    obtain ⟨before, failed, -⟩ := bears (by simpa using hmark)
    rw [h p hp (failed hfailed)] at before
    cases before
  · exact hmark (hformed q hq)

theorem Withdrawn.acts {l : CheckList} (h : l.Withdrawn) {xs : List Action}
    (plain : ∀ x ∈ xs, x.Plain) (answered : ∀ r, .answer r ∈ xs → xs = [.answer r])
    (hr : ∀ r, .answer r ∈ xs → ¬l.Refuses r) : (l.acts xs).Withdrawn :=
  acts_keep (fun _ _ hx hr hl => hl.act hx hr) h plain answered hr

/-- A pair that is nominated right after it was triggered has not failed. -/
theorem Withdrawn.noted {l : CheckList} (h : l.Withdrawn) (index : Nat) :
    ((l.trigger index).markNominated index).Withdrawn := by
  intro q hq hfailed
  obtain ⟨j, hj⟩ := List.mem_iff_getElem?.1 hq
  simp only [trigger, markNominated, modify, List.getElem?_modify] at hj
  cases hp : l.pairs[j]? with
  | none => simp [hp] at hj
  | some p =>
    by_cases hindex : index = j
    · simp only [hindex, hp, if_true, Option.map_eq_map, Option.map_some, Option.some.injEq] at hj
      subst hj
      cases hstate : p.state <;> simp [Pair.trigger, hstate] at hfailed
    · simp only [hindex, hp, if_false, Option.map_eq_map, Option.map_some,
        Option.some.injEq] at hj
      subst hj
      exact h p (List.mem_of_getElem? hp) hfailed

/-- The nominations of a controlling side: at most one, if one is `sent`, and of a pair whose check
is under way or has succeeded. -/
structure Exclusive (sent : Bool) (l : CheckList) : Prop where
  live : ∀ p ∈ l.pairs, p.nominated = true → p.Live
  single : l.pairs.countP (·.nominated) ≤ sent.toNat

theorem Exclusive.withdrawn {sent : Bool} {l : CheckList} (h : l.Exclusive sent) : l.Withdrawn := by
  intro p hp hfailed
  by_contra hmark
  rcases h.live p hp (by simpa using hmark) with hlive | hlive <;> simp [hfailed] at hlive

theorem Exclusive.act {sent : Bool} {l : CheckList} (h : l.Exclusive sent) {x : Action}
    (hx : x.Plain) (hr : ∀ r, x = .answer r → ¬l.Refuses r) : (l.act x).Exclusive sent := by
  obtain ⟨old, formed, hperm, hold, hformed⟩ := act_bears hx hr
  refine ⟨fun q hq hmark => ?_, ?_⟩
  · rcases List.mem_append.1 (hperm.mem_iff.1 hq) with hq | hq
    · obtain ⟨p, hp, bears⟩ := exists_of_mem_forall₂ hold hq
      obtain ⟨before, -, live⟩ := bears hmark
      exact live (h.live p hp before)
    · rw [hformed q hq] at hmark
      cases hmark
  · have none : formed.countP (·.nominated) = 0 :=
      List.countP_eq_zero.2 fun q hq => by simp [hformed q hq]
    rw [hperm.countP_eq, List.countP_append, none, Nat.add_zero]
    exact (countP_le_of_forall₂ hold fun _ _ bears hmark => (bears hmark).1).trans h.single

theorem Exclusive.acts {sent : Bool} {l : CheckList} (h : l.Exclusive sent) {xs : List Action}
    (plain : ∀ x ∈ xs, x.Plain) (answered : ∀ r, .answer r ∈ xs → xs = [.answer r])
    (hr : ∀ r, .answer r ∈ xs → ¬l.Refuses r) : (l.acts xs).Exclusive sent :=
  acts_keep (fun _ _ hx hr hl => hl.act hx hr) h plain answered hr

/-- When none is sent a pair may be nominated, and then it is the only one. -/
theorem Exclusive.nominate {l : CheckList} (h : l.Exclusive false) (index now : Nat)
    (id : TransactionId) : (l.nominate index now id).1.Exclusive true := by
  rcases nominate_cases l index now id with hnone | ⟨p, hp, -, hsome⟩
  · rw [hnone]
    exact ⟨h.live, h.single.trans (Nat.zero_le _)⟩
  · rw [hsome]
    refine ⟨fun q hq hmark => ?_, ?_⟩
    · rcases List.mem_or_eq_of_mem_set hq with hq | rfl
      · exact h.live q hq hmark
      · exact .inl rfl
    · have none : l.pairs.countP (·.nominated) = 0 := Nat.le_zero.1 h.single
      simp only
      rw [List.countP_set (List.getElem?_eq_some_iff.1 hp).1, none, Nat.zero_sub, Nat.zero_add]
      split <;> decide

/-- When neither a nominating check is under way nor a nominated pair works, there is none. -/
theorem Exclusive.withdraw {sent : Bool} {l : CheckList} (h : l.Exclusive sent)
    (hpending : l.nominationPending = false) (hsettled : l.nominatedPair = none) :
    l.Exclusive false := by
  refine ⟨h.live, Nat.le_zero.2 (List.countP_eq_zero.2 fun p hp hmark => ?_)⟩
  rcases h.live p hp hmark with hlive | hlive
  · simpa [hmark, hlive] using List.any_eq_false.1 hpending p hp
  · simpa [hmark, hlive] using List.find?_eq_none.1 hsettled p hp

end CheckList
end Parley

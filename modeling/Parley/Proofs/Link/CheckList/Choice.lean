import Parley.Link.CheckList
import Mathlib.Data.List.Basic
/-!
Which pair is found by its address, and which one is chosen among those that work.
-/
namespace Parley
namespace CheckList

theorem findByRemote_eq_some {l : CheckList} {address : SocketAddress} {index : Nat}
    (h : l.findByRemote address = some index) :
    ∃ p, l.pairs[index]? = some p ∧ p.remote = address := by
  obtain ⟨hlt, hremote, -⟩ := List.findIdx?_eq_some_iff_getElem.1 h
  exact ⟨_, List.getElem?_eq_getElem hlt, by simpa using hremote⟩

theorem findByRemote_eq_none {l : CheckList} {address : SocketAddress} :
    l.findByRemote address = none ↔ ∀ p ∈ l.pairs, p.remote ≠ address := by
  simp [findByRemote]

theorem findByRemote_isSome {l : CheckList} {p : Pair} (h : p ∈ l.pairs) :
    ∃ index, l.findByRemote p.remote = some index := by
  rw [← Option.isSome_iff_exists, findByRemote, List.findIdx?_isSome, List.any_eq_true]
  exact ⟨p, h, beq_self_eq_true _⟩

theorem better_eq_some {o : Option (Pair × Nat)} {p q : Pair × Nat} (h : better o p = some q) :
    q = p ∨ o = some q := by
  unfold better at h
  split at h
  · exact .inl (Option.some.inj h).symm
  · split at h
    · exact .inl (Option.some.inj h).symm
    · exact .inr h

theorem foldl_better_mem {ps : List (Pair × Nat)} {o : Option (Pair × Nat)} {q : Pair × Nat}
    (h : ps.foldl better o = some q) : q ∈ ps ∨ o = some q := by
  induction ps generalizing o with
  | nil => exact .inr h
  | cons p ps ih =>
    rcases ih h with hq | hq
    · exact .inl (List.mem_cons_of_mem _ hq)
    · rcases better_eq_some hq with rfl | hq
      · exact .inl (List.mem_cons_self ..)
      · exact .inr hq

theorem foldl_better_isSome (ps : List (Pair × Nat)) (p : Pair × Nat) :
    ∃ q, ps.foldl better (some p) = some q := by
  induction ps generalizing p with
  | nil => exact ⟨p, rfl⟩
  | cons q qs ih =>
    rw [List.foldl_cons, better]
    split <;> exact ih _

theorem hasSucceeded_iff {l : CheckList} :
    l.hasSucceeded = true ↔ ∃ p ∈ l.pairs, p.state = .succeeded := by
  simp [hasSucceeded]

/-- The best pair is one of those that work. -/
theorem bestSucceeded_eq_some {l : CheckList} {i : Nat} (h : l.bestSucceeded = some i) :
    ∃ p, l.pairs[i]? = some p ∧ p.state = .succeeded := by
  obtain ⟨⟨p, j⟩, hbest, rfl⟩ := Option.map_eq_some_iff.1 h
  rcases foldl_better_mem hbest with hmem | hnone
  · obtain ⟨hzip, hstate⟩ := List.mem_filter.1 hmem
    exact ⟨p, List.mem_zipIdx_iff_getElem?.1 hzip, by simpa using hstate⟩
  · cases hnone

/-- There is a best pair as soon as one works. -/
theorem bestSucceeded_isSome {l : CheckList} (h : l.hasSucceeded = true) :
    ∃ i, l.bestSucceeded = some i := by
  obtain ⟨p, hp, hstate⟩ := hasSucceeded_iff.1 h
  obtain ⟨i, hi⟩ := List.mem_iff_getElem?.1 hp
  have candidate : (p, i) ∈ l.pairs.zipIdx.filter (·.1.state == .succeeded) :=
    List.mem_filter.2 ⟨List.mem_zipIdx_iff_getElem?.2 hi, by simpa using hstate⟩
  unfold bestSucceeded
  cases hall : l.pairs.zipIdx.filter (·.1.state == .succeeded) with
  | nil =>
    rw [hall] at candidate
    cases candidate
  | cons q qs =>
    obtain ⟨r, hr⟩ := foldl_better_isSome qs q
    exact ⟨r.2, by simp [better, hr]⟩

theorem nominatedPair_eq_some {l : CheckList} {p : Pair} (h : l.nominatedPair = some p) :
    p ∈ l.pairs ∧ p.nominated = true ∧ p.state = .succeeded := by
  have hp := List.find?_some h
  simp only [Bool.and_eq_true, beq_iff_eq] at hp
  exact ⟨List.mem_of_find?_eq_some h, hp.1, hp.2⟩

end CheckList
end Parley

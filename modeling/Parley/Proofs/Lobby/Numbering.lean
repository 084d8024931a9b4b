import Parley.Proofs.Lobby.Listing
/-!
What a number says of its host.

The moments of a run are the prefixes of its history, and a host stays from one moment to a later
one when it is stored at all those between. Two entries, of whatever moments, have one number
exactly when they are of one host that has stayed (`Identified.same`): a number is never handed to
another host, nor to the same one again once it has been dropped.

An entry is traced back over one event (`step_origin`) and followed over one (`Orderly.step_keeps`);
the rest is induction on the events between the two moments.
-/
namespace Parley
namespace Directory

/-! ### One event -/

/-- An entry behind an event was there before it, with its host and number, or has the number next
to the one that was handed out last. -/
theorem step_origin {d : Directory} {e : Event} {b : Ad} (h : b ∈ (d.step e).ads) :
    (∃ a ∈ d.ads, a.host = b.host ∧ a.index = b.index) ∨ b.index = d.lastIndex + 1 := by
  cases e with
  | merge m =>
    rcases mem_merge.1 h with ⟨there, -⟩ | rfl
    · exact .inl ⟨b, there, rfl, rfl⟩
    · by_cases stored : d.Stores m.host
      · obtain ⟨a, ha, hhost, hindex⟩ := number_of_stored stored
        exact .inl ⟨a, ha, hhost.trans (listed_host ..).symm, hindex⟩
      · exact .inr (number_of_new stored)
  | snapshot now => exact .inl ⟨b, (mem_snapshot.1 h).1, rfl, rfl⟩
  | setStatus | clearStatus => exact .inl ⟨b, h, rfl, rfl⟩

/-- A host that is still stored behind an event has kept its number. -/
theorem Orderly.step_keeps {d : Directory} (h : d.Orderly) {e : Event} {a : Ad} (ha : a ∈ d.ads)
    (stored : (d.step e).Stores a.host) :
    ∃ b ∈ (d.step e).ads, b.host = a.host ∧ b.index = a.index := by
  cases e with
  | merge m =>
    by_cases merged : a.host = m.host
    · obtain ⟨known, hknown, hhost, hindex⟩ := number_of_stored ⟨a, ha, merged⟩
      obtain rfl := h.eq_of_host hknown ha (hhost.trans merged.symm)
      exact ⟨_, mem_merge.2 (.inr rfl), (listed_host ..).trans merged.symm, hindex.symm⟩
    · exact ⟨a, mem_merge.2 (.inl ⟨ha, merged⟩), rfl, rfl⟩
  | snapshot now =>
    obtain ⟨b, hb, same⟩ := stored
    obtain rfl := h.eq_of_host (mem_snapshot.1 hb).1 ha same
    exact ⟨b, hb, rfl, rfl⟩
  | setStatus | clearStatus => exact ⟨a, ha, rfl, rfl⟩

theorem le_step_lastIndex {d : Directory} (e : Event) (room : d.lastIndex < d.lastIndex + 1) :
    d.lastIndex ≤ (d.step e).lastIndex := by
  cases e with
  | merge m =>
    by_cases stored : d.Stores m.host
    · obtain ⟨known, -, -, hmerge⟩ := merge_of_stored stored
      rw [step, hmerge]
      exact UInt32.le_refl _
    · rw [step, merge_of_new stored]
      exact UInt32.le_of_lt room
  | _ => exact UInt32.le_refl _

/-! ### Moments of a run -/

section Moments
variable {client : ClientInfo} {as bs es : List Event}

theorem merges_le_of_front (front : as <+: es) : merges as ≤ merges es :=
  front.sublist.countP_le

/-- A host that is stored at every moment from one to another. -/
def Stays (client : ClientInfo) (as bs : List Event) (host : PeerId) : Prop :=
  ∀ cs, as <+: cs → cs <+: bs → (run client cs).Stores host

theorem Stays.concat {host : PeerId} {e : Event} (stays : Stays client as bs host)
    (stored : (run client (bs ++ [e])).Stores host) : Stays client as (bs ++ [e]) host := by
  intro cs first last
  rcases List.prefix_concat_iff.1 last with rfl | last
  · exact stored
  · exact stays cs first last

theorem lastIndex_mono (few : merges bs < 2 ^ 32 - 1) (later : as <+: bs) :
    (run client as).lastIndex ≤ (run client bs).lastIndex := by
  obtain ⟨cs, rfl⟩ := later
  induction cs using List.reverseRecOn with
  | nil =>
    rw [List.append_nil]
    exact UInt32.le_refl _
  | append_singleton cs e ih =>
    rw [← List.append_assoc] at few ⊢
    have before := Nat.lt_of_le_of_lt (merges_le_of_front (List.prefix_append ..)) few
    rw [run_concat]
    exact UInt32.le_trans (ih before) (le_step_lastIndex e (run_room before).1)

/-- An entry of the later moment stems from one of the earlier, whose host has stayed, or it has
been numbered since. -/
theorem run_origin (few : merges bs < 2 ^ 32 - 1) (later : as <+: bs) {b : Ad}
    (hb : b ∈ (run client bs).ads) :
    (∃ a ∈ (run client as).ads, a.host = b.host ∧ a.index = b.index ∧
        Stays client as bs b.host) ∨ (run client as).lastIndex < b.index := by
  obtain ⟨cs, rfl⟩ := later
  induction cs using List.reverseRecOn generalizing b with
  | nil =>
    rw [List.append_nil] at hb ⊢
    refine .inl ⟨b, hb, rfl, rfl, fun cs first last => ?_⟩
    obtain rfl := first.eq_of_length_le last.length_le
    exact ⟨b, hb, rfl⟩
  | append_singleton cs e ih =>
    rw [← List.append_assoc] at few hb ⊢
    have before := Nat.lt_of_le_of_lt (merges_le_of_front (List.prefix_append ..)) few
    have stored : (run client (as ++ cs ++ [e])).Stores b.host := ⟨b, hb, rfl⟩
    rw [run_concat] at hb
    -- Only the last event may have numbered the entry anew; else it is one that `ih` speaks of.
    rcases step_origin hb with ⟨c, hc, hhost, hindex⟩ | hnext
    · rcases ih before hc with ⟨a, ha, hhost', hindex', stays⟩ | hsince
      · rw [hhost] at stays hhost'
        exact .inl ⟨a, ha, hhost', hindex'.trans hindex, stays.concat stored⟩
      · exact .inr (hindex ▸ hsince)
    · refine .inr (UInt32.lt_of_le_of_lt (lastIndex_mono before (List.prefix_append as cs)) ?_)
      rw [hnext]
      exact (run_room before).1

/-- A host that stays keeps its number. -/
theorem run_keeps (few : merges bs < 2 ^ 32 - 1) (later : as <+: bs) {a : Ad}
    (ha : a ∈ (run client as).ads) (stays : Stays client as bs a.host) :
    ∃ b ∈ (run client bs).ads, b.host = a.host ∧ b.index = a.index := by
  obtain ⟨cs, rfl⟩ := later
  induction cs using List.reverseRecOn with
  | nil => exact ⟨a, by rwa [List.append_nil], rfl, rfl⟩
  | append_singleton cs e ih =>
    rw [← List.append_assoc] at few stays ⊢
    have front : as ++ cs <+: as ++ cs ++ [e] := List.prefix_append ..
    have before := Nat.lt_of_le_of_lt (merges_le_of_front front) few
    obtain ⟨c, hc, hhost, hindex⟩ :=
      ih before fun ds first last => stays ds first (last.trans front)
    have stored := stays _ ((List.prefix_append as cs).trans front) List.prefix_rfl
    rw [← hhost, run_concat] at stored
    obtain ⟨b, hb, hhost', hindex'⟩ :=
      (run_orderly (Nat.le_of_lt before)).step_keeps hc stored
    rw [run_concat]
    exact ⟨b, hb, hhost'.trans hhost, hindex'.trans hindex⟩

end Moments

/-- The number that a merge gives is that of its host's entry. -/
theorem number_given (d : Directory) (m : Merge) :
    ∃ a ∈ (d.step (.merge m)).ads, a.host = m.host ∧ a.index = d.number m :=
  ⟨_, mem_merge.2 (.inr rfl), listed_host .., rfl⟩

theorem Orderly.find?_eq_some_iff {d : Directory} (h : d.Orderly) {i : UInt32} {a : Ad} :
    d.find? i = some a ↔ a ∈ d.ads ∧ a.index = i := by
  unfold find?
  constructor
  · intro found
    have same := List.find?_some found
    exact ⟨List.mem_of_find?_eq_some found, beq_iff_eq.1 same⟩
  · rintro ⟨ha, rfl⟩
    cases found : d.ads.find? (·.index == a.index) with
    | none => exact absurd (beq_self_eq_true a.index) (List.find?_eq_none.1 found a ha)
    | some b =>
      have same := List.find?_some found
      rw [h.eq_of_index (List.mem_of_find?_eq_some found) ha (beq_iff_eq.1 same)]

/-- What the numbers of a run say: which entries have one number, what a merge gives, and what can
be found by a number. -/
structure Identified (client : ClientInfo) (es : List Event) : Prop where
  same : ∀ as bs, as <+: bs → bs <+: es → ∀ a ∈ (run client as).ads, ∀ b ∈ (run client bs).ads,
    (a.index = b.index ↔ a.host = b.host ∧ Stays client as bs a.host)
  given : ∀ before m, before ++ [.merge m] <+: es →
    ∃ a ∈ (run client (before ++ [.merge m])).ads,
      a.host = m.host ∧ a.index = (run client before).number m
  rising : ∀ before m, before ++ [.merge m] <+: es → ¬(run client before).Stores m.host →
    ∀ earlier m', earlier ++ [.merge m'] <+: before →
      (run client earlier).number m' < (run client before).number m
  found : ∀ as, as <+: es → ∀ i a,
    ((run client as).find? i = some a ↔ a ∈ (run client as).ads ∧ a.index = i)
  /-- Whatever status is or was shown, and with whatever number. -/
  notStatus : ∀ as cs, as <+: es → cs <+: es → ∀ a, (run client cs).status = some a →
    ∀ i j, (run client as).find? i ≠ some { a with index := j }

/-- **A number identifies its host as long as the host stays, and no other, for the whole run.** -/
theorem run_identified (client : ClientInfo) {es : List Event} (few : merges es < 2 ^ 32 - 1) :
    Identified client es := by
  have fewer : ∀ {as}, as <+: es → merges as < 2 ^ 32 - 1 := fun front =>
    Nat.lt_of_le_of_lt (merges_le_of_front front) few
  have orderly : ∀ {as}, as <+: es → (run client as).Orderly := fun front =>
    run_orderly (Nat.le_of_lt (fewer front))
  refine ⟨?_, ?_, ?_, ?_, ?_⟩
  · intro as bs later front a ha b hb
    constructor
    · intro same
      rcases run_origin (fewer front) later hb with ⟨a', ha', hhost, hindex, stays⟩ | since
      · obtain rfl := (orderly (later.trans front)).eq_of_index ha' ha (hindex.trans same.symm)
        exact ⟨hhost, hhost ▸ stays⟩
      · have bound := (orderly (later.trans front)).bounded a ha
        rw [same] at bound
        exact absurd since (UInt32.not_lt.2 bound)
    · rintro ⟨same, stays⟩
      obtain ⟨b', hb', hhost, hindex⟩ := run_keeps (fewer front) later ha stays
      obtain rfl := (orderly front).eq_of_host hb' hb (hhost.trans same)
      exact hindex.symm
  · intro before m _
    rw [run_concat]
    exact number_given ..
  · intro before m front new earlier m' first
    have front' : before <+: es := (List.prefix_append ..).trans front
    obtain ⟨a, ha, -, hindex⟩ := number_given (run client earlier) m'
    rw [← run_concat] at ha
    have bound := (orderly (first.trans front')).bounded a ha
    rw [← hindex, number_of_new new]
    have mono := UInt32.le_trans bound (lastIndex_mono (fewer front') first)
    exact UInt32.lt_of_le_of_lt mono (run_room (fewer front')).1
  · intro as front i a
    exact (orderly front).find?_eq_some_iff
  · intro as cs front _ a shown i j found
    obtain ⟨text, -, rfl⟩ := (run_status client cs a).1 shown
    obtain ⟨m, -, shows⟩ := (run_lists client as).1 _ ((orderly front).find?_eq_some_iff.1 found).1
    exact absurd shows.lastSeen nofun

theorem run_identified_returning : merges returning < 2 ^ 32 - 1 ∧
    Identified ⟨1, 2⟩ returning ∧
    (run ⟨1, 2⟩ returning).ads.map (fun a => (a.host, a.index)) =
      [(.filled 2, 2), (.filled 1, 3)] ∧
    ((run ⟨1, 2⟩ returning).find? 1).isNone :=
  ⟨by decide, run_identified _ (by decide), by decide +kernel, by decide +kernel⟩

end Directory
end Parley

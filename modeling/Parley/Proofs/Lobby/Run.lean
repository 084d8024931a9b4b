import Parley.Lobby.Directory
import Mathlib.Algebra.Group.Nat.Defs
import Mathlib.Data.List.Induction
import Mathlib.Data.List.Nodup
/-!
Runs of a directory.

An `Event` is one call that may change the directory, and a run is a list of events. What a merge
does is said once, by the two ways that it can go (`merge_of_stored`, `merge_of_new`), and what it
leaves among the entries is derived from that (`mem_merge`). The entries of every run are in order:
one for each host, by rising numbers, none above the number handed out last (`run_orderly`).
-/
namespace Parley
namespace Directory

/-- An advertisement that is merged: whose it is, what is known of the path there, and when. -/
structure Merge where
  host : PeerId
  ad : Ad
  status : Option (AgentState × PathKind)
  now : Nat

/-- What can be done with a directory. -/
inductive Event where
  | merge (m : Merge)
  | snapshot (now : Nat)
  | setStatus (text : String)
  | clearStatus

/-- Whether an event merges an advertisement. -/
def Event.isMerge : Event → Bool
  | .merge _ => true
  | _ => false

/-- The directory after an event. -/
def step (d : Directory) : Event → Directory
  | .merge m => (d.merge m.host m.ad m.status m.now).1
  | .snapshot now => (d.snapshot now).1
  | .setStatus text => d.setStatus text
  | .clearStatus => d.clearStatus

/-- The directory of a client after a run. -/
def run (client : ClientInfo) (es : List Event) : Directory := es.foldl step (empty client)

/-- How many advertisements a run merges. -/
def merges (es : List Event) : Nat := es.countP Event.isMerge

theorem run_concat (client : ClientInfo) (es : List Event) (e : Event) :
    run client (es ++ [e]) = (run client es).step e := by
  rw [run, List.foldl_append]
  rfl

theorem merges_append (es fs : List Event) : merges (es ++ fs) = merges es + merges fs :=
  List.countP_append

/-- Whether there is an entry of a host. -/
def Stores (d : Directory) (host : PeerId) : Prop := ∃ a ∈ d.ads, a.host = host

/-- The number that a merge gives. -/
def number (d : Directory) (m : Merge) : UInt32 := (d.merge m.host m.ad m.status m.now).2

/-! ### What an event does to the entries -/

/-- The entry that a merge makes. -/
def listed (d : Directory) (m : Merge) (index : UInt32) : Ad :=
  { d.entry m.host m.ad m.status m.now with index }

@[simp] theorem listed_host (d : Directory) (m : Merge) (index : UInt32) :
    (d.listed m index).host = m.host := by
  show (d.entry m.host m.ad m.status m.now).host = m.host
  unfold entry
  simp only
  split <;> rfl

/-- An entry of a host that is there is replaced where it stands, and keeps its number. -/
theorem merge_of_stored {d : Directory} {m : Merge} (h : d.Stores m.host) :
    ∃ known ∈ d.ads, known.host = m.host ∧ d.merge m.host m.ad m.status m.now =
      ({ d with
          ads := d.ads.map fun old => if old.host = m.host then d.listed m known.index else old },
        known.index) := by
  obtain ⟨a, ha, hhost⟩ := h
  unfold merge
  cases hfind : d.ads.find? (·.host == m.host) with
  | none => simpa [hhost] using List.find?_eq_none.1 hfind a ha
  | some known =>
    have same := List.find?_some hfind
    exact ⟨known, List.mem_of_find?_eq_some hfind, beq_iff_eq.1 same, rfl⟩

/-- A host without an entry gets one at the end, with the next number. -/
theorem merge_of_new {d : Directory} {m : Merge} (h : ¬d.Stores m.host) :
    d.merge m.host m.ad m.status m.now =
      ({ d with ads := d.ads ++ [d.listed m (d.lastIndex + 1)], lastIndex := d.lastIndex + 1 },
        d.lastIndex + 1) := by
  have missing : d.ads.find? (·.host == m.host) = none := by
    refine List.find?_eq_none.2 fun a ha hhost => h ⟨a, ha, beq_iff_eq.1 hhost⟩
  unfold merge
  rw [missing]
  rfl

theorem number_of_stored {d : Directory} {m : Merge} (h : d.Stores m.host) :
    ∃ a ∈ d.ads, a.host = m.host ∧ a.index = d.number m := by
  obtain ⟨known, hknown, hhost, hmerge⟩ := merge_of_stored h
  exact ⟨known, hknown, hhost, by rw [number, hmerge]⟩

theorem number_of_new {d : Directory} {m : Merge} (h : ¬d.Stores m.host) :
    d.number m = d.lastIndex + 1 := by
  rw [number, merge_of_new h]

/-- After a merge there is its entry, and those of the other hosts are as they were. -/
theorem mem_merge {d : Directory} {m : Merge} {a : Ad} : a ∈ (d.step (.merge m)).ads ↔
    a ∈ d.ads ∧ a.host ≠ m.host ∨ a = d.listed m (d.number m) := by
  by_cases h : d.Stores m.host
  · obtain ⟨known, hknown, hhost, hmerge⟩ := merge_of_stored h
    have hnumber : d.number m = known.index := by rw [number, hmerge]
    rw [hnumber, step, hmerge]
    simp only [List.mem_map]
    constructor
    · rintro ⟨old, hold, rfl⟩
      by_cases same : old.host = m.host
      · exact .inr (if_pos same)
      · exact .inl (by rw [if_neg same]; exact ⟨hold, same⟩)
    · rintro (⟨ha, differs⟩ | rfl)
      · exact ⟨a, ha, if_neg differs⟩
      · exact ⟨known, hknown, if_pos hhost⟩
  · rw [number_of_new h, step, merge_of_new h]
    simp only [List.mem_append, List.mem_singleton]
    exact or_congr_left ⟨fun ha => ⟨ha, fun same => h ⟨a, ha, same⟩⟩, And.left⟩

theorem mem_snapshot {d : Directory} {now : Nat} {a : Ad} :
    a ∈ (d.step (.snapshot now)).ads ↔ a ∈ d.ads ∧ isLive now a = true := List.mem_filter

/-! ### The order of the entries -/

/-- There is one entry for each host, they stand by rising numbers, and none has a number that has
not been handed out. -/
structure Orderly (d : Directory) : Prop where
  hosts : (d.ads.map Ad.host).Nodup
  numbers : (d.ads.map Ad.index).Pairwise (· < ·)
  bounded : ∀ a ∈ d.ads, a.index ≤ d.lastIndex

theorem Orderly.eq_of_host {d : Directory} (h : d.Orderly) {a b : Ad} (ha : a ∈ d.ads)
    (hb : b ∈ d.ads) (same : a.host = b.host) : a = b :=
  List.inj_on_of_nodup_map h.hosts ha hb same

theorem Orderly.eq_of_index {d : Directory} (h : d.Orderly) {a b : Ad} (ha : a ∈ d.ads)
    (hb : b ∈ d.ads) (same : a.index = b.index) : a = b := by
  have distinct : (d.ads.map Ad.index).Nodup := h.numbers.imp UInt32.ne_of_lt
  exact List.inj_on_of_nodup_map distinct ha hb same

/-- Refreshing an entry changes neither the hosts nor the numbers, wherever it stands. -/
theorem Orderly.refresh {d : Directory} (h : d.Orderly) {m : Merge} (stored : d.Stores m.host) :
    (d.step (.merge m)).ads.map Ad.host = d.ads.map Ad.host ∧
      (d.step (.merge m)).ads.map Ad.index = d.ads.map Ad.index ∧
      (d.step (.merge m)).lastIndex = d.lastIndex := by
  obtain ⟨known, hknown, hhost, hmerge⟩ := merge_of_stored stored
  rw [step, hmerge]
  refine ⟨?_, ?_, rfl⟩
  · rw [List.map_map]
    refine List.map_congr_left fun old _ => ?_
    show (if old.host = m.host then d.listed m known.index else old).host = old.host
    split
    · rename_i same
      rw [listed_host, same]
    · rfl
  · rw [List.map_map]
    refine List.map_congr_left fun old hold => ?_
    show (if old.host = m.host then d.listed m known.index else old).index = old.index
    split
    · rename_i same
      rw [h.eq_of_host hold hknown (same.trans hhost.symm)]
      rfl
    · rfl

/-- An entry with a number of its own may stand at the end. -/
theorem Orderly.insert {d : Directory} (h : d.Orderly) {a : Ad} (new : ¬d.Stores a.host)
    (next : d.lastIndex < a.index) :
    Orderly { d with ads := d.ads ++ [a], lastIndex := a.index } := by
  refine ⟨?_, ?_, fun b hb => ?_⟩
  · rw [List.map_append, List.nodup_append]
    refine ⟨h.hosts, List.nodup_singleton _, fun host hhost host' hhost' same => ?_⟩
    obtain ⟨b, hb, rfl⟩ := List.mem_map.1 hhost
    exact new ⟨b, hb, same.trans (List.mem_singleton.1 hhost')⟩
  · rw [List.map_append, List.pairwise_append]
    refine ⟨h.numbers, List.pairwise_singleton .., fun index hindex index' hindex' => ?_⟩
    obtain ⟨b, hb, rfl⟩ := List.mem_map.1 hindex
    rw [List.mem_singleton.1 hindex']
    exact UInt32.lt_of_le_of_lt (h.bounded b hb) next
  · rcases List.mem_append.1 hb with hb | hb
    · exact UInt32.le_trans (h.bounded b hb) (UInt32.le_of_lt next)
    · rw [List.mem_singleton.1 hb]
      exact UInt32.le_refl _

/-- A merge keeps the order, as long as there is a number left. -/
theorem Orderly.merge {d : Directory} (h : d.Orderly) (m : Merge)
    (room : d.lastIndex < d.lastIndex + 1) : (d.step (.merge m)).Orderly := by
  by_cases stored : d.Stores m.host
  · obtain ⟨hosts, numbers, last⟩ := h.refresh stored
    refine ⟨hosts ▸ h.hosts, numbers ▸ h.numbers, fun a ha => ?_⟩
    have hindex : a.index ∈ d.ads.map Ad.index := numbers ▸ List.mem_map_of_mem ha
    obtain ⟨old, hold, same⟩ := List.mem_map.1 hindex
    rw [last, ← same]
    exact h.bounded old hold
  · have new : ¬d.Stores (d.listed m (d.lastIndex + 1)).host := by rwa [listed_host]
    rw [step, merge_of_new stored]
    exact h.insert new room

theorem Orderly.snapshot {d : Directory} (h : d.Orderly) (now : Nat) :
    (d.step (.snapshot now)).Orderly := by
  have sub : (d.step (.snapshot now)).ads.Sublist d.ads := List.filter_sublist
  exact ⟨h.hosts.sublist (sub.map _), h.numbers.sublist (sub.map _),
    fun a ha => h.bounded a (sub.subset ha)⟩

/-- Numbers are handed out by merges only, one at a time. -/
theorem lastIndex_le (client : ClientInfo) (es : List Event) :
    (run client es).lastIndex.toNat ≤ merges es := by
  induction es using List.reverseRecOn with
  | nil => exact Nat.zero_le _
  | append_singleton es e ih =>
    rw [run_concat, merges_append]
    cases e with
    | merge m =>
      by_cases stored : (run client es).Stores m.host
      · obtain ⟨known, -, -, hmerge⟩ := merge_of_stored stored
        rw [step, hmerge]
        exact Nat.le_succ_of_le ih
      · rw [step, merge_of_new stored]
        show ((run client es).lastIndex + 1).toNat ≤ merges es + 1
        rw [UInt32.toNat_add]
        exact Nat.le_trans (Nat.mod_le ..) (Nat.succ_le_succ ih)
    | snapshot | setStatus | clearStatus => exact ih

theorem run_room {client : ClientInfo} {es : List Event} (few : merges es < 2 ^ 32 - 1) :
    (run client es).lastIndex < (run client es).lastIndex + 1 ∧
      ((run client es).lastIndex + 1).toNat = (run client es).lastIndex.toNat + 1 := by
  have bound := lastIndex_le client es
  rw [UInt32.lt_iff_toNat_lt, UInt32.toNat_add]
  show _ < (_ + 1) % 2 ^ 32 ∧ (_ + 1) % 2 ^ 32 = _
  omega

/-- **The entries of every run are in order.** -/
theorem run_orderly {client : ClientInfo} {es : List Event} (few : merges es ≤ 2 ^ 32 - 1) :
    (run client es).Orderly := by
  induction es using List.reverseRecOn with
  | nil => exact ⟨List.nodup_nil, .nil, List.forall_mem_nil _⟩
  | append_singleton es e ih =>
    rw [run_concat]
    rw [merges_append] at few
    have before := ih (by omega)
    cases e with
    | merge m =>
      have one : merges [.merge m] = 1 := rfl
      exact before.merge m (run_room (by omega)).1
    | snapshot now => exact before.snapshot now
    | setStatus | clearStatus => exact ⟨before.hosts, before.numbers, before.bounded⟩

end Directory
end Parley

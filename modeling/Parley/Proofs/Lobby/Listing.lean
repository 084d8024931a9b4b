import Parley.Proofs.Lobby.Run
import Parley.Proofs.Text.Clip
/-!
What a directory lists.

The listing is read off the history (`snapshot_lists`): it shows the latest merge of each host, as
long as no snapshot since, the present one included, was taken more than `timeToLive` after it. Only
snapshots drop entries, so an entry whose time is over lives on until one is taken, and time may run
back without harm. A merge is `Live` when nothing after it has ended it, and each event then changes
the entries just as it changes the live merges (`run_lists`).
-/
namespace Parley
namespace Directory

/-! ### Histories -/

/-- An event of a run that nothing behind it has undone. -/
def Lasts (Undoes : Event → Prop) (es : List Event) (e : Event) : Prop :=
  ∃ before after, es = before ++ e :: after ∧ ∀ x ∈ after, ¬Undoes x

theorem lasts_concat {Undoes : Event → Prop} {es : List Event} {x e : Event} :
    Lasts Undoes (es ++ [x]) e ↔ x = e ∨ Lasts Undoes es e ∧ ¬Undoes x := by
  constructor
  · rintro ⟨before, after, heq, quiet⟩
    induction after using List.reverseRecOn with
    | nil => exact .inl (List.singleton_inj.1 (List.append_inj' heq rfl).2)
    | append_singleton after y _ =>
      rw [← List.cons_append, ← List.append_assoc] at heq
      obtain ⟨rfl, hlast⟩ := List.append_inj' heq rfl
      obtain rfl := List.singleton_inj.1 hlast
      exact .inr ⟨⟨before, after, rfl, fun z hz => quiet z (by simp [hz])⟩, quiet x (by simp)⟩
  · rintro (rfl | ⟨⟨before, after, rfl, quiet⟩, hx⟩)
    · exact ⟨es, [], rfl, List.forall_mem_nil _⟩
    · refine ⟨before, after ++ [x], by simp, fun y hy => ?_⟩
      rcases List.mem_append.1 hy with hy | hy
      · exact quiet y hy
      · exact List.mem_singleton.1 hy ▸ hx

/-- What ends the entry of a merge: the next merge of its host, or a snapshot that is taken too
late for it. -/
def Merge.EndedBy (m : Merge) : Event → Prop
  | .merge other => other.host = m.host
  | .snapshot now => timeToLive < now - m.now
  | _ => False

/-- A merge that is the latest of its host, and for which no snapshot since came too late. -/
def Live (es : List Event) (m : Merge) : Prop := Lasts m.EndedBy es (.merge m)

/-- Whether an event has to do with the status entry. -/
def Event.SetsStatus : Event → Prop
  | .setStatus _ | .clearStatus => True
  | _ => False

/-- The text that was set last as the status, and has not been cleared. -/
def Shown (es : List Event) (text : String) : Prop := Lasts Event.SetsStatus es (.setStatus text)

/-! ### Entries -/

/-- The name under which an advertisement is listed, in full: its marks stand in front of it. -/
def Merge.title (m : Merge) (client : ClientInfo) : String :=
  let mark := annotation client.version m.ad.version m.status
  if mark = "" then m.ad.name else mark ++ " " ++ m.ad.name

/-- `a` is the entry of a merge: the advertisement, each part of it within its bound, under the
host and the time of the merge and with the marks in front of its name. Its number is another
matter. -/
structure Shows (client : ClientInfo) (m : Merge) (a : Ad) : Prop where
  host : a.host = m.host
  lastSeen : a.lastSeen = some m.now
  name : Text.Clipped Ad.maxName (m.title client) a.name
  stat : Text.Clipped Ad.maxStat m.ad.stat a.stat
  extra : a.extra = m.ad.extra.take Ad.maxExtra
  state : a.state = m.ad.state
  version : a.version = m.ad.version
  product : a.product = m.ad.product

theorem listed_shows (d : Directory) (m : Merge) (index : UInt32) :
    Shows d.client m (d.listed m index) := by
  have stat := Text.clip_clipped Ad.maxStat m.ad.stat
  have name := Text.clip_clipped Ad.maxName m.ad.name
  unfold listed entry
  by_cases plain : annotation d.client.version m.ad.version m.status = ""
  · rw [if_pos (show annotation d.client.version m.ad.bound.version m.status = "" from plain)]
    refine ⟨rfl, rfl, ?_, stat, rfl, rfl, rfl, rfl⟩
    rw [Merge.title, if_pos plain]
    exact name
  · rw [if_neg (show ¬ annotation d.client.version m.ad.bound.version m.status = "" from plain)]
    refine ⟨rfl, rfl, ?_, stat, rfl, rfl, rfl, rfl⟩
    rw [Merge.title, if_neg plain]
    exact name.append (Text.clip_clipped ..)

theorem Shows.isLive_iff {client : ClientInfo} {m : Merge} {a : Ad} (h : Shows client m a)
    (now : Nat) : isLive now a = true ↔ ¬timeToLive < now - m.now := by
  rw [isLive, h.lastSeen, decide_eq_true_iff, Nat.not_lt]

theorem Shows.bounded {client : ClientInfo} {m : Merge} {a : Ad} (h : Shows client m a) :
    a.name.utf8ByteSize ≤ 128 ∧ a.stat.utf8ByteSize ≤ 128 ∧ a.extra.length ≤ 128 :=
  ⟨h.name.fits, h.stat.fits, h.extra ▸ List.length_take_le ..⟩

/-- `a` is the entry that shows a text as the status: of no host, at no time, with the data of the
client. -/
structure ShowsStatus (client : ClientInfo) (text : String) (a : Ad) : Prop where
  host : a.host = Ad.noHost
  lastSeen : a.lastSeen = none
  name : Text.Clipped Ad.maxName text a.name
  stat : a.stat = statusStat
  extra : a.extra = statusExtra
  state : a.state = 0
  version : a.version = client.version
  product : a.product = client.product

theorem statusEntry_shows (client : ClientInfo) (text : String) (index : UInt32) :
    ShowsStatus client text
      { (Ad.new text statusStat 0 statusExtra).stamp client with index } := by
  have short : statusStat.utf8ByteSize ≤ Ad.maxStat := by decide +kernel
  have whole : Text.clip Ad.maxStat statusStat = statusStat := by
    rw [Text.clip, if_pos short]
  exact ⟨rfl, rfl, Text.clip_clipped .., whole, rfl, rfl, rfl, rfl⟩

theorem ShowsStatus.bounded {client : ClientInfo} {text : String} {a : Ad}
    (h : ShowsStatus client text a) :
    a.name.utf8ByteSize ≤ 128 ∧ a.stat.utf8ByteSize ≤ 128 ∧ a.extra.length ≤ 128 := by
  refine ⟨h.name.fits, ?_, ?_⟩
  · rw [h.stat]
    decide +kernel
  · rw [h.extra]
    decide

/-! ### Runs -/

theorem step_client (d : Directory) (e : Event) : (d.step e).client = d.client := by
  cases e with
  | merge m =>
    by_cases stored : d.Stores m.host
    · obtain ⟨known, -, -, hmerge⟩ := merge_of_stored stored
      rw [step, hmerge]
    · rw [step, merge_of_new stored]
  | _ => rfl

@[simp] theorem run_client (client : ClientInfo) (es : List Event) :
    (run client es).client = client := by
  induction es using List.reverseRecOn with
  | nil => rfl
  | append_singleton es e ih => rw [run_concat, step_client, ih]

/-- **The entries are those of the live merges.** -/
theorem run_lists (client : ClientInfo) (es : List Event) :
    (∀ a ∈ (run client es).ads, ∃ m, Live es m ∧ Shows client m a) ∧
      ∀ m, Live es m → ∃ a ∈ (run client es).ads, Shows client m a := by
  induction es using List.reverseRecOn with
  | nil =>
    refine ⟨List.forall_mem_nil _, ?_⟩
    rintro m ⟨before, after, heq, -⟩
    simp at heq
  | append_singleton es e ih =>
    obtain ⟨sound, complete⟩ := ih
    rw [run_concat]
    cases e with
    | merge m =>
      -- The merge is live, and ends the entry of its host and no other, as it does in the history.
      have listed : Shows client m ((run client es).listed m ((run client es).number m)) := by
        have shows := listed_shows (run client es) m ((run client es).number m)
        rwa [run_client] at shows
      constructor
      · intro a ha
        rcases mem_merge.1 ha with ⟨ha, other⟩ | rfl
        · obtain ⟨m', live, shows⟩ := sound a ha
          refine ⟨m', lasts_concat.2 (.inr ⟨live, fun same => other ?_⟩), shows⟩
          exact shows.host.trans (Eq.symm same)
        · exact ⟨m, lasts_concat.2 (.inl rfl), listed⟩
      · intro m' live
        rcases lasts_concat.1 live with heq | ⟨live, other⟩
        · cases heq
          exact ⟨_, mem_merge.2 (.inr rfl), listed⟩
        · obtain ⟨a, ha, shows⟩ := complete m' live
          refine ⟨a, mem_merge.2 (.inl ⟨ha, fun same => other ?_⟩), shows⟩
          exact same.symm.trans shows.host
    | snapshot now =>
      constructor
      · intro a ha
        obtain ⟨ha, hlive⟩ := mem_snapshot.1 ha
        obtain ⟨m, live, shows⟩ := sound a ha
        exact ⟨m, lasts_concat.2 (.inr ⟨live, (shows.isLive_iff now).1 hlive⟩), shows⟩
      · intro m live
        obtain ⟨live, intime⟩ := (lasts_concat.1 live).resolve_left nofun
        obtain ⟨a, ha, shows⟩ := complete m live
        exact ⟨a, mem_snapshot.2 ⟨ha, (shows.isLive_iff now).2 intime⟩, shows⟩
    | setStatus | clearStatus =>
      constructor
      · intro a ha
        obtain ⟨m, live, shows⟩ := sound a ha
        exact ⟨m, lasts_concat.2 (.inr ⟨live, id⟩), shows⟩
      · intro m live
        exact complete m ((lasts_concat.1 live).resolve_left nofun).1

theorem shown_concat_of_other {es : List Event} {e : Event} {text : String}
    (other : ¬e.SetsStatus) : Shown (es ++ [e]) text ↔ Shown es text := by
  rw [Shown, lasts_concat]
  constructor
  · rintro (rfl | ⟨shown, -⟩)
    · exact absurd trivial other
    · exact shown
  · exact fun shown => .inr ⟨shown, other⟩

/-- There is a status entry exactly when a text is shown, and it is of that text. -/
theorem run_status (client : ClientInfo) (es : List Event) (a : Ad) :
    (run client es).status = some a ↔
      ∃ text, Shown es text ∧ a = (Ad.new text statusStat 0 statusExtra).stamp client := by
  induction es using List.reverseRecOn with
  | nil =>
    constructor
    · intro h
      cases h
    · rintro ⟨text, ⟨before, after, heq, -⟩, -⟩
      simp at heq
  | append_singleton es e ih =>
    rw [run_concat]
    cases e with
    | merge m =>
      have kept : ((run client es).step (.merge m)).status = (run client es).status := by
        by_cases stored : (run client es).Stores m.host
        · obtain ⟨known, -, -, hmerge⟩ := merge_of_stored stored
          rw [step, hmerge]
        · rw [step, merge_of_new stored]
      rw [kept, ih]
      exact exists_congr fun text => and_congr_left fun _ => (shown_concat_of_other id).symm
    | snapshot now =>
      refine ih.trans (exists_congr fun text => and_congr_left fun _ => ?_)
      exact (shown_concat_of_other id).symm
    | setStatus text =>
      show some ((Ad.new text statusStat 0 statusExtra).stamp (run client es).client) = some a ↔ _
      rw [run_client]
      constructor
      · intro heq
        exact ⟨text, lasts_concat.2 (.inl rfl), (Option.some.inj heq).symm⟩
      · rintro ⟨text', shown, rfl⟩
        rcases lasts_concat.1 shown with heq | ⟨-, quiet⟩
        · cases heq
          rfl
        · exact absurd trivial quiet
    | clearStatus =>
      constructor
      · intro h
        cases h
      · rintro ⟨text, shown, -⟩
        rcases lasts_concat.1 shown with heq | ⟨-, quiet⟩
        · cases heq
        · exact absurd trivial quiet

/-! ### Snapshots -/

/-- The number of the status entry behind a list of entries. -/
def numberBehind (live : List Ad) : Nat :=
  match live.getLast? with
  | some a => a.index.toNat + 1
  | none => 1

/-- What a listing shows of a history: entries for its live merges, each host once and by rising
numbers, and behind them the status. -/
structure Lists (client : ClientInfo) (es : List Event) (live last : List Ad) : Prop where
  sound : ∀ a ∈ live, ∃ m, Live es m ∧ Shows client m a
  complete : ∀ m, Live es m → ∃ a ∈ live, Shows client m a
  hosts : (live.map Ad.host).Nodup
  numbers : (live.map Ad.index).Pairwise (· < ·)
  bounded : ∀ a ∈ live ++ last, a.name.utf8ByteSize ≤ 128 ∧ a.stat.utf8ByteSize ≤ 128 ∧
    a.extra.length ≤ 128
  status : ∀ text, Shown es text → ∃ a, last = [a] ∧ ShowsStatus client text a ∧
    a.index.toNat = numberBehind live
  noStatus : (∀ text, ¬Shown es text) → last = []

/-- The entry that a snapshot puts behind the others for a status, if there is one. -/
def statusBehind (live : List Ad) : Option Ad → List Ad
  | none => []
  | some status =>
    [{ status with index := match live.getLast? with | some ad => ad.index + 1 | none => 1 }]

theorem snapshot_entries (d : Directory) (now : Nat) : (d.snapshot now).2 =
    (d.step (.snapshot now)).ads ++
      statusBehind (d.step (.snapshot now)).ads (d.step (.snapshot now)).status := by
  show _ = _ ++ statusBehind _ d.status
  unfold snapshot
  cases d.status <;> rfl

/-- The number of the status entry does not run over. -/
theorem index_statusBehind {d : Directory} (h : d.Orderly) {bound : Nat}
    (last : d.lastIndex.toNat ≤ bound) (room : bound < 2 ^ 32 - 1) {status a : Ad}
    (ha : a ∈ statusBehind d.ads (some status)) : a.index.toNat = numberBehind d.ads := by
  rw [List.mem_singleton.1 ha, numberBehind]
  cases hlast : d.ads.getLast? with
  | none => rfl
  | some b =>
    have below := UInt32.le_iff_toNat_le.1 (h.bounded b (List.mem_of_getLast? hlast))
    show (b.index + 1).toNat = b.index.toNat + 1
    rw [UInt32.toNat_add]
    exact Nat.mod_eq_of_lt (by show b.index.toNat + 1 < 2 ^ 32; omega)

/-- **A snapshot lists the live merges, and the status behind them.** -/
theorem snapshot_lists (client : ClientInfo) {es : List Event} (few : merges es < 2 ^ 32 - 1)
    (now : Nat) : ∃ live last, ((run client es).snapshot now).2 = live ++ last ∧
      Lists client (es ++ [.snapshot now]) live last := by
  have same : merges (es ++ [.snapshot now]) = merges es := merges_append ..
  rw [← same] at few
  have orderly : (run client (es ++ [.snapshot now])).Orderly := run_orderly (Nat.le_of_lt few)
  have lastIndex := lastIndex_le client (es ++ [.snapshot now])
  have status := run_status client (es ++ [.snapshot now])
  obtain ⟨sound, complete⟩ := run_lists client (es ++ [.snapshot now])
  rw [snapshot_entries, ← run_concat]
  generalize run client (es ++ [.snapshot now]) = d at *
  have shows : ∀ a ∈ statusBehind d.ads d.status, ∃ text, ShowsStatus client text a := by
    intro a ha
    cases hstatus : d.status with
    | none =>
      rw [hstatus] at ha
      exact absurd ha List.not_mem_nil
    | some entry =>
      obtain ⟨text, -, rfl⟩ := (status entry).1 hstatus
      rw [hstatus] at ha
      rw [List.mem_singleton.1 ha]
      exact ⟨text, statusEntry_shows ..⟩
  refine ⟨d.ads, statusBehind d.ads d.status, rfl, sound, complete, orderly.hosts,
    orderly.numbers, ?_, ?_, ?_⟩
  · intro a ha
    rcases List.mem_append.1 ha with ha | ha
    · obtain ⟨m, -, shows⟩ := sound a ha
      exact shows.bounded
    · obtain ⟨text, shows⟩ := shows a ha
      exact shows.bounded
  · intro text shown
    have set := (status _).2 ⟨text, shown, rfl⟩
    refine ⟨_, by rw [set, statusBehind], statusEntry_shows .., ?_⟩
    exact index_statusBehind orderly lastIndex few (List.mem_singleton.2 rfl)
  · intro silent
    cases hstatus : d.status with
    | none => rfl
    | some a =>
      obtain ⟨text, shown, -⟩ := (status a).1 hstatus
      exact absurd shown (silent text)

/-- A run in which the first host is dropped by a snapshot, comes back, and a status is set. -/
def returning : List Event :=
  let ad := Ad.new "alice's game" "" 0 []
  [.merge ⟨.filled 1, ad, none, 0⟩, .merge ⟨.filled 2, ad, some (.failed, .unknown), 1500⟩,
    .snapshot 2001, .merge ⟨.filled 1, ad, none, 2100⟩, .setStatus "waiting"]

theorem snapshot_lists_returning : merges returning < 2 ^ 32 - 1 ∧
    (∃ live last, ((run ⟨1, 2⟩ returning).snapshot 3000).2 = live ++ last ∧
      Lists ⟨1, 2⟩ (returning ++ [.snapshot 3000]) live last) ∧
    ((run ⟨1, 2⟩ returning).snapshot 3000).2.map (fun a => (a.index, a.name)) =
      [(2, "[!Ver][P2P Failed] alice's game"), (3, "[!Ver] alice's game"), (4, "waiting")] :=
  ⟨by decide, snapshot_lists _ (by decide) 3000, by decide +kernel⟩

end Directory
end Parley

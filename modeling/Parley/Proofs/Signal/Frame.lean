import Parley.Signal.Frame
import Mathlib.Data.List.Induction
/-!
How a stream is cut into messages.

`Cut` says what the segments of a stream are, without a word on how they are found: the delimiter
behind each of them is the first one there, and there is none in what is left. There is one way
only to cut a stream, and the way in which `split` cuts it goes on when more octets arrive
(`Cut.append`). So it is the same whether a stream is taken at once or in chunks, wherever these
end (`feed_chunks`).
-/
namespace Parley.Frame

/-- The delimiter stands at the position `i`. -/
def DelimiterAt (bs : Bytes) (i : Nat) : Prop := bs[i]? = some dash ∧ bs[i + 1]? = some plus

/-- The stream `bs` consists of complete segments, behind each of which the delimiter stands for the
first time, and of the octets behind the last delimiter. -/
inductive Cut : (bs : Bytes) → (segments : List Bytes) → (rest : Bytes) → Prop
  | rest {bs} : (∀ i, ¬DelimiterAt bs i) → Cut bs [] bs
  | segment {segment bs segments rest} :
      (∀ i < segment.length, ¬DelimiterAt (segment ++ delimiter ++ bs) i) →
      Cut bs segments rest → Cut (segment ++ delimiter ++ bs) (segment :: segments) rest

/-- What segments hold, one after the other: an empty one nothing, and any other one a message or
a failure. -/
inductive Reads : (segments : List Bytes) → (messages : List Message) → (failures : Nat) → Prop
  | nil : Reads [] [] 0
  | empty {segments messages failures} : Reads segments messages failures →
      Reads ([] :: segments) messages failures
  | message {segment m segments messages failures} : segment ≠ [] → decode? segment = some m →
      Reads segments messages failures → Reads (segment :: segments) (m :: messages) failures
  | failure {segment segments messages failures} : segment ≠ [] → decode? segment = none →
      Reads segments messages failures → Reads (segment :: segments) messages (failures + 1)

/-! ### Delimiters -/

theorem delimiterAt_append {bs more : Bytes} {i : Nat} (h : i + 1 < bs.length) :
    DelimiterAt (bs ++ more) i ↔ DelimiterAt bs i := by
  rw [DelimiterAt, DelimiterAt, List.getElem?_append_left (by omega), List.getElem?_append_left h]

theorem delimiterAt_segment (segment bs : Bytes) :
    DelimiterAt (segment ++ delimiter ++ bs) segment.length := by
  simp [DelimiterAt, delimiter]

theorem DelimiterAt.lt {bs : Bytes} {i : Nat} (h : DelimiterAt bs i) : i + 1 < bs.length :=
  (List.getElem?_eq_some_iff.1 h.2).1

theorem hasDelimiter_cons (b : UInt8) (bs : Bytes) :
    hasDelimiter (b :: bs) = (b == dash && bs.head? == some plus || hasDelimiter bs) := by
  cases bs with
  | nil => simp [hasDelimiter]
  | cons c bs => simp [hasDelimiter]

theorem hasDelimiter_iff {bs : Bytes} : hasDelimiter bs = true ↔ ∃ i, DelimiterAt bs i := by
  induction bs with
  | nil => simp [hasDelimiter, DelimiterAt]
  | cons b bs ih =>
    have here : DelimiterAt (b :: bs) 0 ↔ b = dash ∧ bs.head? = some plus := by
      simp [DelimiterAt, List.head?_eq_getElem?]
    rw [hasDelimiter_cons]
    simp only [Bool.or_eq_true, Bool.and_eq_true, beq_iff_eq, ih]
    constructor
    · rintro (h | ⟨i, hi⟩)
      · exact ⟨0, here.2 h⟩
      · exact ⟨i + 1, hi⟩
    · rintro ⟨_ | i, hi⟩
      · exact .inl (here.1 hi)
      · exact .inr ⟨i, hi⟩

/-- Behind octets without a delimiter, the one that is put there is the first. -/
theorem delimiter_first {bs : Bytes} (h : hasDelimiter bs = false) (more : Bytes) :
    ∀ i < bs.length, ¬DelimiterAt (bs ++ delimiter ++ more) i := by
  intro i hi hat
  rw [List.append_assoc] at hat
  rcases Nat.lt_or_eq_of_le (Nat.succ_le_of_lt hi) with hlt | heq
  · rw [hasDelimiter_iff.2 ⟨i, (delimiterAt_append hlt).1 hat⟩] at h
    cases h
  · have second := hat.2
    rw [show i + 1 = bs.length from heq] at second
    simp [delimiter, dash, plus] at second

/-! ### Cutting -/

theorem splitFrom_cut (complete : List Bytes) (current bs : Bytes)
    (h : ∀ i < current.length, ¬DelimiterAt (current.reverse ++ bs) i) :
    ∃ segments rest, splitFrom complete current bs = (complete.reverse ++ segments, rest) ∧
      Cut (current.reverse ++ bs) segments rest := by
  -- The induction is on what is left to read; before `current` ends, no delimiter starts.
  induction complete, current, bs using splitFrom.induct with
  | case1 complete current =>
    refine ⟨[], current.reverse, by simp [splitFrom], ?_⟩
    rw [List.append_nil] at h ⊢
    exact .rest fun i hi => h i (by simpa using Nat.lt_of_succ_lt hi.lt) hi
  | case2 complete current b =>
    refine ⟨[], current.reverse ++ [b], by simp [splitFrom], .rest fun i hi => ?_⟩
    exact h i (by simpa using hi.lt) hi
  | case3 complete current a b bs hdelimiter ih =>
    obtain ⟨rfl, rfl⟩ := hdelimiter
    obtain ⟨segments, rest, hsplit, hcut⟩ := ih (by simp)
    refine ⟨current.reverse :: segments, rest, by simp [splitFrom, hsplit], ?_⟩
    have opened : current.reverse ++ dash :: plus :: bs = current.reverse ++ delimiter ++ bs := by
      simp [delimiter]
    rw [opened] at h ⊢
    exact .segment (by simpa using h) hcut
  | case4 complete current a b bs hother ih =>
    have moved : (a :: current).reverse ++ b :: bs = current.reverse ++ a :: b :: bs := by simp
    rw [moved] at ih
    obtain ⟨segments, rest, hsplit, hcut⟩ := ih fun i hi hat => by
      rcases Nat.lt_succ_iff_lt_or_eq.1 hi with hlt | rfl
      · exact h i hlt hat
      · exact hother (by simpa [DelimiterAt] using hat)
    exact ⟨segments, rest, by rw [splitFrom, if_neg hother, hsplit], hcut⟩

/-- Splitting a stream cuts it. -/
theorem split_cut (bs : Bytes) : Cut bs (split bs).1 (split bs).2 := by
  obtain ⟨segments, rest, hsplit, hcut⟩ := splitFrom_cut [] [] bs (by simp)
  rw [split, hsplit]
  exact hcut

/-- A stream is cut in one way only. -/
theorem Cut.unique {bs : Bytes} {segments segments' : List Bytes} {rest rest' : Bytes}
    (h : Cut bs segments rest) (h' : Cut bs segments' rest') :
    segments = segments' ∧ rest = rest' := by
  induction h generalizing segments' with
  | rest hnone =>
    cases h' with
    | rest => exact ⟨rfl, rfl⟩
    | segment => exact absurd (delimiterAt_segment ..) (hnone _)
  | @segment segment after segments rest hfirst hcut ih =>
    generalize hbs : segment ++ delimiter ++ after = bs at hfirst h'
    cases h' with
    | rest hnone => exact absurd (hbs ▸ delimiterAt_segment ..) (hnone _)
    | @segment segment' after' segments' _ hfirst' hcut' =>
      -- Each of the two delimiters is the first one, so neither stands before the other.
      have same : segment.length = segment'.length := by
        rcases Nat.lt_trichotomy segment.length segment'.length with hlt | heq | hlt
        · exact absurd (hbs ▸ delimiterAt_segment ..) (hfirst' _ hlt)
        · exact heq
        · exact absurd (delimiterAt_segment ..) (hfirst _ hlt)
      simp only [List.append_assoc] at hbs
      obtain ⟨rfl, hafter⟩ := List.append_inj hbs same
      obtain rfl := List.append_cancel_left hafter
      obtain ⟨rfl, rfl⟩ := ih hcut'
      exact ⟨rfl, rfl⟩

theorem split_eq_iff {bs : Bytes} {segments : List Bytes} {rest : Bytes} :
    split bs = (segments, rest) ↔ Cut bs segments rest := by
  constructor
  · intro h
    simpa [h] using split_cut bs
  · intro h
    obtain ⟨hsegments, hrest⟩ := (split_cut bs).unique h
    exact Prod.ext hsegments hrest

/-- When more octets arrive, the complete segments stay, and cutting goes on in what is left. -/
theorem Cut.append {bs more : Bytes} {segments segments' : List Bytes} {rest rest' : Bytes}
    (h : Cut bs segments rest) (h' : Cut (rest ++ more) segments' rest') :
    Cut (bs ++ more) (segments ++ segments') rest' := by
  induction h with
  | rest => exact h'
  | @segment segment after segments rest hfirst _ ih =>
    rw [List.append_assoc]
    refine .segment (fun i hi hat => hfirst i hi ?_) (ih h')
    rw [← List.append_assoc] at hat
    exact (delimiterAt_append (by simp [delimiter]; omega)).1 hat

/-- What is left of a stream contains no delimiter. -/
theorem Cut.rest_open {bs : Bytes} {segments : List Bytes} {rest : Bytes}
    (h : Cut bs segments rest) (i : Nat) : ¬DelimiterAt rest i := by
  induction h with
  | rest hnone => exact hnone i
  | segment _ _ ih => exact ih

/-! ### Reading -/

theorem decodeSegments_reads (segments : List Bytes) :
    Reads segments (decodeSegments segments).1 (decodeSegments segments).2 := by
  induction segments with
  | nil => exact .nil
  | cons segment segments ih =>
    by_cases hempty : segment = []
    · subst hempty
      simpa [decodeSegments] using Reads.empty ih
    · cases hdecode : decode? segment with
      | none => simpa [decodeSegments, hempty, hdecode] using Reads.failure hempty hdecode ih
      | some m => simpa [decodeSegments, hempty, hdecode] using Reads.message hempty hdecode ih

theorem Reads.unique {segments : List Bytes} {messages messages' : List Message}
    {failures failures' : Nat} (h : Reads segments messages failures)
    (h' : Reads segments messages' failures') : messages = messages' ∧ failures = failures' := by
  induction h generalizing messages' failures' with
  | nil =>
    cases h'
    exact ⟨rfl, rfl⟩
  | empty _ ih =>
    cases h' with
    | empty h' => exact ih h'
    | message hne | failure hne => exact absurd rfl hne
  | message hne hdecode _ ih =>
    cases h' with
    | empty => exact absurd rfl hne
    | message _ hdecode' h' =>
      rw [hdecode] at hdecode'
      cases hdecode'
      exact (ih h').imp_left (congrArg _)
    | failure _ hdecode' => simp [hdecode] at hdecode'
  | failure hne hdecode _ ih =>
    cases h' with
    | empty => exact absurd rfl hne
    | message _ hdecode' => simp [hdecode] at hdecode'
    | failure _ _ h' => exact (ih h').imp_right (congrArg _)

theorem Reads.append {segments segments' : List Bytes} {messages messages' : List Message}
    {failures failures' : Nat} (h : Reads segments messages failures)
    (h' : Reads segments' messages' failures') :
    Reads (segments ++ segments') (messages ++ messages') (failures + failures') := by
  induction h with
  | nil => simpa using h'
  | empty _ ih => exact .empty ih
  | message hne hdecode _ ih => exact .message hne hdecode ih
  | failure hne hdecode _ ih =>
    rw [Nat.add_right_comm]
    exact .failure hne hdecode ih

/-! ### Decoding -/

/-- What a stream holds is what the segments hold into which it is cut. -/
theorem decodeAll_eq_iff {bs : Bytes} {messages : List Message} {failures : Nat} {rest : Bytes} :
    decodeAll bs = ⟨messages, failures, rest⟩ ↔
      ∃ segments, Cut bs segments rest ∧ Reads segments messages failures := by
  have reads := decodeSegments_reads (split bs).1
  simp only [decodeAll, Decoded.mk.injEq]
  constructor
  · rintro ⟨rfl, rfl, rfl⟩
    exact ⟨_, split_cut bs, reads⟩
  · rintro ⟨segments, hcut, hreads⟩
    rw [split_eq_iff.2 hcut] at reads ⊢
    obtain ⟨hmessages, hfailures⟩ := reads.unique hreads
    exact ⟨hmessages, hfailures, rfl⟩

/-- Takes a chunk behind what is left of the octets before it. -/
def feed (d : Decoded) (chunk : Bytes) : Decoded :=
  let e := decodeAll (d.rest ++ chunk)
  ⟨d.messages ++ e.messages, d.failures + e.failures, e.rest⟩

/-- Decoding what has arrived and then what arrives is decoding all of it. -/
theorem feed_decodeAll (bs more : Bytes) : feed (decodeAll bs) more = decodeAll (bs ++ more) := by
  obtain ⟨segments, hcut, hreads⟩ := decodeAll_eq_iff.1 (Eq.refl (decodeAll bs))
  obtain ⟨segments', hcut', hreads'⟩ :=
    decodeAll_eq_iff.1 (Eq.refl (decodeAll ((decodeAll bs).rest ++ more)))
  exact (decodeAll_eq_iff.2 ⟨_, hcut.append hcut', hreads.append hreads'⟩).symm

/-- **How a stream is cut into chunks does not matter.** Chunks that arrive one after the other give
what the whole stream gives: the messages and failures of the segments between its delimiters, each
found from left to right, and a rest without a delimiter. -/
theorem feed_chunks (chunks : List Bytes) :
    chunks.foldl feed ⟨[], 0, []⟩ = decodeAll chunks.flatten ∧
    (∀ i, ¬DelimiterAt (decodeAll chunks.flatten).rest i) ∧
    ∀ messages failures rest, decodeAll chunks.flatten = ⟨messages, failures, rest⟩ ↔
      ∃ segments, Cut chunks.flatten segments rest ∧ Reads segments messages failures := by
  refine ⟨?_, (split_cut chunks.flatten).rest_open, fun _ _ _ => decodeAll_eq_iff⟩
  -- The induction is from the last chunk: all before it have been taken like their whole.
  induction chunks using List.reverseRecOn with
  | nil => rfl
  | append_singleton chunks chunk ih =>
    rw [List.foldl_append, ih, List.foldl_cons, List.foldl_nil, feed_decodeAll]
    simp

end Parley.Frame

import Parley.Net.Text
import Parley.Proofs.Text.Digits
import Mathlib.Data.Fintype.Basic
/-!
Reading back the text of an address.

The text of an address is read as the address, except that a socket address of version 6 has lost
its flow information, which no text carries (`SocketAddress.ofText?_text`). Version 6 is the
delicate one: its groups have to be told from a version 4 address that stands in their place, and
the `::` has to be filled with as many zero groups as it left out.
-/
namespace Parley
namespace Net

/-- Text that does not go on with a digit. -/
def NoDigit (radix : Nat) (rest : List Char) : Prop :=
  ∀ c, rest.head? = some c → digit? radix c = none

theorem digit?_digitChar {radix d : Nat} (hradix : radix ≤ 16) (h : d < radix) :
    digit? radix (Nat.digitChar d) = some d := by
  have all : ∀ r : Fin 17, ∀ d : Fin 16, d.val < r.val → digit? r (Nat.digitChar d) = some d.val := by
    decide
  exact all ⟨radix, by omega⟩ ⟨d, by omega⟩ h

/-- The digits of a number are read up to what follows them. -/
theorem digits_toDigits {radix n : Nat} {ds : List Nat} (hradix : radix ≤ 16)
    (h : Text.Written radix n ds) {rest : List Char} (hrest : NoDigit radix rest) :
    digits radix (Nat.toDigits radix n ++ rest) = (ds, rest) := by
  have values : ∀ d ∈ ds, digit? radix (Nat.digitChar d) = some d :=
    fun d hd => digit?_digitChar hradix (h.lt d hd)
  have span : (ds.map Nat.digitChar ++ rest).span (fun c => (digit? radix c).isSome) =
      (ds.map Nat.digitChar, rest) := by
    refine Text.span_append (fun c hc => ?_) fun c hc => by simp [hrest c hc]
    obtain ⟨d, hd, rfl⟩ := List.mem_map.1 hc
    rw [values d hd]
    rfl
  rw [h.toDigits, digits, span]
  simp only [List.filterMap_map, Prod.mk.injEq, and_true]
  exact (List.filterMap_congr values).trans List.filterMap_some

theorem readNumber_toDigits {limit n : Nat} (h : n < limit) {rest : List Char}
    (hrest : NoDigit 10 rest) :
    readNumber limit 10 (Nat.toDigits 10 n ++ rest) = some (n, rest) := by
  obtain ⟨ds, hds⟩ := Text.exists_written (by decide : 1 < 10) n
  have notOver : ¬(ds = [] ∨ limit ≤ n) := by simp [hds.ne_nil, h]
  simp only [readNumber, digits_toDigits (by decide) hds hrest, hds.numberUpTo (by decide) h]
  rw [if_neg notOver]

/-! ### Version 4 -/

theorem readOctet_toDigits (b : UInt8) {rest : List Char} (hrest : NoDigit 10 rest) :
    readOctet (Nat.toDigits 10 b.toNat ++ rest) = some (b, rest) := by
  obtain ⟨ds, hds⟩ := Text.exists_written (by decide : 1 < 10) b.toNat
  have noZero : ¬(ds.head? = some 0 ∧ 1 < ds.length) := by
    rintro ⟨hhead, hlength⟩
    cases ds with
    | nil => cases hhead
    | cons d ds =>
      cases hhead
      rw [hds.head ds rfl] at hlength
      simp at hlength
  have small := hds.numberUpTo (by decide) b.toNat_lt
  simp only [readOctet, digits_toDigits (by decide) hds hrest]
  rw [small, if_neg (by simp only [not_or]; exact ⟨hds.ne_nil, noZero, by have := b.toNat_lt; omega⟩)]
  simp

theorem noDigit_cons {radix : Nat} {c : Char} (h : digit? radix c = none) (cs : List Char) :
    NoDigit radix (c :: cs) := by
  rintro _ ⟨⟩
  exact h

theorem noDigit_nil (radix : Nat) : NoDigit radix [] := nofun

theorem ipv4_text_toList (ip : Ipv4) : ip.text.toList =
    Nat.toDigits 10 ip.a.toNat ++ '.' :: (Nat.toDigits 10 ip.b.toNat ++ '.' ::
      (Nat.toDigits 10 ip.c.toNat ++ '.' :: Nat.toDigits 10 ip.d.toNat)) := by
  simp [Ipv4.text, toString, Nat.toList_repr]

theorem readIpv4_text (ip : Ipv4) {rest : List Char} (hrest : NoDigit 10 rest) :
    readIpv4 (ip.text.toList ++ rest) = some (ip, rest) := by
  have dot : ∀ cs, NoDigit 10 ('.' :: cs) := noDigit_cons (by decide)
  rw [ipv4_text_toList]
  simp only [List.append_assoc, List.cons_append]
  simp [readIpv4, readOctet_toDigits _ (dot _), readOctet_toDigits _ hrest, readChar]

/-! ### Groups of version 6 -/

/-- Groups with a colon before each of them. -/
def joined (gs : List Nat) : List Char := gs.flatMap fun g => ':' :: Nat.toDigits 16 g

theorem groupsText_cons (g : Nat) (gs : List Nat) :
    (Ipv6.groupsText (g :: gs)).toList = Nat.toDigits 16 g ++ joined gs := by
  induction gs generalizing g with
  | nil => simp [Ipv6.groupsText, joined]
  | cons g' gs ih =>
    have rest := ih g'
    simp only [Ipv6.groupsText, List.map_cons, String.intercalate_cons_cons] at rest ⊢
    rw [String.toList_append, rest]
    simp [joined]

/-- What may follow a group: neither a digit nor the point of a version 4 address. -/
structure NoGroup (rest : List Char) : Prop where
  digit : NoDigit 16 rest
  point : rest.head? ≠ some '.'

theorem noGroup_colon (cs : List Char) : NoGroup (':' :: cs) :=
  ⟨noDigit_cons (by decide) cs, by simp⟩

theorem readGroup_toDigits {g : Nat} (h : g < 65536) {rest : List Char} (hrest : NoGroup rest) :
    readGroup (Nat.toDigits 16 g ++ rest) = some (g, rest) := by
  obtain ⟨ds, hds⟩ := Text.exists_written (by decide : 1 < 16) g
  have length := hds.length_le (k := 4) (by decide) (by decide) (by simpa using h)
  simp only [readGroup, digits_toDigits (by decide) hds hrest.digit]
  rw [if_neg (by simp only [not_or]; exact ⟨hds.ne_nil, by omega⟩), hds.number]

theorem decimal_of_hexadecimal {c : Char} (h : digit? 16 c = none) : digit? 10 c = none := by
  rw [digit?, Option.filter_eq_none_iff] at h ⊢
  intro v hv hlt
  exact h v hv (by simp at hlt ⊢; omega)

/-- Without a point behind its decimal digits a text is no address of version 4. -/
theorem readIpv4_eq_none {cs : List Char}
    (h : (cs.dropWhile fun c => (digit? 10 c).isSome).head? ≠ some '.') : readIpv4 cs = none := by
  have rest : ∀ octet after, readOctet cs = some (octet, after) →
      after = cs.dropWhile fun c => (digit? 10 c).isSome := by
    intro octet after hread
    simp only [readOctet, digits, List.span_eq_takeWhile_dropWhile] at hread
    split at hread
    · cases hread
    · cases hread
      rfl
  cases hread : readOctet cs with
  | none => simp [readIpv4, hread]
  | some first =>
    obtain ⟨octet, after⟩ := first
    have hafter := rest octet after hread
    have stuck : readChar '.' after = none := by
      cases after with
      | nil => rfl
      | cons c cs =>
        rw [← hafter] at h
        exact if_neg fun hc => h (by simp [hc])
    simp [readIpv4, hread, stuck]

/-- A group is never taken for the first number of a version 4 address. -/
theorem readIpv4_group {g : Nat} {rest : List Char} (hrest : NoGroup rest) :
    readIpv4 (Nat.toDigits 16 g ++ rest) = none := by
  obtain ⟨ds, hds⟩ := Text.exists_written (by decide : 1 < 16) g
  apply readIpv4_eq_none
  rw [hds.toDigits]
  have lt := hds.lt
  clear hds
  induction ds with
  | nil =>
    cases rest with
    | nil => simp
    | cons c cs =>
      rw [List.map_nil, List.nil_append, List.dropWhile_cons]
      split
      · rename_i hdigit
        rw [decimal_of_hexadecimal (hrest.digit c rfl)] at hdigit
        cases hdigit
      · simpa using hrest.point
  | cons d ds ih =>
    have all : ∀ d : Fin 16, Nat.digitChar d ≠ '.' := by decide
    rw [List.map_cons, List.cons_append, List.dropWhile_cons]
    split
    · exact ih fun d hd => lt d (List.mem_cons_of_mem _ hd)
    · exact fun h => all ⟨d, lt d (List.mem_cons_self ..)⟩ (Option.some.inj h)

/-- No group can be read from what follows: it starts with no colon, or with two. -/
structure Closed (rest : List Char) : Prop where
  noGroup : NoGroup rest
  noStart : readChar ':' rest = none ∨ ∃ cs, rest = ':' :: ':' :: cs

theorem readIpv4_noGroup {rest : List Char} (h : NoGroup rest) : readIpv4 rest = none := by
  apply readIpv4_eq_none
  cases rest with
  | nil => simp
  | cons c cs =>
    rw [List.dropWhile_cons, decimal_of_hexadecimal (h.digit c rfl)]
    exact h.point

theorem readGroup_noGroup {rest : List Char} (h : NoGroup rest) : readGroup rest = none := by
  have span : rest.span (fun c => (digit? 16 c).isSome) = ([], rest) :=
    Text.span_append (List.forall_mem_nil _) fun c hc => by simp [h.digit c hc]
  simp only [readGroup, digits, span]
  rfl

theorem readGroups_nothing {rest : List Char} (h : NoGroup rest) (limit : Nat) :
    readGroups limit false rest = ⟨[], false, rest⟩ := by
  cases limit with
  | zero => rfl
  | succ limit => simp [readGroups, readIpv4_noGroup h, readGroup_noGroup h]

theorem readGroups_closed {rest : List Char} (h : Closed rest) (limit : Nat) :
    readGroups limit true rest = ⟨[], false, rest⟩ := by
  cases limit with
  | zero => rfl
  | succ limit =>
    rcases h.noStart with hnone | ⟨cs, rfl⟩
    · simp [readGroups, hnone]
    · have none := noGroup_colon cs
      simp [readGroups, readChar, readIpv4_noGroup none, readGroup_noGroup none]

/-- A group in front and what is read behind it. -/
theorem readGroups_group {g : Nat} (h : g < 65536) {rest : List Char} (hrest : NoGroup rest)
    (limit : Nat) : readGroups (limit + 1) false (Nat.toDigits 16 g ++ rest) =
      ⟨g :: (readGroups limit true rest).values, (readGroups limit true rest).endsInIpv4,
        (readGroups limit true rest).rest⟩ := by
  simp [readGroups, readIpv4_group hrest, readGroup_toDigits h hrest]

theorem readGroups_separated (limit : Nat) (g : Nat) (cs : List Char) (h : g < 65536)
    (hcs : NoGroup cs) : readGroups (limit + 1) true (':' :: (Nat.toDigits 16 g ++ cs)) =
      readGroups (limit + 1) false (Nat.toDigits 16 g ++ cs) := by
  rw [readGroups_group h hcs]
  simp [readGroups, readChar, readIpv4_group hcs, readGroup_toDigits h hcs]

theorem noGroup_joined (gs : List Nat) {rest : List Char} (h : NoGroup rest) :
    NoGroup (joined gs ++ rest) := by
  cases gs with
  | nil => exact h
  | cons g gs => exact noGroup_colon _

theorem readGroups_joined {gs : List Nat} (h : ∀ g ∈ gs, g < 65536) {limit : Nat}
    (hlimit : gs.length ≤ limit) {rest : List Char} (hrest : Closed rest) :
    readGroups limit true (joined gs ++ rest) = ⟨gs, false, rest⟩ := by
  induction gs generalizing limit with
  | nil => exact readGroups_closed hrest limit
  | cons g gs ih =>
    obtain ⟨limit, rfl⟩ : ∃ l, limit = l + 1 := ⟨limit - 1, by simp at hlimit; omega⟩
    have others := ih (fun g hg => h g (List.mem_cons_of_mem _ hg))
      (by simpa using hlimit : gs.length ≤ limit)
    have hg := h g (List.mem_cons_self ..)
    have behind := noGroup_joined gs hrest.noGroup
    have front : joined (g :: gs) ++ rest = ':' :: (Nat.toDigits 16 g ++ (joined gs ++ rest)) := by
      simp [joined]
    rw [front, readGroups_separated limit g _ hg behind, readGroups_group hg behind, others]

/-- Groups are read up to what closes them. -/
theorem readGroups_groupsText {gs : List Nat} (h : ∀ g ∈ gs, g < 65536) {limit : Nat}
    (hlimit : gs.length ≤ limit) {rest : List Char} (hrest : Closed rest) :
    readGroups limit false ((Ipv6.groupsText gs).toList ++ rest) = ⟨gs, false, rest⟩ := by
  cases gs with
  | nil => exact readGroups_nothing hrest.noGroup limit
  | cons g gs =>
    obtain ⟨limit, rfl⟩ : ∃ l, limit = l + 1 := ⟨limit - 1, by simp at hlimit; omega⟩
    have hg := h g (List.mem_cons_self ..)
    rw [groupsText_cons, List.append_assoc, readGroups_group hg (noGroup_joined gs hrest.noGroup),
      readGroups_joined (fun g hg => h g (List.mem_cons_of_mem _ hg)) (by simpa using hlimit) hrest]

end Net

/-! ### Zero groups -/

namespace Ipv6

theorem zeroRun_le (gs : List Nat) : (zeroRun gs).2 ≤ leadingZeros (gs.drop (zeroRun gs).1) := by
  unfold zeroRun
  have grow : ∀ (is : List Nat) (best : Nat × Nat), best.2 ≤ leadingZeros (gs.drop best.1) →
      (is.foldl (fun best i =>
        let n := leadingZeros (gs.drop i)
        if best.2 < n then (i, n) else best) best).2 ≤
      leadingZeros (gs.drop (is.foldl (fun best i =>
        let n := leadingZeros (gs.drop i)
        if best.2 < n then (i, n) else best) best).1) := by
    intro is
    induction is with
    | nil => exact fun _ h => h
    | cons i is ih =>
      intro best h
      rw [List.foldl_cons]
      apply ih
      simp only
      split
      · exact Nat.le_refl _
      · exact h
  exact grow _ (0, 0) (Nat.zero_le _)

theorem take_of_le_leadingZeros {gs : List Nat} {n : Nat} (h : n ≤ leadingZeros gs) :
    gs.take n = List.replicate n 0 := by
  induction gs generalizing n with
  | nil =>
    simp only [leadingZeros, List.takeWhile_nil, List.length_nil, Nat.le_zero] at h
    simp [h]
  | cons g gs ih =>
    cases n with
    | zero => rfl
    | succ n =>
      rw [leadingZeros, List.takeWhile_cons] at h
      split at h
      · rename_i hg
        simp only [List.length_cons, Nat.add_le_add_iff_right] at h
        rw [List.take_succ_cons, ih h, List.replicate_succ, beq_iff_eq.1 hg]
      · simp at h

/-- The groups on either side of the run and the zeros between them. -/
theorem zeroRun_split (gs : List Nat) : gs = gs.take (zeroRun gs).1 ++
    (List.replicate (zeroRun gs).2 0 ++ gs.drop ((zeroRun gs).1 + (zeroRun gs).2)) := by
  have zeros := take_of_le_leadingZeros (zeroRun_le gs)
  rw [← zeros, ← List.drop_drop, List.take_append_drop, List.take_append_drop]

theorem pairs_flatMap (bs : Bytes) (h : bs.length % 2 = 0) :
    (pairs bs).flatMap (Bytes.bigEndian 2) = bs := by
  induction bs using pairs.induct with
  | case1 hi lo rest ih =>
    have number : Bytes.ofBigEndian [hi, lo] = hi.toNat * 256 + lo.toNat := by
      simp only [Bytes.ofBigEndian, List.reverse_cons, List.reverse_nil, List.nil_append,
        List.cons_append, Bytes.ofLittleEndian]
      omega
    have two : Bytes.bigEndian 2 (hi.toNat * 256 + lo.toNat) = [hi, lo] := by
      rw [← number]
      exact Bytes.bigEndian_ofBigEndian rfl
    rw [pairs, List.flatMap_cons, two, ih (by simp at h; omega)]
    rfl
  | case2 bs hshort =>
    cases bs with
    | nil => rfl
    | cons hi rest =>
      cases rest with
      | nil => simp at h
      | cons lo rest => exact absurd rfl (hshort hi lo rest)

theorem pairs_lt {bs : Bytes} {g : Nat} (h : g ∈ pairs bs) : g < 65536 := by
  induction bs using pairs.induct with
  | case1 hi lo rest ih =>
    rw [pairs, List.mem_cons] at h
    rcases h with rfl | h
    · have hhi := hi.toNat_lt
      have hlo := lo.toNat_lt
      omega
    · exact ih h
  | case2 bs hshort =>
    rw [pairs] at h
    · cases h
    · exact hshort

theorem ofGroups?_groups (ip : Ipv6) : ofGroups? ip.groups = some ip := by
  rw [ofGroups?, groups, pairs_flatMap _ (by rw [ip.length_octets])]
  exact dif_pos ip.length_octets

theorem length_groups (ip : Ipv6) : ip.groups.length = 8 := by
  have octets := ip.length_octets
  have whole := congrArg List.length (pairs_flatMap ip.octets (by rw [octets]))
  rw [octets, List.length_flatMap] at whole
  simp at whole
  rw [groups]
  omega

end Ipv6
/-! ### Version 6 -/

namespace Net

/-- What may follow an address of version 6: no group and no colon. -/
structure AfterIpv6 (rest : List Char) : Prop where
  noGroup : NoGroup rest
  noColon : readChar ':' rest = none

theorem AfterIpv6.closed {rest : List Char} (h : AfterIpv6 rest) : Closed rest :=
  ⟨h.noGroup, .inl h.noColon⟩

theorem readIpv6_groups (ip : Ipv6) {rest : List Char} (hrest : AfterIpv6 rest) :
    readIpv6 ((Ipv6.groupsText ip.groups).toList ++ rest) = some (ip, rest) := by
  have small : ∀ g ∈ ip.groups, g < 65536 := fun _ => Ipv6.pairs_lt
  have head := readGroups_groupsText small (Nat.le_of_eq ip.length_groups) hrest.closed
  simp [readIpv6, head, ip.length_groups, Ipv6.ofGroups?_groups]

/-- Groups around a `::`, which stands for the zeros that were left out. -/
theorem readIpv6_compressed {front back : List Nat} {n : Nat} {ip : Ipv6}
    (hgroups : ip.groups = front ++ (List.replicate n 0 ++ back)) (hn : 0 < n) {rest : List Char}
    (hrest : AfterIpv6 rest) :
    readIpv6 ((Ipv6.groupsText front).toList ++ ':' :: ':' ::
      ((Ipv6.groupsText back).toList ++ rest)) = some (ip, rest) := by
  have small : ∀ g ∈ ip.groups, g < 65536 := fun _ => Ipv6.pairs_lt
  have whole := ip.length_groups
  rw [hgroups] at small whole
  simp only [List.length_append, List.length_replicate] at whole
  have head := readGroups_groupsText (fun g hg => small g (List.mem_append_left _ hg))
    (by omega : front.length ≤ 8) (Closed.mk (noGroup_colon _)
      (.inr ⟨(Ipv6.groupsText back).toList ++ rest, rfl⟩))
  have tail := readGroups_groupsText
    (fun g hg => small g (List.mem_append_right _ (List.mem_append_right _ hg)))
    (by omega : back.length ≤ 7 - front.length) hrest.closed
  have zeros : 8 - front.length - back.length = n := by omega
  have short : front.length ≠ 8 := by omega
  have address := ip.ofGroups?_groups
  rw [hgroups] at address
  simp [readIpv6, head, short, readChar, tail, zeros, address]

/-- An address of version 4 behind the prefix that marks it. -/
theorem readIpv6_mapped {ip : Ipv6} {v4 : Ipv4} (h : ip.mapped? = some v4) {rest : List Char}
    (hrest : AfterIpv6 rest) :
    readIpv6 ("::ffff:".toList ++ (v4.text.toList ++ rest)) = some (ip, rest) := by
  have groups : ip.groups = [0, 0, 0, 0, 0, 0xffff, v4.a.toNat * 256 + v4.b.toNat,
      v4.c.toNat * 256 + v4.d.toNat] := by
    unfold Ipv6.mapped? at h
    split at h
    · rename_i hmark
      have octets := ip.octets.take_append_drop 12
      rw [hmark] at octets
      unfold Ipv4.ofOctets? at h
      split at h
      · rename_i a b c d hlast
        cases h
        rw [hlast] at octets
        rw [Ipv6.groups, ← octets]
        rfl
      · cases h
    · cases h
  have v4Read : readIpv4 (v4.text.toList ++ rest) = some (v4, rest) :=
    readIpv4_text v4 fun c hc => decimal_of_hexadecimal (hrest.noGroup.digit c hc)
  have front : Nat.toDigits 16 0xffff = ['f', 'f', 'f', 'f'] := by decide
  have tail : readGroups 7 false (Nat.toDigits 16 0xffff ++ ':' :: (v4.text.toList ++ rest)) =
      ⟨[0xffff, v4.a.toNat * 256 + v4.b.toNat, v4.c.toNat * 256 + v4.d.toNat], true, rest⟩ := by
    rw [readGroups_group (by decide) (noGroup_colon _)]
    simp [readGroups, readChar, v4Read]
  rw [front] at tail
  have head : readGroups 8 false ("::ffff:".toList ++ (v4.text.toList ++ rest)) =
      ⟨[], false, "::ffff:".toList ++ (v4.text.toList ++ rest)⟩ :=
    readGroups_nothing (noGroup_colon _) 8
  have address := ip.ofGroups?_groups
  rw [groups] at address
  have spelled : "::ffff:".toList = [':', ':', 'f', 'f', 'f', 'f', ':'] := by decide
  rw [spelled] at head ⊢
  simp only [List.cons_append, List.nil_append] at head tail ⊢
  simp [readIpv6, head, readChar, tail, address]

theorem readIpv6_text (ip : Ipv6) {rest : List Char} (hrest : AfterIpv6 rest) :
    readIpv6 (ip.text.toList ++ rest) = some (ip, rest) := by
  unfold Ipv6.text
  split
  · rename_i v4 hmapped
    rw [String.toList_append, List.append_assoc]
    exact readIpv6_mapped hmapped hrest
  · simp only
    split
    · rename_i hlong
      have split := readIpv6_compressed (Ipv6.zeroRun_split ip.groups) (by omega) hrest
      rw [String.toList_append, String.toList_append]
      simpa using split
    · exact readIpv6_groups ip hrest

/-! ### Socket addresses -/

theorem readPort_text (port : UInt16) :
    readPort (':' :: Nat.toDigits 10 port.toNat) = some (port, []) := by
  have number := readNumber_toDigits port.toNat_lt (noDigit_nil 10)
  rw [List.append_nil] at number
  simp [readPort, readChar, UInt16.size, number]

theorem readSocketV4_text (ip : Ipv4) (port : UInt16) :
    readSocketV4 (SocketAddress.v4 ip port).text.toList = some (.v4 ip port, []) := by
  have spelled : (SocketAddress.v4 ip port).text.toList =
      ip.text.toList ++ ':' :: Nat.toDigits 10 port.toNat := by
    simp [SocketAddress.text, toString, Nat.toList_repr]
  have colon : ∀ cs, NoDigit 10 (':' :: cs) := noDigit_cons (by decide)
  rw [spelled]
  simp [readSocketV4, readIpv4_text ip (colon _), readPort_text]

theorem readSocketV6_text (ip : Ipv6) (port : UInt16) (flow scope : UInt32) :
    readSocketV6 (SocketAddress.v6 ip port flow scope).text.toList =
      some (.v6 ip port 0 scope, []) := by
  have bracket : ∀ cs, AfterIpv6 (']' :: cs) :=
    fun cs => ⟨⟨noDigit_cons (by decide) cs, by simp⟩, rfl⟩
  have percent : ∀ cs, AfterIpv6 ('%' :: cs) :=
    fun cs => ⟨⟨noDigit_cons (by decide) cs, by simp⟩, rfl⟩
  by_cases hscope : scope = 0
  · have spelled : (SocketAddress.v6 ip port flow scope).text.toList =
        '[' :: (ip.text.toList ++ ']' :: ':' :: Nat.toDigits 10 port.toNat) := by
      simp [SocketAddress.text, hscope, toString, Nat.toList_repr]
    rw [spelled]
    simp [readSocketV6, readChar, readIpv6_text ip (bracket _), readScope, readPort_text, hscope]
  · have spelled : (SocketAddress.v6 ip port flow scope).text.toList =
        '[' :: (ip.text.toList ++ '%' :: (Nat.toDigits 10 scope.toNat ++
          ']' :: ':' :: Nat.toDigits 10 port.toNat)) := by
      simp [SocketAddress.text, hscope, toString, Nat.toList_repr]
    have number := readNumber_toDigits scope.toNat_lt
      (noDigit_cons (by decide) (':' :: Nat.toDigits 10 port.toNat) : NoDigit 10 (']' :: _))
    rw [spelled]
    simp [readSocketV6, readChar, readIpv6_text ip (percent _), readScope, UInt32.size, number,
      readPort_text]

end Net

namespace SocketAddress

/-- The address without its flow information, which its text does not carry. -/
def withoutFlow : SocketAddress → SocketAddress
  | .v4 ip port => .v4 ip port
  | .v6 ip port _ scope => .v6 ip port 0 scope

/-- **The text of a socket address is read as the address**, without the flow information. -/
theorem ofText?_text (address : SocketAddress) : ofText? address.text = some address.withoutFlow := by
  cases address with
  | v4 ip port => simp [ofText?, Net.readSocketV4_text, Net.whole, withoutFlow]
  | v6 ip port flow scope =>
    have notV4 : Net.readSocketV4 (SocketAddress.v6 ip port flow scope).text.toList = none := by
      have starts : ∃ cs, (SocketAddress.v6 ip port flow scope).text.toList = '[' :: cs := by
        by_cases hscope : scope = 0
        · exact ⟨_, by simp [text, hscope, toString, List.cons_append]; rfl⟩
        · exact ⟨_, by simp [text, hscope, toString, List.cons_append]; rfl⟩
      obtain ⟨cs, hcs⟩ := starts
      have bracket : Net.NoGroup ('[' :: cs) := ⟨Net.noDigit_cons (by decide) cs, by simp⟩
      simp [hcs, Net.readSocketV4, Net.readIpv4_noGroup bracket]
    simp [ofText?, notV4, Net.readSocketV6_text, Net.whole, withoutFlow]

end SocketAddress
end Parley

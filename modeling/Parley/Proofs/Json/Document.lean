import Parley.Json.Raw
import Parley.Json.Value
import Parley.Proofs.Json.Literal
import Parley.Proofs.Text.Digits
/-!
Reading back a document that was written.

`Json.raw` is the form in which a document is read, and `Raw.ofBytes?_text` says that its text is
read so. A number ends where something else begins, so what follows a value must not go on with it
(`Stops`); within a document that is a comma or a bracket.
-/
namespace Parley
namespace Json

mutual

/-- A document as it is read, with its literals and numbers as they stand. -/
def raw : Json → Raw
  | .null => .null
  | .number n => .number (Text.octets (toString n))
  | .string s => .string (Text.octets (escape s))
  | .array items => .array (rawItems items)
  | .object members => .object (rawMembers members)

/-- The items of an array as they are read. -/
def rawItems : List Json → List Raw
  | [] => []
  | item :: items => item.raw :: rawItems items

/-- The members of an object as they are read. -/
def rawMembers : List (String × Json) → List (Bytes × Raw)
  | [] => []
  | (key, value) :: members => (Text.octets (escape key), value.raw) :: rawMembers members

end

theorem rawItems_eq (items : List Json) : rawItems items = items.map raw := by
  induction items with
  | nil => rfl
  | cons item items ih => rw [rawItems, ih, List.map_cons]

/-- What may follow a number. -/
def Stops (rest : Bytes) : Prop :=
  ∀ b, rest.head? = some b → isDigit b = false ∧ b ≠ 0x2e ∧ b ≠ 0x65 ∧ b ≠ 0x45

theorem stops_nil : Stops [] := nofun

theorem stops_comma (rest : Bytes) : Stops (0x2c :: rest) := by
  rintro b ⟨⟩
  decide

theorem stops_bracket (rest : Bytes) : Stops (0x5d :: rest) := by
  rintro b ⟨⟩
  decide

theorem stops_brace (rest : Bytes) : Stops (0x7d :: rest) := by
  rintro b ⟨⟩
  decide

/-! ### Numbers -/

/-- The octet of a decimal digit. -/
def digitOctet (d : Nat) : UInt8 := UInt8.ofNat (0x30 + d)

theorem toNat_digitOctet {d : Nat} (h : d < 10) : (digitOctet d).toNat = 0x30 + d := by
  rw [digitOctet, UInt8.toNat_ofNat']
  omega

theorem isDigit_digitOctet {d : Nat} (h : d < 10) : isDigit (digitOctet d) = true := by
  simp only [isDigit, Bool.and_eq_true, decide_eq_true_eq, UInt8.le_iff_toNat_le,
    toNat_digitOctet h]
  exact ⟨by simp, by simp; omega⟩

theorem octets_toString {n : Nat} {ds : List Nat} (h : Text.Written 10 n ds) :
    Text.octets (toString n) = ds.map digitOctet := by
  have each : ∀ d : Fin 10, String.utf8EncodeChar (Nat.digitChar d) = [digitOctet d] := by decide
  have lt := h.lt
  rw [Nat.toString_eq_ofList_toDigits, Text.octets_ofList, h.toDigits]
  clear h
  induction ds with
  | nil => rfl
  | cons d ds ih =>
    have first := each ⟨d, lt d (List.mem_cons_self ..)⟩
    simp only at first
    rw [List.map_cons, List.map_cons, List.flatMap_cons, first,
      ih fun d hd => lt d (List.mem_cons_of_mem _ hd)]
    rfl

theorem span_digits {ds : List Nat} (h : ∀ d ∈ ds, d < 10) {rest : Bytes} (hrest : Stops rest) :
    (ds.map digitOctet ++ rest).span isDigit = (ds.map digitOctet, rest) := by
  refine Text.span_append (fun b hb => ?_) fun b hb => (hrest b hb).1
  obtain ⟨d, hd, rfl⟩ := List.mem_map.1 hb
  exact isDigit_digitOctet (h d hd)

theorem readMinus_digit {d : Nat} (h : d < 10) (rest : Bytes) :
    readMinus (digitOctet d :: rest) = ([], digitOctet d :: rest) := by
  unfold readMinus
  split
  · rename_i heq
    have value := toNat_digitOctet h
    rw [(List.cons.inj heq).1] at value
    have : (45 : UInt8).toNat = 45 := rfl
    omega
  · rfl

theorem readFraction_stops {rest : Bytes} (h : Stops rest) : readFraction rest = some ([], rest) := by
  unfold readFraction
  split
  · exact absurd rfl (h _ rfl).2.1
  · rfl

theorem readExponent_stops {rest : Bytes} (h : Stops rest) : readExponent rest = some ([], rest) := by
  unfold readExponent
  split
  · rfl
  · rename_i b bs
    obtain ⟨-, -, hlower, hupper⟩ := h b rfl
    rw [if_neg (by simp [hlower, hupper])]

theorem readWhole_written {n : Nat} {ds : List Nat} (h : Text.Written 10 n ds) {rest : Bytes}
    (hrest : Stops rest) :
    readWhole (ds.map digitOctet ++ rest) = some (ds.map digitOctet, rest) := by
  have digits : readDigits (ds.map digitOctet ++ rest) = some (ds.map digitOctet, rest) := by
    rw [readDigits, span_digits h.lt hrest]
    cases ds with
    | nil => exact absurd rfl h.ne_nil
    | cons d ds => rfl
  unfold readWhole
  rw [digits]
  split
  · -- A zero in front of another digit is not how a number is written.
    rename_i b more after heq
    have heq := (Prod.mk.inj (Option.some.inj heq)).1
    cases ds with
    | nil => cases heq
    | cons d ds =>
      obtain ⟨hd, hds⟩ := List.cons.inj heq
      have value := toNat_digitOctet (h.lt d (List.mem_cons_self ..))
      rw [hd] at value
      have zero : d = 0 := by
        have : (48 : UInt8).toNat = 48 := rfl
        omega
      subst zero
      rw [h.head ds rfl] at hds
      cases hds
  · rfl

/-- A number is read up to where it stops. -/
theorem readNumber_toString (n : Nat) {rest : Bytes} (hrest : Stops rest) :
    readNumber (Text.octets (toString n) ++ rest) = some (Text.octets (toString n), rest) := by
  obtain ⟨ds, hds⟩ := Text.exists_written (by decide : 1 < 10) n
  rw [octets_toString hds]
  have minus : readMinus (ds.map digitOctet ++ rest) = ([], ds.map digitOctet ++ rest) := by
    cases ds with
    | nil => exact absurd rfl hds.ne_nil
    | cons d ds => exact readMinus_digit (hds.lt d (List.mem_cons_self ..)) _
  simp [readNumber, minus, readWhole_written hds hrest, readFraction_stops hrest,
    readExponent_stops hrest]

/-- A number below the limit is taken for what it is. -/
theorem nat?_toString {limit n : Nat} (h : n < limit) :
    Raw.nat? limit (.number (Text.octets (toString n))) = some n := by
  obtain ⟨ds, hds⟩ := Text.exists_written (by decide : 1 < 10) n
  have digits : (ds.map digitOctet).all isDigit = true := by
    rw [List.all_map, List.all_eq_true]
    exact fun d hd => isDigit_digitOctet (hds.lt d hd)
  have values : (ds.map digitOctet).map (fun b => b.toNat - 0x30) = ds := by
    rw [List.map_map]
    conv_rhs => rw [← List.map_id ds]
    refine List.map_congr_left fun d hd => ?_
    simp [toNat_digitOctet (hds.lt d hd)]
  rw [octets_toString hds]
  simp [Raw.nat?, digits, values, hds.numberUpTo (by decide) h, h]

/-! ### Documents -/

/-- The octet with which a document starts is none that is skipped or that ends an array. -/
theorem text_starts (j : Json) : ∃ b bs, Text.octets j.text = b :: bs ∧ isSpace b = false ∧
    b ≠ 0x5d := by
  cases j with
  | null => exact ⟨0x6e, _, rfl, rfl, by decide⟩
  | number n =>
    obtain ⟨ds, hds⟩ := Text.exists_written (by decide : 1 < 10) n
    rw [text, octets_toString hds]
    cases ds with
    | nil => exact absurd rfl hds.ne_nil
    | cons d ds =>
      have all : ∀ d : Fin 10, isSpace (digitOctet d) = false ∧ digitOctet d ≠ 0x5d := by decide
      have first := all ⟨d, hds.lt d (List.mem_cons_self ..)⟩
      exact ⟨_, _, List.map_cons, first⟩
  | string s =>
    rw [text, literal, Text.octets_append, Text.octets_append]
    exact ⟨0x22, _, rfl, rfl, by decide⟩
  | array items =>
    rw [text, Text.octets_append, Text.octets_append]
    exact ⟨0x5b, _, rfl, rfl, by decide⟩
  | object members =>
    rw [text, Text.octets_append, Text.octets_append]
    exact ⟨0x7b, _, rfl, rfl, by decide⟩

theorem octets_literal (s : String) :
    Text.octets (literal s) = quote :: (Text.octets (escape s) ++ [quote]) := by
  rw [literal, Text.octets_append, Text.octets_append]
  rfl

theorem skipSpace_of_not {b : UInt8} (h : isSpace b = false) (bs : Bytes) :
    skipSpace (b :: bs) = b :: bs := by
  simp [skipSpace, h]

/-- The comma before the next item. -/
theorem itemsText_cons (item : Json) (items : List Json) :
    Text.octets (itemsText (item :: items)) = Text.octets item.text ++
      if items = [] then [] else 0x2c :: Text.octets (itemsText items) := by
  cases items with
  | nil => simp [itemsText]
  | cons next items =>
    rw [itemsText, Text.octets_append, Text.octets_append]
    simp
    rfl

theorem membersText_cons (key : String) (value : Json) (members : List (String × Json)) :
    Text.octets (membersText ((key, value) :: members)) =
      quote :: (Text.octets (escape key) ++ quote :: 0x3a :: (Text.octets value.text ++
        if members = [] then [] else 0x2c :: Text.octets (membersText members))) := by
  have colon : Text.octets ":" = [0x3a] := rfl
  have comma : Text.octets "," = [0x2c] := rfl
  cases members with
  | nil => simp [membersText, Text.octets_append, octets_literal, colon]
  | cons next members =>
    obtain ⟨key', value'⟩ := next
    simp [membersText, Text.octets_append, octets_literal, colon, comma]

@[simp] theorem skipSpace_comma (bs : Bytes) : skipSpace (0x2c :: bs) = 0x2c :: bs := rfl

@[simp] theorem skipSpace_quote (bs : Bytes) : skipSpace (quote :: bs) = quote :: bs := rfl

theorem itemsText_starts (item : Json) (items : List Json) : ∃ b bs,
    Text.octets (itemsText (item :: items)) = b :: bs ∧ isSpace b = false ∧ b ≠ 0x5d := by
  obtain ⟨b, bs, hstart, hspace, hend⟩ := text_starts item
  exact ⟨b, _, by rw [itemsText_cons, hstart, List.cons_append], hspace, hend⟩

theorem readValue_number (n fuel : Nat) {rest : Bytes} (hrest : Stops rest) :
    readValue (fuel + 1) (Text.octets (toString n) ++ rest) =
      some (.number (Text.octets (toString n)), rest) := by
  have number := readNumber_toString n hrest
  obtain ⟨ds, hds⟩ := Text.exists_written (by decide : 1 < 10) n
  rw [octets_toString hds] at number ⊢
  cases ds with
  | nil => exact absurd rfl hds.ne_nil
  | cons d ds =>
    have all : ∀ d : Fin 10, isSpace (digitOctet d) = false ∧ digitOctet d ≠ quote ∧
        digitOctet d ≠ 0x5b ∧ digitOctet d ≠ 0x7b ∧ digitOctet d ≠ 0x6e ∧ digitOctet d ≠ 0x74 ∧
        digitOctet d ≠ 0x66 := by decide
    obtain ⟨hspace, hquote, hbracket, hbrace, hn, ht, hf⟩ :=
      all ⟨d, hds.lt d (List.mem_cons_self ..)⟩
    rw [List.map_cons, List.cons_append] at number ⊢
    rw [readValue, skipSpace_of_not hspace]
    simp only [if_neg hquote, if_neg hbracket, if_neg hbrace, if_neg hn, if_neg ht, if_neg hf,
      number]
    rfl

theorem readValue_literal (s : String) (fuel : Nat) (rest : Bytes) :
    readValue (fuel + 1) (Text.octets (literal s) ++ rest) =
      some (.string (Text.octets (escape s)), rest) := by
  rw [octets_literal, List.cons_append, List.append_assoc, readValue]
  simp [(spells_escape s).scan]

theorem readValue_array (fuel : Nat) {b : UInt8} {bs : Bytes} (hspace : isSpace b = false)
    (hend : b ≠ 0x5d) : readValue (fuel + 1) (0x5b :: b :: bs) =
      (readItems fuel (b :: bs)).map fun (items, rest) => (.array items, rest) := by
  rw [readValue, skipSpace_of_not (by decide : isSpace 0x5b = false)]
  simp only [skipSpace_of_not hspace, quote]
  rw [if_neg (by decide), if_pos trivial]
  split
  · rename_i heq
    exact absurd (List.cons.inj heq).1 hend
  · rfl

theorem readValue_object (fuel : Nat) (bs : Bytes) : readValue (fuel + 1) (0x7b :: quote :: bs) =
    (readMembers fuel (quote :: bs)).map fun (members, rest) => (.object members, rest) := by
  rw [readValue, skipSpace_of_not (by decide : isSpace 0x7b = false)]
  simp only [skipSpace_quote]
  rfl

/-- The name of a member and the colon behind it. -/
theorem readMembers_key (fuel : Nat) (key : String) (bs : Bytes) :
    readMembers (fuel + 1) (quote :: (Text.octets (escape key) ++ quote :: 0x3a :: bs)) =
      match readValue fuel bs with
      | none => none
      | some (value, bs) =>
        match skipSpace bs with
        | 0x2c :: bs => (readMembers fuel bs).map fun (members, rest) =>
          ((Text.octets (escape key), value) :: members, rest)
        | 0x7d :: rest => some ([(Text.octets (escape key), value)], rest)
        | _ => none := by
  rw [readMembers, skipSpace_quote]
  simp only [quote]
  rw [show (0x22 : UInt8) = quote from rfl, (spells_escape key).scan]
  rfl

/-- A document in front is read, and so are items and members up to where they end, when `fuel` is
enough for twice the octets. -/
structure Reads (fuel : Nat) : Prop where
  value : ∀ j rest, 2 * (Text.octets (text j)).length ≤ fuel → Stops rest →
    readValue fuel (Text.octets j.text ++ rest) = some (j.raw, rest)
  items : ∀ item items rest, 2 * (Text.octets (itemsText (item :: items))).length < fuel →
    readItems fuel (Text.octets (itemsText (item :: items)) ++ 0x5d :: rest) =
      some (rawItems (item :: items), rest)
  members : ∀ key value members rest,
    2 * (Text.octets (membersText ((key, value) :: members))).length < fuel →
    readMembers fuel (Text.octets (membersText ((key, value) :: members)) ++ 0x7d :: rest) =
      some (rawMembers ((key, value) :: members), rest)

theorem reads_zero : Reads 0 := by
  refine ⟨fun j rest hfuel => ?_, nofun, nofun⟩
  obtain ⟨b, bs, hstart, -⟩ := text_starts j
  rw [hstart, List.length_cons] at hfuel
  omega

theorem Reads.array {fuel : Nat} (h : Reads fuel) (item : Json) (items : List Json) (rest : Bytes)
    (hfuel : 2 * (Text.octets (Json.array (item :: items)).text).length ≤ fuel + 1) :
    readValue (fuel + 1) (Text.octets (Json.array (item :: items)).text ++ rest) =
      some ((Json.array (item :: items)).raw, rest) := by
  have bracketed : Text.octets (Json.array (item :: items)).text =
      0x5b :: (Text.octets (itemsText (item :: items)) ++ [0x5d]) := by
    rw [text, Text.octets_append, Text.octets_append]
    rfl
  rw [bracketed, List.length_cons, List.length_append] at hfuel
  have inside := h.items item items rest (by omega)
  obtain ⟨b, bs, hstart, hspace, hend⟩ := itemsText_starts item items
  rw [bracketed, List.cons_append, List.append_assoc]
  rw [hstart] at inside ⊢
  rw [List.cons_append, readValue_array fuel hspace hend]
  exact congrArg _ inside

theorem Reads.object {fuel : Nat} (h : Reads fuel) (key : String) (value : Json)
    (members : List (String × Json)) (rest : Bytes)
    (hfuel : 2 * (Text.octets (Json.object ((key, value) :: members)).text).length ≤ fuel + 1) :
    readValue (fuel + 1) (Text.octets (Json.object ((key, value) :: members)).text ++ rest) =
      some ((Json.object ((key, value) :: members)).raw, rest) := by
  have braced : Text.octets (Json.object ((key, value) :: members)).text =
      0x7b :: (Text.octets (membersText ((key, value) :: members)) ++ [0x7d]) := by
    rw [text, Text.octets_append, Text.octets_append]
    rfl
  rw [braced, List.length_cons, List.length_append] at hfuel
  have inside := h.members key value members rest (by omega)
  rw [braced, List.cons_append, List.append_assoc]
  rw [membersText_cons, List.cons_append] at inside ⊢
  rw [List.cons_append, readValue_object]
  exact congrArg _ inside

theorem Reads.items_succ {fuel : Nat} (h : Reads fuel) (item : Json) (items : List Json)
    (rest : Bytes) (hfuel : 2 * (Text.octets (itemsText (item :: items))).length < fuel + 1) :
    readItems (fuel + 1) (Text.octets (itemsText (item :: items)) ++ 0x5d :: rest) =
      some (rawItems (item :: items), rest) := by
  rw [itemsText_cons] at hfuel ⊢
  rw [List.length_append] at hfuel
  rw [readItems, List.append_assoc]
  cases items with
  | nil =>
    rw [if_pos rfl, List.nil_append, h.value item _ (by omega) (stops_bracket rest)]
    rfl
  | cons next items =>
    rw [if_neg (by simp), List.length_cons] at hfuel
    rw [if_neg (by simp), List.cons_append, h.value item _ (by omega) (stops_comma _)]
    simp [h.items next items rest (by omega), rawItems]

theorem Reads.members_succ {fuel : Nat} (h : Reads fuel) (key : String) (value : Json)
    (members : List (String × Json)) (rest : Bytes)
    (hfuel : 2 * (Text.octets (membersText ((key, value) :: members))).length < fuel + 1) :
    readMembers (fuel + 1) (Text.octets (membersText ((key, value) :: members)) ++ 0x7d :: rest) =
      some (rawMembers ((key, value) :: members), rest) := by
  rw [membersText_cons] at hfuel ⊢
  simp only [List.length_cons, List.length_append] at hfuel
  simp only [List.cons_append, List.append_assoc]
  rw [readMembers_key]
  cases members with
  | nil =>
    rw [if_pos rfl, List.nil_append, h.value value _ (by omega) (stops_brace rest)]
    rfl
  | cons next members =>
    obtain ⟨key', value'⟩ := next
    rw [if_neg (by simp), List.length_cons] at hfuel
    rw [if_neg (by simp), List.cons_append, h.value value _ (by omega) (stops_comma _)]
    simp [h.members key' value' members rest (by omega), rawMembers]

theorem reads (fuel : Nat) : Reads fuel := by
  induction fuel with
  | zero => exact reads_zero
  | succ fuel ih =>
    refine ⟨fun j rest hfuel hrest => ?_, ih.items_succ, ih.members_succ⟩
    match j with
    | .null => rfl
    | .number n => exact readValue_number n fuel hrest
    | .string s => exact readValue_literal s fuel rest
    | .array [] | .object [] => rfl
    | .array (item :: items) => exact ih.array item items rest hfuel
    | .object ((key, value) :: members) => exact ih.object key value members rest hfuel

/-- **The text of a document is read as the document**, whatever is in it. -/
theorem ofBytes?_text (j : Json) : Raw.ofBytes? (Text.octets j.text) = some j.raw := by
  have whole := (reads (2 * (Text.octets j.text).length + 2)).value j [] (by omega) stops_nil
  rw [List.append_nil] at whole
  rw [Raw.ofBytes?, whole]
  rfl

theorem text?_string (s : String) : (Json.string s).raw.text? = some s := unescape?_escape s

theorem nat?_number {limit n : Nat} (h : n < limit) : (Json.number n).raw.nat? limit = some n :=
  nat?_toString h

end Json
end Parley

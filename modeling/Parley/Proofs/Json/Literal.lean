import Parley.Json.Literal
import Parley.Proofs.Text.Utf8
import Mathlib.Data.Fintype.Basic
import Mathlib.Tactic.FinCases
/-!
Reading back the literal of a text.

`Spells` says which octets inside of a literal stand for which octets of a text, and it is all that
the two readers look at: `scan` passes over what spells something, and `unescape?` gives what it
spells. The literal of a text spells the text.
-/
namespace Parley.Json

/-- An octet that stands for itself inside of a literal. -/
def Plain (b : UInt8) : Prop := b ≠ quote ∧ b ≠ backslash ∧ ¬b < 0x20

/-- The octets `body` inside of a literal stand for the octets `text`. -/
inductive Spells : (body text : Bytes) → Prop
  | nil : Spells [] []
  | plain {b body text} : Plain b → Spells body text → Spells (b :: body) (b :: text)
  | short {e c body text} : e ≠ letterU → shortEscape? e = some c → Spells body text →
      Spells (backslash :: e :: body) (c :: text)
  /-- Characters beyond the surrogates are never written by number. -/
  | unit {h i j k n body text} : unit? h i j k = some n → n < 0xd800 → Spells body text →
      Spells (backslash :: letterU :: h :: i :: j :: k :: body)
        (String.utf8EncodeChar (Char.ofNat n) ++ text)

theorem Spells.append {body text body' text' : Bytes} (h : Spells body text)
    (h' : Spells body' text') : Spells (body ++ body') (text ++ text') := by
  induction h with
  | nil => exact h'
  | plain hb _ ih => exact .plain hb ih
  | short he hc _ ih => exact .short he hc ih
  | unit hn hlt _ ih =>
    rw [List.append_assoc]
    exact .unit hn hlt ih

theorem spells_plain {bs : Bytes} (h : ∀ b ∈ bs, Plain b) : Spells bs bs := by
  induction bs with
  | nil => exact .nil
  | cons b bs ih =>
    exact .plain (h b (List.mem_cons_self ..)) (ih fun c hc => h c (List.mem_cons_of_mem _ hc))

/-! ### Reading -/

theorem Spells.scanFrom {body text : Bytes} (h : Spells body text) (sofar rest : Bytes) :
    scanFrom sofar (body ++ quote :: rest) = some (sofar.reverse ++ body, rest) := by
  have escape : backslash ≠ quote := by decide
  induction h generalizing sofar with
  | nil =>
    rw [List.nil_append, Json.scanFrom.eq_def]
    simp
  | plain hb _ ih =>
    obtain ⟨hquote, hbackslash, hcontrol⟩ := hb
    rw [List.cons_append, Json.scanFrom.eq_def]
    simp only [if_neg hquote, if_neg hbackslash, if_neg hcontrol, ih]
    simp
  | short he hc _ ih =>
    rw [List.cons_append, List.cons_append, Json.scanFrom.eq_def]
    simp only [if_neg escape, if_true, if_neg he, hc, Option.isSome_some, ih]
    simp
  | unit hn _ _ ih =>
    simp only [List.cons_append]
    rw [Json.scanFrom.eq_def]
    simp only [if_neg escape, if_true, hn, Option.isSome_some, ih]
    simp

/-- What spells a text is found as the inside of a literal. -/
theorem Spells.scan {body text : Bytes} (h : Spells body text) (rest : Bytes) :
    scan (body ++ quote :: rest) = some (body, rest) := h.scanFrom [] rest

theorem Spells.unescapeFrom {body text : Bytes} (h : Spells body text) (sofar : Bytes) :
    unescapeFrom sofar body = some (sofar.reverse ++ text) := by
  induction h generalizing sofar with
  | nil => simp [Json.unescapeFrom]
  | plain hb _ ih =>
    rw [Json.unescapeFrom.eq_def]
    simp only [if_neg hb.2.1, ih]
    simp
  | short he hc _ ih =>
    rw [Json.unescapeFrom.eq_def]
    simp only [if_true, if_neg he, hc, ih]
    simp
  | unit hn hlt _ ih =>
    rw [Json.unescapeFrom.eq_def]
    simp only [if_true, hn, Or.inl hlt, ih]
    simp

/-! ### Writing -/

theorem plain_of_char {c : Char} (hquote : c ≠ '"') (hbackslash : c ≠ '\\')
    (hcontrol : 0x20 ≤ c.toNat) : ∀ b ∈ String.utf8EncodeChar c, Plain b := by
  intro b hb
  by_cases h : c.toNat < 0x80
  · rw [Text.utf8EncodeChar_ascii h, List.mem_singleton] at hb
    have value : b.toNat = c.toNat := by
      rw [hb, UInt8.toNat_ofNat']
      omega
    refine ⟨?_, ?_, ?_⟩
    · rintro rfl
      exact hquote (Char.toNat_inj.1 value.symm)
    · rintro rfl
      exact hbackslash (Char.toNat_inj.1 value.symm)
    · rw [UInt8.lt_iff_toNat_lt, value]
      exact Nat.not_lt.2 hcontrol
  · have high := Text.utf8EncodeChar_high (Nat.not_lt.1 h) hb
    refine ⟨?_, ?_, ?_⟩
    · rintro rfl
      exact absurd high (by decide)
    · rintro rfl
      exact absurd high (by decide)
    · rw [UInt8.lt_iff_toNat_lt]
      exact Nat.not_lt.2 (Nat.le_trans (by decide) high)

/-- How a control character is written. -/
theorem spells_control (n : Fin 32) :
    Spells ((escapeChar (Char.ofNat n)).flatMap String.utf8EncodeChar)
      (String.utf8EncodeChar (Char.ofNat n)) := by
  have byLetter : ∀ e c, e ≠ letterU → shortEscape? e = some c →
      (escapeChar (Char.ofNat n)).flatMap String.utf8EncodeChar = [backslash, e] →
      String.utf8EncodeChar (Char.ofNat n) = [c] →
      Spells ((escapeChar (Char.ofNat n)).flatMap String.utf8EncodeChar)
        (String.utf8EncodeChar (Char.ofNat n)) := by
    intro e c he hc heq heq'
    rw [heq, heq']
    exact .short he hc .nil
  have byNumber : ∀ h i j k, unit? h i j k = some n.val →
      (escapeChar (Char.ofNat n)).flatMap String.utf8EncodeChar =
        [backslash, letterU, h, i, j, k] →
      Spells ((escapeChar (Char.ofNat n)).flatMap String.utf8EncodeChar)
        (String.utf8EncodeChar (Char.ofNat n)) := by
    intro h i j k hunit heq
    have spells := Spells.unit hunit (by omega) .nil
    rwa [List.append_nil, ← heq] at spells
  fin_cases n
  all_goals first
    | refine byLetter _ _ ?_ ?_ rfl rfl <;> decide
    | exact byNumber _ _ _ _ (by decide) rfl

theorem spells_escapeChar (c : Char) :
    Spells ((escapeChar c).flatMap String.utf8EncodeChar) (String.utf8EncodeChar c) := by
  by_cases hcontrol : c.toNat < 0x20
  · have control := spells_control ⟨c.toNat, hcontrol⟩
    rwa [Char.ofNat_toNat] at control
  · by_cases hquote : c = '"'
    · subst hquote
      exact .short (by decide) (by decide) .nil
    · by_cases hbackslash : c = '\\'
      · subst hbackslash
        exact .short (by decide) (by decide) .nil
      · have self : escapeChar c = [c] := by
          rw [escapeChar, if_neg hquote, if_neg hbackslash, if_pos (Nat.not_lt.1 hcontrol)]
        rw [self, List.flatMap_singleton]
        exact spells_plain (plain_of_char hquote hbackslash (Nat.not_lt.1 hcontrol))

theorem spells_escape (s : String) : Spells (Text.octets (escape s)) (Text.octets s) := by
  rw [escape, Text.octets_ofList, Text.octets_eq]
  induction s.toList with
  | nil => exact .nil
  | cons c cs ih =>
    simp only [List.flatMap_cons, List.flatMap_append]
    exact (spells_escapeChar c).append ih

/-- **The literal of a text stands for the text.** -/
theorem unescape?_escape (s : String) : unescape? (Text.octets (escape s)) = some s := by
  rw [unescape?, (spells_escape s).unescapeFrom []]
  exact Text.ofOctets?_octets s

end Parley.Json

import Parley.Base64
import Parley.Proofs.Text.Utf8
import Mathlib.Data.Fintype.Basic
import Mathlib.Tactic.Common
/-!
Reading back base64, and the characters that it is made of.

What was written is read as the same octets (`ofText?_text`), and nothing else is read as them
(`ofText?_eq_some_iff`): the alphabet has one symbol for a value, the padding has to be there, and
the bits that it cuts off have to be zero.
-/
namespace Parley.Base64

theorem symbol_ne_fill {v : Nat} (h : v < 64) : symbol v ≠ '=' := by
  have all : ∀ v : Fin 64, symbol v ≠ '=' := by decide
  exact all ⟨v, h⟩

/-! ### Reading -/

/-- Four symbols are a group of three octets, wherever they stand. -/
theorem decodeFrom?_group {w x y z : Nat} (hw : w < 64) (hx : x < 64) (hy : y < 64) (hz : z < 64)
    (sofar : Bytes) (rest : List Char) :
    decodeFrom? sofar (symbol w :: symbol x :: symbol y :: symbol z :: rest) =
      decodeFrom? (UInt8.ofNat (y % 4 * 64 + z) :: UInt8.ofNat (x % 16 * 16 + y / 4) ::
        UInt8.ofNat (w * 4 + x / 16) :: sofar) rest := by
  rw [decodeFrom?.eq_def]
  split
  · rename_i heq
    cases heq
  · rename_i heq
    simp only [List.cons.injEq] at heq
    exact absurd heq.2.2.1 (symbol_ne_fill hy)
  · rename_i heq
    simp only [List.cons.injEq] at heq
    exact absurd heq.2.2.2.1 (symbol_ne_fill hz)
  · rename_i heq
    simp only [List.cons.injEq] at heq
    obtain ⟨rfl, rfl, rfl, rfl, rfl⟩ := heq
    simp [value?_symbol hw, value?_symbol hx, value?_symbol hy, value?_symbol hz]
  · rename_i hother
    exact absurd rfl (hother _ _ _ _ _)

theorem ofNat_of_toNat {n : Nat} {b : UInt8} (h : n = b.toNat) : UInt8.ofNat n = b := by
  rw [h, UInt8.ofNat_toNat]

theorem first_octet (a : UInt8) {r : Nat} (hr : r < 16) :
    UInt8.ofNat (a.toNat / 4 * 4 + (a.toNat % 4 * 16 + r) / 16) = a :=
  ofNat_of_toNat (by omega)

theorem second_octet (n : Nat) (b : UInt8) {r : Nat} (hr : r < 4) :
    UInt8.ofNat ((n * 16 + b.toNat / 16) % 16 * 16 + (b.toNat % 16 * 4 + r) / 4) = b := by
  have hb := b.toNat_lt
  exact ofNat_of_toNat (by omega)

theorem decodeFrom?_encode (sofar bs : Bytes) :
    decodeFrom? sofar (encode bs) = some (sofar.reverse ++ bs) := by
  induction bs using encode.induct generalizing sofar with
  | case1 a b c rest ih =>
    have ha := a.toNat_lt
    have hb := b.toNat_lt
    have hc := c.toNat_lt
    have third : UInt8.ofNat ((b.toNat % 16 * 4 + c.toNat / 64) % 4 * 64 + c.toNat % 64) = c :=
      ofNat_of_toNat (by omega)
    rw [encode, decodeFrom?_group (by omega) (by omega) (by omega) (by omega),
      first_octet a (by omega), second_octet _ b (by omega), third, ih]
    simp
  | case2 a b =>
    have ha := a.toNat_lt
    have hb := b.toNat_lt
    have second : UInt8.ofNat ((a.toNat % 4 * 16 + b.toNat / 16) % 16 * 16 +
        b.toNat % 16 * 4 / 4) = b := second_octet _ b (r := 0) (by omega)
    have cut : b.toNat % 16 * 4 % 4 = 0 := by omega
    rw [encode, decodeFrom?]
    · simp only [value?_symbol (v := a.toNat / 4) (by omega),
        value?_symbol (v := a.toNat % 4 * 16 + b.toNat / 16) (by omega),
        value?_symbol (v := b.toNat % 16 * 4) (by omega), Option.bind_eq_bind, Option.bind_some,
        cut, first_octet a (r := b.toNat / 16) (by omega), second]
      simp
    · exact symbol_ne_fill (by omega)
  | case3 a =>
    have ha := a.toNat_lt
    have first : UInt8.ofNat (a.toNat / 4 * 4 + a.toNat % 4 * 16 / 16) = a :=
      first_octet a (r := 0) (by omega)
    have cut : a.toNat % 4 * 16 % 16 = 0 := by omega
    rw [encode, decodeFrom?]
    simp only [value?_symbol (v := a.toNat / 4) (by omega),
      value?_symbol (v := a.toNat % 4 * 16) (by omega), Option.bind_eq_bind, Option.bind_some,
      cut, first]
    simp
  | case4 => simp [encode, decodeFrom?]

/-- **What was written in base64 is read as the same octets.** -/
theorem ofText?_text (bs : Bytes) : ofText? (text bs) = some bs := by
  rw [ofText?, text, String.toList_ofList, decode?, decodeFrom?_encode]
  rfl

/-! ### One text -/

/-- A character has a value only as the symbol of that value. -/
theorem eq_symbol_of_value? {c : Char} {v : Nat} (h : value? c = some v) :
    v < 64 ∧ c = symbol v := by
  have named : ∀ n : Nat, c.toNat = n → Char.ofNat n = c := fun n hn => hn ▸ Char.ofNat_toNat c
  unfold value? at h
  simp only at h
  unfold symbol
  split at h
  · cases h
    exact ⟨by omega, by rw [if_pos (by omega), named _ (by omega)]⟩
  · split at h
    · cases h
      exact ⟨by omega, by rw [if_neg (by omega), if_pos (by omega), named _ (by omega)]⟩
    · split at h
      · cases h
        refine ⟨by omega, ?_⟩
        rw [if_neg (by omega), if_neg (by omega), if_pos (by omega), named _ (by omega)]
      · split at h
        · rename_i plus
          cases h
          exact ⟨by omega, plus⟩
        · split at h
          · rename_i slash
            cases h
            exact ⟨by omega, slash⟩
          · cases h

section Groups
variable {w x y z : Nat} (hw : w < 64) (hx : x < 64)
include hw hx

/-- Four symbols are what is written for the three octets that they stand for. -/
theorem encode_group (hy : y < 64) (hz : z < 64) (rest : Bytes) :
    encode (UInt8.ofNat (w * 4 + x / 16) :: UInt8.ofNat (x % 16 * 16 + y / 4) ::
        UInt8.ofNat (y % 4 * 64 + z) :: rest) =
      symbol w :: symbol x :: symbol y :: symbol z :: encode rest := by
  have a : w * 4 + x / 16 < 256 := by omega
  have b : x % 16 * 16 + y / 4 < 256 := by omega
  have c : y % 4 * 64 + z < 256 := by omega
  have first : (w * 4 + x / 16) / 4 = w := by omega
  have second : (w * 4 + x / 16) % 4 * 16 + (x % 16 * 16 + y / 4) / 16 = x := by omega
  have third : (x % 16 * 16 + y / 4) % 16 * 4 + (y % 4 * 64 + z) / 64 = y := by omega
  have fourth : (y % 4 * 64 + z) % 64 = z := by omega
  rw [encode, UInt8.toNat_ofNat_of_lt' a, UInt8.toNat_ofNat_of_lt' b, UInt8.toNat_ofNat_of_lt' c,
    first, second, third, fourth]

/-- Three symbols and one fill character are written for two octets. -/
theorem encode_two (hy : y < 64) (cut : y % 4 = 0) :
    encode [UInt8.ofNat (w * 4 + x / 16), UInt8.ofNat (x % 16 * 16 + y / 4)] =
      [symbol w, symbol x, symbol y, '='] := by
  have a : w * 4 + x / 16 < 256 := by omega
  have b : x % 16 * 16 + y / 4 < 256 := by omega
  have first : (w * 4 + x / 16) / 4 = w := by omega
  have second : (w * 4 + x / 16) % 4 * 16 + (x % 16 * 16 + y / 4) / 16 = x := by omega
  have third : (x % 16 * 16 + y / 4) % 16 * 4 = y := by omega
  rw [encode, UInt8.toNat_ofNat_of_lt' a, UInt8.toNat_ofNat_of_lt' b, first, second, third]

/-- Two symbols and two fill characters are written for one octet. -/
theorem encode_one (cut : x % 16 = 0) :
    encode [UInt8.ofNat (w * 4 + x / 16)] = [symbol w, symbol x, '=', '='] := by
  have a : w * 4 + x / 16 < 256 := by omega
  have first : (w * 4 + x / 16) / 4 = w := by omega
  have second : (w * 4 + x / 16) % 4 * 16 = x := by omega
  rw [encode, UInt8.toNat_ofNat_of_lt' a, first, second]

end Groups

/-- What is read has been written: the octets behind those read so far are those whose symbols
remain. -/
theorem eq_encode_of_decodeFrom? {sofar : Bytes} {cs : List Char} {bs : Bytes}
    (h : decodeFrom? sofar cs = some bs) :
    ∃ back, bs = sofar.reverse ++ back ∧ cs = encode back := by
  fun_induction decodeFrom? sofar cs with
  | case1 sofar =>
    cases h
    exact ⟨[], (List.append_nil _).symm, rfl⟩
  | case2 sofar c d =>
    simp only [Option.bind_eq_bind, Option.bind_eq_some_iff, Option.guard_eq_some'] at h
    obtain ⟨w, hw, x, hx, -, cut, h⟩ := h
    cases h
    obtain ⟨w_lt, rfl⟩ := eq_symbol_of_value? hw
    obtain ⟨x_lt, rfl⟩ := eq_symbol_of_value? hx
    exact ⟨_, List.reverse_cons, (encode_one w_lt x_lt cut).symm⟩
  | case3 sofar c d e =>
    simp only [Option.bind_eq_bind, Option.bind_eq_some_iff, Option.guard_eq_some'] at h
    obtain ⟨w, hw, x, hx, y, hy, -, cut, h⟩ := h
    cases h
    obtain ⟨w_lt, rfl⟩ := eq_symbol_of_value? hw
    obtain ⟨x_lt, rfl⟩ := eq_symbol_of_value? hx
    obtain ⟨y_lt, rfl⟩ := eq_symbol_of_value? hy
    exact ⟨_, by simp, (encode_two w_lt x_lt y_lt cut).symm⟩
  | case4 sofar c d e f rest _ _ ih =>
    simp only [Option.bind_eq_bind, Option.bind_eq_some_iff] at h
    obtain ⟨w, hw, x, hx, y, hy, z, hz, h⟩ := h
    obtain ⟨back, rfl, rfl⟩ := ih w x y z h
    obtain ⟨w_lt, rfl⟩ := eq_symbol_of_value? hw
    obtain ⟨x_lt, rfl⟩ := eq_symbol_of_value? hx
    obtain ⟨y_lt, rfl⟩ := eq_symbol_of_value? hy
    obtain ⟨z_lt, rfl⟩ := eq_symbol_of_value? hz
    exact ⟨_, by simp, (encode_group w_lt x_lt y_lt z_lt back).symm⟩
  | case5 => cases h

/-- **A string of octets has one text.** -/
theorem ofText?_eq_some_iff {s : String} {bs : Bytes} : ofText? s = some bs ↔ s = text bs := by
  constructor
  · intro h
    obtain ⟨back, rfl, hs⟩ := eq_encode_of_decodeFrom? h
    rw [text, ← hs, String.ofList_toList]
  · rintro rfl
    exact ofText?_text bs

/-! ### Characters -/

/-- What holds of every symbol and of the fill character holds of all that is written. -/
theorem forall_mem_encode {P : Char → Prop} (symbols : ∀ v : Fin 64, P (symbol v)) (fill : P '=')
    (bs : Bytes) : ∀ c ∈ encode bs, P c := by
  have all : ∀ v < 64, P (symbol v) := fun v hv => symbols ⟨v, hv⟩
  induction bs using encode.induct with
  | case1 a b c rest ih =>
    have ha := a.toNat_lt
    have hb := b.toNat_lt
    have hc := c.toNat_lt
    simp only [encode, List.forall_mem_cons]
    exact ⟨all _ (by omega), all _ (by omega), all _ (by omega), all _ (by omega), ih⟩
  | case2 a b =>
    have ha := a.toNat_lt
    have hb := b.toNat_lt
    simp only [encode, List.forall_mem_cons]
    exact ⟨all _ (by omega), all _ (by omega), all _ (by omega), fill, nofun⟩
  | case3 a =>
    have ha := a.toNat_lt
    simp only [encode, List.forall_mem_cons]
    exact ⟨all _ (by omega), all _ (by omega), fill, fill, nofun⟩
  | case4 => nofun

theorem dash_text (bs : Bytes) : '-' ∉ (text bs).toList := by
  rw [text, String.toList_ofList]
  exact fun h => forall_mem_encode (P := (· ≠ '-')) (by decide) (by decide) bs _ h rfl

theorem length_encode (bs : Bytes) : (encode bs).length = (bs.length + 2) / 3 * 4 := by
  induction bs using encode.induct with
  | case1 a b c rest ih => simp only [encode, List.length_cons, ih]; omega
  | case2 | case3 | case4 => simp [encode]

/-- Every character is one octet, so that the octets of the text are its characters. -/
theorem utf8ByteSize_text (bs : Bytes) : (text bs).utf8ByteSize = (bs.length + 2) / 3 * 4 := by
  have ascii := forall_mem_encode (P := fun c => c.toNat < 0x80) (by decide) (by decide) bs
  rw [← Text.length_octets, text, Text.octets_ascii ascii, List.length_map, length_encode]

end Parley.Base64

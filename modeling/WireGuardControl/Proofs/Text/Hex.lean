import Mathlib.Tactic
import WireGuardControl.Key
import WireGuardControl.Proofs.Failing
import WireGuardControl.Proofs.Text.Decimal
import WireGuardControl.Proofs.Text.Utf8
/-!
Octets read back from their hexadecimal digits.

* `mem_encode`: the characters of written octets are hexadecimal digits, and so are those of
  written numbers (`mem_ofNat`).
* `decode_eq_ok_iff`: octets are read from the digits that have the values of theirs (`nibbles`).
* `decode_encode_eq_ok_iff`: octets are read from their written text and from those that differ from
  it in the case of letters, and from no others.
* `mem_digits_of_map_toLower`: a text that octets are read from consists of digits.
* `decode_encode`: written octets read back, and so do keys (`Key.ofHex_hexChars`).
-/

namespace WireGuardControl.Text

namespace Hex

/-! ### Digits -/

lemma toNat_digit_lt {d : ℕ} (h : d < 16) : (digit d).toNat < 0x80 := by
  interval_cases d <;> decide

/-- Digits are written in lower case. -/
lemma toLower_digit {d : ℕ} (h : d < 16) : (digit d).toLower = digit d := by
  interval_cases d <;> rfl

/-- Written octets consist of digits. -/
lemma mem_encode {b : Bytes} {c : Char} (h : c ∈ encode b) : ∃ d < 16, c = digit d := by
  obtain ⟨x, -, hc⟩ := List.mem_flatMap.mp h
  have hx := x.toNat_lt
  rw [ofByte, List.mem_cons, List.mem_singleton] at hc
  rcases hc with hc | hc
  · exact ⟨x.toNat / 16, by omega, hc⟩
  · exact ⟨x.toNat % 16, by omega, hc⟩

/-- A written number consists of digits in base sixteen as well. -/
lemma mem_ofNat {n : ℕ} {c : Char} (h : c ∈ Decimal.ofNat n) : ∃ d < 16, c = digit d := by
  obtain ⟨d, hd, rfl⟩ := Decimal.mem_ofNat h
  exact ⟨d, by omega, by rw [digit, if_pos hd]; rfl⟩

/-! ### The texts of some octets -/

/-- The values of the digits of some octets, two for each. -/
def nibbles (b : Bytes) : List ℕ := b.flatMap fun x => [x.toNat / 16, x.toNat % 16]

lemma nibbles_cons (x : UInt8) (b : Bytes) :
    nibbles (x :: b) = x.toNat / 16 :: x.toNat % 16 :: nibbles b := rfl

lemma encode_eq (b : Bytes) : encode b = (nibbles b).map digit := by
  rw [encode, nibbles, List.map_flatMap]
  rfl

lemma lt_of_mem_nibbles {b : Bytes} : ∀ d ∈ nibbles b, d < 16 := by
  induction b with
  | nil => simp [nibbles]
  | cons x b ih =>
      have hx := x.toNat_lt
      rw [nibbles_cons, List.forall_mem_cons, List.forall_mem_cons]
      exact ⟨by omega, by omega, ih⟩

lemma length_nibbles (b : Bytes) : (nibbles b).length = 2 * b.length := by
  induction b with
  | nil => rfl
  | cons x b ih =>
      simp only [nibbles_cons, List.length_cons, ih]
      omega

lemma value?_lt {c : UInt8} {d : ℕ} (h : value? c = some d) : d < 16 := by
  simp only [value?] at h
  split_ifs at h <;> obtain rfl := Option.some.inj h <;> omega

/-- Pairs of digits that are read have the values of the digits of the octets. -/
lemma map_value?_of_decodePairs {index : ℕ} {s b : Bytes} (heven : s.length % 2 = 0)
    (h : decodePairs index s = .ok b) : s.map value? = (nibbles b).map some := by
  fun_induction decodePairs index s generalizing b with
  | case1 | case2 => cases h
  | case3 _ high low rest v w hw hv ih =>
      obtain ⟨later, hlater, rfl⟩ := Except.map_eq_ok_iff.mp h
      have hrest : rest.length % 2 = 0 := by
        simp only [List.length_cons] at heven
        omega
      have hhigh := value?_lt hv
      have hlow := value?_lt hw
      have hx : (UInt8.ofNat (16 * v + w)).toNat = 16 * v + w := Utf8.toNat_ofNat_of_lt (by omega)
      have hdiv : (16 * v + w) / 16 = v := by omega
      have hmod : (16 * v + w) % 16 = w := by omega
      rw [nibbles_cons, hx, hdiv, hmod, List.map_cons, List.map_cons, hv, hw, ih hrest hlater]
      rfl
  | case4 s _ hshort =>
      rcases s with _ | ⟨a, _ | ⟨c, rest⟩⟩
      · obtain rfl := Except.ok.inj h
        rfl
      · simp at heven
      · exact (hshort a c rest rfl).elim

/-- Digits with the values of the digits of some octets are read as these. -/
lemma decodePairs_of_map_value? (index : ℕ) {s b : Bytes}
    (h : s.map value? = (nibbles b).map some) : decodePairs index s = .ok b := by
  induction b generalizing index s with
  | nil =>
      obtain rfl := List.map_eq_nil_iff.mp h
      rfl
  | cons x b ih =>
      have hx := x.toNat_lt
      have hsum : 16 * (x.toNat / 16) + x.toNat % 16 = x.toNat := by omega
      rw [nibbles_cons, List.map_cons, List.map_cons] at h
      obtain ⟨high, s, rfl, hhigh, h⟩ := List.map_eq_cons_iff.mp h
      obtain ⟨low, rest, rfl, hlow, hrest⟩ := List.map_eq_cons_iff.mp h
      rw [decodePairs, hhigh, hlow]
      simp only [ih _ hrest, hsum, UInt8.ofNat_toNat]
      rfl

/-- **Octets are read from the digits that have their values.** -/
lemma decode_eq_ok_iff {s b : Bytes} : decode s = .ok b ↔ s.map value? = (nibbles b).map some := by
  rw [decode]
  constructor
  · intro h
    split_ifs at h with hodd
    exact map_value?_of_decodePairs (by omega) h
  · intro h
    have hlength := congrArg List.length h
    rw [List.length_map, List.length_map, length_nibbles] at hlength
    rw [if_neg (by omega)]
    exact decodePairs_of_map_value? 0 h

/-- A character of seven bits is a digit in one of the two cases. -/
lemma value?_eq_some_iff {c : Char} (hc : c.toNat < 0x80) {d : ℕ} (hd : d < 16) :
    value? (UInt8.ofNat c.toNat) = some d ↔ c.toLower = digit d := by
  have hall : ∀ n < 0x80, ∀ d < 16,
      (value? (UInt8.ofNat n) = some d ↔ (Char.ofNat n).toLower = digit d) := by decide +kernel
  have h := hall c.toNat hc d hd
  rwa [Char.ofNat_toNat] at h

/-- Any other character is none, and the octets of one are none. -/
lemma not_digit {c : Char} (hc : 0x80 ≤ c.toNat) {d : ℕ} (hd : d < 16) :
    (∀ x ∈ Utf8.encodeChar c, value? x ≠ some d) ∧ c.toLower ≠ digit d := by
  constructor
  · intro x hx hvalue
    have hlarge : 0x80 ≤ x.toNat := by
      rcases Utf8.toNat_of_mem_encodeChar c x hx with h | h
      · omega
      · exact h
    have hnone : value? x = none := by
      simp only [value?]
      rw [if_neg (by omega), if_neg (by omega), if_neg (by omega)]
    rw [hnone] at hvalue
    cases hvalue
  · intro h
    have hlower : c.toLower = c := by
      refine dif_neg ?_
      rintro ⟨-, hZ⟩
      have hle : c.toNat ≤ 90 := hZ
      omega
    have hdigit := toNat_digit_lt hd
    rw [← h, hlower] at hdigit
    omega

/-- The digits in both cases. -/
def digits : List Char := "0123456789abcdefABCDEF".toList

/-- A character that is a digit in one of the two cases is one of them. -/
lemma mem_digits {c : Char} {d : ℕ} (hd : d < 16) (h : c.toLower = digit d) : c ∈ digits := by
  have hc : c.toNat < 0x80 := by
    by_contra hlarge
    exact (not_digit (not_lt.mp hlarge) hd).2 h
  have hall : ∀ n < 0x80, ∀ d < 16,
      (Char.ofNat n).toLower = digit d → Char.ofNat n ∈ digits := by decide +kernel
  have hmem := hall c.toNat hc d hd
  rw [Char.ofNat_toNat] at hmem
  exact hmem h

/-- Characters have the values of digits exactly if they are these digits in one of the cases. -/
lemma map_value?_encode_iff {s : List Char} {ds : List ℕ} (hds : ∀ d ∈ ds, d < 16) :
    (Utf8.encode s).map value? = ds.map some ↔ s.map Char.toLower = ds.map digit := by
  induction s generalizing ds with
  | nil => cases ds <;> simp [Utf8.encode]
  | cons c s ih =>
      obtain ⟨lead, tail, hchar, -⟩ := Utf8.head_encodeChar c
      cases ds with
      | nil => simp [Utf8.encode_cons, hchar]
      | cons d ds =>
          obtain ⟨hd, hds⟩ := List.forall_mem_cons.mp hds
          by_cases hc : c.toNat < 0x80
          · rw [Utf8.encode_cons, Utf8.encodeChar_of_lt hc, List.singleton_append, List.map_cons,
              List.map_cons, List.map_cons, List.map_cons, List.cons.injEq, List.cons.injEq,
              value?_eq_some_iff hc hd, ih hds]
          · obtain ⟨hoctets, hlower⟩ := not_digit (not_lt.mp hc) hd
            have hlead : value? lead ≠ some d := hoctets lead (by simp [hchar])
            simp [Utf8.encode_cons, hchar, hlead, hlower]

/-- **The texts of some octets.** A text is read as some octets exactly if it is the written one but
for the case of letters. -/
theorem decode_encode_eq_ok_iff {s : List Char} {b : Bytes} :
    decode (Utf8.encode s) = .ok b ↔ s.map Char.toLower = encode b := by
  rw [decode_eq_ok_iff, encode_eq, map_value?_encode_iff lt_of_mem_nibbles]

lemma mem_digits_of_map_toLower {s : List Char} {b : Bytes} (h : s.map Char.toLower = encode b) :
    ∀ c ∈ s, c ∈ digits := by
  intro c hc
  have hlower : c.toLower ∈ encode b := h ▸ List.mem_map_of_mem hc
  obtain ⟨d, hd, hdigit⟩ := mem_encode hlower
  exact mem_digits hd hdigit

lemma map_toLower_encode (b : Bytes) : (encode b).map Char.toLower = encode b := by
  refine (List.map_congr_left fun c hc => ?_).trans (List.map_id _)
  obtain ⟨d, hd, rfl⟩ := mem_encode hc
  exact toLower_digit hd

/-- **Written octets read back.** -/
theorem decode_encode (b : Bytes) : decode (Utf8.encode (encode b)) = .ok b :=
  decode_encode_eq_ok_iff.mpr (map_toLower_encode b)

end Hex

end WireGuardControl.Text

namespace WireGuardControl.Key

/-- A written key reads back. -/
@[simp] lemma ofHex_hexChars (k : Key) : ofHex k.hexChars = .ok k := by
  rw [ofHex, hexChars, Text.Hex.decode_encode]
  exact ofBytes_bytes k

end WireGuardControl.Key

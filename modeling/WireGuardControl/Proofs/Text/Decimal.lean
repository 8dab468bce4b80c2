import Mathlib.Tactic
import WireGuardControl.Text.Decimal
/-!
Numbers read back from their decimal digits.

* `mem_ofNat`: the characters of a written number are decimal digits, and `head?_ofNat_ne` the
  first of them is a zero only if the number is.
* `length_ofNat_le`: how many digits a number has.
* `read_ofNat`: a written number that a range holds is read back, and so are the words of
  every width (`readUInt16_ofNat` and its like). So a number is determined by how it is written
  (`ofNat_injective`).
* `signedText_of_nonneg`, `signedText_of_neg`: the characters of a signed number. A range without
  signs has none with a minus (`read_minus`).
-/

namespace WireGuardControl.Text.Decimal

/-! ### Digits -/

lemma toNat_digit {d : ℕ} (h : d < 10) : (digit d).toNat = 48 + d := by
  interval_cases d <;> rfl

lemma value?_digit {d : ℕ} (h : d < 10) : value? (digit d) = some d := by
  rw [value?, toNat_digit h, if_pos (by omega), Nat.add_sub_cancel_left]

lemma ofNat_of_lt {n : ℕ} (h : n < 10) : ofNat n = [digit n] := by
  rw [ofNat, if_pos h]

lemma ofNat_of_le {n : ℕ} (h : 10 ≤ n) : ofNat n = ofNat (n / 10) ++ [digit (n % 10)] := by
  rw [ofNat, if_neg (by omega)]

lemma ofNat_ne_nil (n : ℕ) : ofNat n ≠ [] := by
  rcases Nat.lt_or_ge n 10 with h | h
  · simp [ofNat_of_lt h]
  · simp [ofNat_of_le h]

/-- A written number consists of digits. -/
lemma mem_ofNat {n : ℕ} {c : Char} (h : c ∈ ofNat n) : ∃ d < 10, c = digit d := by
  induction n using ofNat.induct with
  | case1 n hn =>
      rw [ofNat_of_lt hn, List.mem_singleton] at h
      exact ⟨n, hn, h⟩
  | case2 n hn ih =>
      rw [ofNat_of_le (by omega), List.mem_append, List.mem_singleton] at h
      rcases h with h | h
      · exact ih h
      · exact ⟨n % 10, by omega, h⟩

/-- A written number begins with a zero only if it is zero. -/
lemma head?_ofNat_ne {n : ℕ} (h : 0 < n) : (ofNat n).head? ≠ some '0' := by
  induction n using ofNat.induct with
  | case1 n hn =>
      rw [ofNat_of_lt hn]
      interval_cases n <;> decide
  | case2 n hn ih =>
      rw [ofNat_of_le (by omega), List.head?_append_of_ne_nil _ (ofNat_ne_nil _)]
      exact ih (by omega)

/-- A number has as many digits as the power of ten above it has zeros. -/
lemma length_ofNat_le {n : ℕ} (k : ℕ) (h : n < 10 ^ (k + 1)) : (ofNat n).length ≤ k + 1 := by
  induction k generalizing n with
  | zero =>
      rw [ofNat_of_lt (by simpa using h)]
      simp
  | succ k ih =>
      rcases Nat.lt_or_ge n 10 with hn | hn
      · simp [ofNat_of_lt hn]
      · rw [ofNat_of_le hn, List.length_append, List.length_singleton]
        have hdiv : n / 10 < 10 ^ (k + 1) := by
          rw [Nat.div_lt_iff_lt_mul (by omega)]
          rwa [pow_succ] at h
        exact Nat.succ_le_succ (ih hdiv)

/-! ### Reading -/

lemma readDigits_append (limit : ℕ) (excess : Fault) (n : ℕ) (xs ys : List Char) :
    readDigits limit excess n (xs ++ ys) =
      (readDigits limit excess n xs).bind fun m => readDigits limit excess m ys := by
  induction xs generalizing n with
  | nil => rfl
  | cons c xs ih =>
      rw [List.cons_append, readDigits, readDigits]
      cases value? c with
      | none => rfl
      | some d =>
          simp only
          split_ifs
          · rfl
          · exact ih _

lemma readDigits_digit {limit n d : ℕ} (excess : Fault) (hd : d < 10)
    (h : 10 * n + d ≤ limit) : readDigits limit excess n [digit d] = .ok (10 * n + d) := by
  rw [readDigits, value?_digit hd]
  simp only
  rw [if_neg (by omega), readDigits]

/-- A written number below the limit is read back. -/
lemma readDigits_ofNat {limit n : ℕ} (excess : Fault) (h : n ≤ limit) :
    readDigits limit excess 0 (ofNat n) = .ok n := by
  induction n using ofNat.induct with
  | case1 n hn =>
      rw [ofNat_of_lt hn, readDigits_digit excess hn (by omega)]
      simp
  | case2 n hn ih =>
      have hsum : 10 * (n / 10) + n % 10 = n := by omega
      rw [ofNat_of_le (by omega), readDigits_append, ih (by omega), Except.bind,
        readDigits_digit excess (by omega) (by omega), hsum]

/-- A text that begins without a sign is read as digits. -/
lemma read_of_not_sign (r : Range) {c : Char} {s : List Char} (hplus : c ≠ '+') (hminus : c ≠ '-') :
    read r (c :: s) = (readDigits r.above .tooLarge 0 (c :: s)).map Int.ofNat := by
  rw [read]
  all_goals simp_all

/-- **A written number reads back** into every range that holds it. -/
lemma read_ofNat {r : Range} {n : ℕ} (h : n ≤ r.above) : read r (ofNat n) = .ok n := by
  have hread := readDigits_ofNat .tooLarge h
  cases hs : ofNat n with
  | nil => exact absurd hs (ofNat_ne_nil n)
  | cons c s =>
      obtain ⟨d, hd, hc⟩ := mem_ofNat (n := n) (c := c) (by simp [hs])
      have hplus : c ≠ '+' := by
        rw [hc]
        interval_cases d <;> decide
      have hminus : c ≠ '-' := by
        rw [hc]
        interval_cases d <;> decide
      rw [read_of_not_sign r hplus hminus, ← hs, hread]
      rfl

/-- A number is determined by how it is written. -/
lemma ofNat_injective : Function.Injective ofNat := by
  intro m n h
  have hread := congrArg (read { above := max m n }) h
  rw [read_ofNat (le_max_left m n), read_ofNat (le_max_right m n)] at hread
  exact Int.ofNat.inj (Except.ok.inj hread)

@[simp] lemma readUInt16_ofNat (x : UInt16) : readUInt16 (ofNat x.toNat) = .ok x := by
  have hx := x.toNat_lt
  rw [readUInt16, read_ofNat (r := .u16) (by simp only [Range.u16]; omega)]
  simp [Except.map]

@[simp] lemma readUInt32_ofNat (x : UInt32) : readUInt32 (ofNat x.toNat) = .ok x := by
  have hx := x.toNat_lt
  rw [readUInt32, read_ofNat (r := .u32) (by simp only [Range.u32]; omega)]
  simp [Except.map]

@[simp] lemma readUInt64_ofNat (x : UInt64) : readUInt64 (ofNat x.toNat) = .ok x := by
  have hx := x.toNat_lt
  rw [readUInt64, read_ofNat (r := .u64) (by simp only [Range.u64]; omega)]
  simp [Except.map]

/-! ### Signed numbers -/

lemma signedText_of_nonneg {n : ℤ} (h : 0 ≤ n) : (signedText n).toList = ofNat n.toNat := by
  have hnat : n.natAbs = n.toNat := by omega
  rw [signedText, if_neg (not_lt.mpr h), text, String.toList_ofList, hnat]

lemma signedText_of_neg {n : ℤ} (h : n < 0) : (signedText n).toList = '-' :: ofNat n.natAbs := by
  have hminus : "-".toList = ['-'] := rfl
  rw [signedText, if_pos h, String.toList_append, hminus, text, String.toList_ofList,
    List.singleton_append]

/-- A text that begins with a minus is no number of a range without signs. -/
lemma read_minus {r : Range} (h : r.below = 0) (s : List Char) :
    read r ('-' :: s) = .error .invalidDigit := by
  cases s with
  | nil => rfl
  | cons c s => exact if_pos h

end WireGuardControl.Text.Decimal

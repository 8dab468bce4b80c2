import WireGuardControl.Json.Reader
import WireGuardControl.Proofs.Json.Scan
/-!
Natural numbers read back from their digits.

* `EndsValue`: what may stand behind a value, so that a number ends there.
* `gather_digitsOf`: the digits of a number of sixty-four bits are put together again.
* `isFinite_natural`: floating point has room for such a number.
* `readNatural_ofNat`: a number within the limits of its kind reads back.
-/

namespace WireGuardControl

open Text

/-! ### Rounding -/

namespace Rounding

lemma quotient_le (n d : ℕ) : quotient n d ≤ n / d + 1 := by
  simp only [quotient]
  split_ifs <;> omega

/-- A number at most doubles as it is rounded. -/
lemma significant_le {n : ℕ} (h : n ≠ 0) : significant n ≤ 2 * n := by
  have hunit : 2 ^ (n.log2 - 52) ≤ n :=
    (Nat.pow_le_pow_right (by omega) (Nat.sub_le _ _)).trans (Nat.log2_self_le h)
  calc
    significant n ≤ (n / 2 ^ (n.log2 - 52) + 1) * 2 ^ (n.log2 - 52) :=
      Nat.mul_le_mul_right _ (quotient_le _ _)
    _ = n / 2 ^ (n.log2 - 52) * 2 ^ (n.log2 - 52) + 2 ^ (n.log2 - 52) := Nat.succ_mul _ _
    _ ≤ n + n := Nat.add_le_add (Nat.div_mul_le_self _ _) hunit
    _ = 2 * n := (Nat.two_mul n).symm

end Rounding

namespace Json

/-! ### The end of a value -/

/-- What may stand behind a value: nothing, a comma, or a mark that ends a list or an object. -/
inductive EndsValue : List Char → Prop
  | nil : EndsValue []
  | comma (s : List Char) : EndsValue (',' :: s)
  | bracket (s : List Char) : EndsValue (']' :: s)
  | brace (s : List Char) : EndsValue ('\x7d' :: s)

namespace Numeral

variable {n : ℕ} {rest : List Char}

/-! ### Digits -/

/-- The digits of a number. -/
def digitsOf (n : ℕ) : List ℕ := (Decimal.ofNat n).filterMap Decimal.value?

lemma isDigit_of_mem_ofNat {c : Char} (h : c ∈ Decimal.ofNat n) : isDigit c = true := by
  obtain ⟨d, hd, rfl⟩ := Decimal.mem_ofNat h
  rw [isDigit, Decimal.value?_digit hd]
  rfl

/-- A written number ends where a value may end. -/
lemma spanDigits_ofNat (n : ℕ) (h : EndsValue rest) :
    spanDigits (Decimal.ofNat n ++ rest) = (digitsOf n, rest) := by
  have hdigits : ∀ c ∈ Decimal.ofNat n, isDigit c = true := fun c => isDigit_of_mem_ofNat
  have htake : rest.takeWhile isDigit = [] := by cases h <;> rfl
  have hdrop : rest.dropWhile isDigit = rest := by cases h <;> rfl
  rw [spanDigits, List.takeWhile_append_of_pos hdigits, List.dropWhile_append_of_pos hdigits, htake,
    hdrop, List.append_nil, digitsOf]

lemma scanWhole_ofNat (short : Fault) (n : ℕ) (h : EndsValue rest) :
    scanWhole short (Decimal.ofNat n ++ rest) = .ok (digitsOf n, rest) := by
  have hspan := spanDigits_ofNat n h
  obtain ⟨c, s, hs⟩ := List.exists_cons_of_ne_nil (Decimal.ofNat_ne_nil n)
  have hdigit : isDigit c = true := isDigit_of_mem_ofNat (n := n) (by simp [hs])
  rcases Nat.eq_zero_or_pos n with rfl | hpos
  · rw [digitsOf, Decimal.ofNat_of_lt (by omega)]
    cases h <;> rfl
  · -- a number other than zero does not begin with a zero
    have hzero : c ≠ '0' := by
      rintro rfl
      exact Decimal.head?_ofNat_ne hpos (by rw [hs]; rfl)
    rw [scanWhole, ← hspan, hs, List.cons_append, scanDigits, if_pos hdigit]
    rw [hs, List.cons_append]
    intro d t heq
    exact hzero (List.cons.inj heq).1

/-- The parts of a number that is written as a natural one. -/
def natural (n : ℕ) : Numeral := ⟨false, digitsOf n, none, none⟩

/-- The parts of a natural number are found. -/
lemma scan_ofNat (short : Fault) (n : ℕ) (h : EndsValue rest) :
    scan short (Decimal.ofNat n ++ rest) = .ok (natural n, rest) := by
  have hfraction : scanFraction short rest = .ok (none, rest) := by cases h <;> rfl
  have hexponent : scanExponent short rest = .ok (none, rest) := by cases h <;> rfl
  have hunsigned : scanUnsigned short false (Decimal.ofNat n ++ rest) = .ok (natural n, rest) := by
    rw [scanUnsigned, scanWhole_ofNat short n h]
    simp only [bind, Except.bind, hfraction, hexponent]
    rfl
  obtain ⟨c, s, hs⟩ := List.exists_cons_of_ne_nil (Decimal.ofNat_ne_nil n)
  have hminus : c ≠ '-' := by
    rintro rfl
    exact absurd (isDigit_of_mem_ofNat (n := n) (c := '-') (by simp [hs])) (by decide)
  rw [scan, hunsigned]
  rw [hs, List.cons_append]
  intro t heq
  exact hminus (List.cons.inj heq).1

/-! ### The number -/

lemma gather_append {m k : ℕ} {xs : List ℕ} (h : gather m xs = (k, [])) (ys : List ℕ) :
    gather m (xs ++ ys) = gather k ys := by
  induction xs generalizing m with
  | nil =>
      obtain rfl : m = k := congrArg Prod.fst h
      rfl
  | cons d xs ih =>
      rw [gather] at h
      by_cases hroom : 10 * m + d < UInt64.size
      · rw [if_pos hroom] at h
        rw [List.cons_append, gather, if_pos hroom, ih h]
      · rw [if_neg hroom] at h
        cases h

/-- **The digits of a number are put together again** if it has sixty-four bits. -/
lemma gather_digitsOf (h : n < UInt64.size) : gather 0 (digitsOf n) = (n, []) := by
  induction n using Decimal.ofNat.induct with
  | case1 n hn =>
      have hdigits : digitsOf n = [n] := by
        rw [digitsOf, Decimal.ofNat_of_lt hn]
        simp [Decimal.value?_digit hn]
      rw [hdigits, gather, if_pos (by omega), Nat.mul_zero, Nat.zero_add, gather]
  | case2 n hn ih =>
      have hsum : 10 * (n / 10) + n % 10 = n := by omega
      have hdigits : digitsOf n = digitsOf (n / 10) ++ [n % 10] := by
        rw [digitsOf, Decimal.ofNat_of_le (by omega), List.filterMap_append, digitsOf]
        simp [Decimal.value?_digit (show n % 10 < 10 by omega)]
      rw [hdigits, gather_append (ih (by omega)), gather, hsum, if_pos h, gather]

lemma natural?_natural (h : n < UInt64.size) : (natural n).natural? = some n := by
  simp [natural?, natural, gather_digitsOf h]

/-- Floating point has room for a number of sixty-four bits. -/
lemma isFinite_natural (h : n < UInt64.size) : (natural n).isFinite = true := by
  have hroom : hasRoom n 0 = true := by
    rw [hasRoom]
    split_ifs with hzero hlarge
    · rfl
    · omega
    · have hn : n ≠ 0 := fun hn => hzero (.inl hn)
      have hone : Rounding.significant (Nat.pow 10 (0 : ℤ).toNat) = 1 := by decide
      rw [hone, Nat.mul_one, decide_eq_true_iff]
      calc
        Rounding.significant n ≤ 2 * n := Rounding.significant_le hn
        _ ≤ 2 * UInt64.size := by omega
        _ < Nat.pow 2 1024 - Nat.pow 2 970 := by decide +kernel
  simp [isFinite, natural, gather_digitsOf h, gather, hroom]

end Numeral

/-! ### The reader -/

lemma readNumeral_ofNat {n : ℕ} {rest : List Char} (hn : n < UInt64.size) (h : EndsValue rest) :
    readNumeral (Decimal.ofNat n ++ rest) = .ok (Numeral.natural n, rest) := by
  simp only [readNumeral, Numeral.scan_ofNat .unfinished n h, Numeral.isFinite_natural hn, if_true]

/-- **A natural number reads back** in front of anything that may stand behind a value. -/
lemma readNatural_ofNat {limit n : ℕ} {rest : List Char} (hlimit : n ≤ limit)
    (hn : n < UInt64.size) (h : EndsValue rest) :
    readNatural limit (Decimal.ofNat n ++ rest) = .ok (n, rest) := by
  have hread := readNumeral_ofNat hn h
  obtain ⟨c, s, hs⟩ := List.exists_cons_of_ne_nil (Decimal.ofNat_ne_nil n)
  obtain ⟨d, hd, rfl⟩ := Decimal.mem_ofNat (n := n) (c := c) (by simp [hs])
  have hblank : isBlank (Decimal.digit d) = false := by interval_cases d <;> decide
  have hstarts : startsNumber (Decimal.digit d) = true := by interval_cases d <;> decide
  rw [hs, List.cons_append] at hread ⊢
  simp only [readNatural, skipBlank_cons hblank, hstarts, if_true, hread,
    Numeral.natural?_natural hn, if_pos hlimit]

end Json

end WireGuardControl

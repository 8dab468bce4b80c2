import WireGuardControl.Json.Scan
import WireGuardControl.Proofs.Text.Hex
/-!
Texts between quotes read back.

* `readEscape_escaped`: the escape that is written for a character stands for it, whether it is a
  letter of its own or a number of four digits.
* `readChars_flatMap_escaped`: a text between quotes is read back, whatever stands behind it.
-/

namespace WireGuardControl.Json

open Text

/-! ### Marks -/

lemma skipBlank_cons {c : Char} (h : isBlank c = false) (s : List Char) :
    skipBlank (c :: s) = c :: s :=
  List.dropWhile_cons_of_neg (by simp [h])

lemma expect_cons {c : Char} (h : isBlank c = false) (s : List Char) :
    expect c (c :: s) = .ok s := by
  rw [expect, skipBlank_cons h]
  exact if_pos rfl

/-! ### Escapes -/

lemma hexValue?_digit {d : ℕ} (h : d < 16) : hexValue? (Hex.digit d) = some d := by
  have hc := Hex.toNat_digit_lt h
  rw [hexValue?, if_pos hc]
  exact (Hex.value?_eq_some_iff hc h).mpr (Hex.toLower_digit h)

/-- A number below 256 reads back from two zeros and its two digits. -/
lemma readQuad_digits {n : ℕ} (h : n < 256) (s : List Char) :
    readQuad ('0' :: '0' :: Hex.digit (n / 16) :: Hex.digit (n % 16) :: s) = .ok (n, s) := by
  have hzero : hexValue? '0' = some 0 := hexValue?_digit (d := 0) (by omega)
  have hsum : 4096 * 0 + 256 * 0 + 16 * (n / 16) + n % 16 = n := by omega
  have hdigits : ['0', '0', Hex.digit (n / 16), Hex.digit (n % 16)].mapM hexValue? =
      some [0, 0, n / 16, n % 16] := by
    simp [hzero, hexValue?_digit (d := n / 16) (by omega),
      hexValue?_digit (d := n % 16) (by omega)]
  rw [readQuad]
  simp only [List.take_succ_cons, List.take_zero, hdigits, hsum, List.drop_succ_cons,
    List.drop_zero]

/-- A number below 256 is no half of a pair, so that it is the character's. -/
lemma readNumbered_digits {c : Char} (h : c.toNat < 256) (s : List Char) :
    readNumbered true ('0' :: '0' :: Hex.digit (c.toNat / 16) :: Hex.digit (c.toNat % 16) :: s) =
      .ok (c, s) := by
  have hlow : isLowHalf c.toNat = false := by
    simp only [isLowHalf, decide_eq_false_iff_not]
    omega
  have hhigh : isHighHalf c.toNat = false := by
    simp only [isHighHalf, decide_eq_false_iff_not]
    omega
  rw [readNumbered, readQuad_digits h]
  simp [bind, Except.bind, pure, Except.pure, hlow, hhigh, Char.ofNat_toNat]

/-- The letter of a short escape stands for the character that it is written for. -/
lemma lookup_shortEscapes {e : Char × Char} (h : e ∈ shortEscapes) :
    e.1 ≠ 'u' ∧ escapes.lookup e.1 = some e.2 := by
  simp only [shortEscapes, List.mem_cons, List.not_mem_nil, or_false] at h
  rcases h with rfl | rfl | rfl | rfl | rfl <;> decide

/-- **What is written for a character that has to be escaped** is a backslash and what is read as
this character behind one. -/
lemma readEscape_escaped {c : Char} (h : c = '"' ∨ c = '\\' ∨ c.toNat < 32) :
    ∃ t, escaped c = '\\' :: t ∧ ∀ s, readEscape true (t ++ s) = .ok (c, s) := by
  rw [escaped]
  split_ifs with hself hlarge
  · refine ⟨[c], rfl, fun s => ?_⟩
    rcases hself with rfl | rfl <;> rfl
  · obtain rfl | rfl | hsmall := h
    · exact absurd (.inl rfl) hself
    · exact absurd (.inr rfl) hself
    · omega
  · cases hfind : shortEscapes.find? fun e => e.2 = c with
    | some e =>
        obtain ⟨hu, hlookup⟩ := lookup_shortEscapes (List.mem_of_find?_eq_some hfind)
        have hc : e.2 = c := by simpa using List.find?_some hfind
        refine ⟨[e.1], rfl, fun s => ?_⟩
        rw [List.singleton_append, readEscape, if_neg hu, hlookup, hc]
    | none => exact ⟨_, rfl, readNumbered_digits (by omega)⟩

/-! ### Texts -/

lemma quoted_append (s rest : List Char) :
    quoted s ++ rest = '"' :: (s.flatMap escaped ++ '"' :: rest) := by
  rw [quoted, List.cons_append, List.cons_append, List.append_assoc, List.singleton_append]

lemma readChars_quote (s : List Char) : readChars true ('"' :: s) = .ok ([], s) := by
  rw [readChars, if_pos rfl]

/-- A character reads back as it is written. -/
lemma readChars_escaped (c : Char) (s : List Char) :
    readChars true (escaped c ++ s) = (readChars true s).map fun t => (c :: t.1, t.2) := by
  by_cases h : c = '"' ∨ c = '\\' ∨ c.toNat < 32
  · obtain ⟨t, ht, hread⟩ := readEscape_escaped h
    rw [ht, List.cons_append, readChars, if_neg (by decide), if_pos rfl]
    split
    · rename_i d rest hd
      rw [hread] at hd
      obtain ⟨rfl, rfl⟩ := Prod.mk.inj (Except.ok.inj hd)
      rfl
    · rename_i fault hfault
      rw [hread] at hfault
      cases hfault
  · obtain ⟨hquote, hbackslash, hsmall⟩ := not_or.mp h |>.imp_right not_or.mp
    rw [escaped, if_neg (not_or.mpr ⟨hquote, hbackslash⟩), if_pos (by omega), List.singleton_append,
      readChars, if_neg hquote, if_neg hbackslash, if_neg hsmall]

/-- **A text between quotes reads back**, whatever stands behind it. -/
lemma readChars_flatMap_escaped (t s : List Char) :
    readChars true (t.flatMap escaped ++ '"' :: s) = .ok (t, s) := by
  induction t with
  | nil => exact readChars_quote s
  | cons c t ih =>
      rw [List.flatMap_cons, List.append_assoc, readChars_escaped, ih]
      rfl

end WireGuardControl.Json

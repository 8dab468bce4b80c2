import Mathlib.Tactic
import WireGuardControl.Text.Utf8
/-!
Texts read back from their octets.

* `head_encodeChar`: the octets of a character, whatever follows them, are read as this
  character, and all of them are used up.
* `decode_encode` and `toString?_ofString`: a text reads back from its octets.
* `encodeChar_of_head`: what is read as a character are its octets, so that no others are read as a
  text (`decode_eq_ok_iff`).
* `eq_of_mem_encodeChar`: an octet of seven bits stands for itself only. A text without this
  character thus does not have the octet (`notMem_encode`), which else divides the text where the
  character does (`encode_eq_append_cons`), and a zero octet ends a text without a zero character
  (`untilNul_ofString`).
-/

namespace WireGuardControl.Text.Utf8

/-! ### One character -/

lemma toNat_ofNat_of_lt {n : ℕ} (h : n < 256) : (UInt8.ofNat n).toNat = n := by
  rw [UInt8.toNat_ofNat']
  omega

/-- An octet that adds six bits to a character. -/
lemma complete_tail {n width low high k : ℕ} {ranges : List (ℕ × ℕ)} {rest : Bytes}
    (hlow : low ≤ 0x80 + k) (hhigh : 0x80 + k ≤ high) (hk : k < 64) :
    complete n width ((low, high) :: ranges) (UInt8.ofNat (0x80 + k) :: rest) =
      complete (n * 64 + k) (width + 1) ranges rest := by
  have hb : (UInt8.ofNat (0x80 + k)).toNat = 0x80 + k := toNat_ofNat_of_lt (by omega)
  have hbits : (0x80 + k) % 64 = k := by omega
  rw [complete, hb, if_pos ⟨hlow, hhigh⟩, hbits]

/-- The number of a character is below the surrogates, or above them and in range. -/
lemma toNat_char (c : Char) : c.toNat < 0xD800 ∨ (0xDFFF < c.toNat ∧ c.toNat < 0x110000) :=
  c.valid

lemma head_one {n : ℕ} (h : n < 0x80) (rest : Bytes) :
    head (UInt8.ofNat n) rest = .char (Char.ofNat n) 0 := by
  have hn : (UInt8.ofNat n).toNat = n := toNat_ofNat_of_lt (by omega)
  simp only [head, continuations?, leadBits, hn, if_pos h, complete]

lemma head_two {n : ℕ} (h₁ : 0x80 ≤ n) (h₂ : n < 0x800) (rest : Bytes) :
    head (UInt8.ofNat (0xC0 + n / 64)) (UInt8.ofNat (0x80 + n % 64) :: rest) =
      .char (Char.ofNat n) 1 := by
  have hlead : (UInt8.ofNat (0xC0 + n / 64)).toNat = 0xC0 + n / 64 :=
    toNat_ofNat_of_lt (by omega)
  have hranges : continuations? (UInt8.ofNat (0xC0 + n / 64)) = some [(0x80, 0xBF)] := by
    simp only [continuations?, hlead]
    rw [if_neg (by omega), if_pos (by omega)]
  have hbits : leadBits (UInt8.ofNat (0xC0 + n / 64)) = n / 64 := by
    simp only [leadBits, hlead]
    rw [if_neg (by omega), if_pos (by omega)]
    omega
  have hsum : n / 64 * 64 + n % 64 = n := by omega
  rw [head, hranges]
  simp only [hbits]
  rw [complete_tail (by omega) (by omega) (by omega), complete, hsum]

lemma head_three {n : ℕ} (h₁ : 0x800 ≤ n) (h₂ : n < 0x10000)
    (hn : n < 0xD800 ∨ 0xDFFF < n) (rest : Bytes) :
    head (UInt8.ofNat (0xE0 + n / 4096))
        (UInt8.ofNat (0x80 + n / 64 % 64) :: UInt8.ofNat (0x80 + n % 64) :: rest) =
      .char (Char.ofNat n) 2 := by
  have hlead : (UInt8.ofNat (0xE0 + n / 4096)).toNat = 0xE0 + n / 4096 :=
    toNat_ofNat_of_lt (by omega)
  -- the first octet narrows the second where a shorter form or a surrogate would begin
  have hranges : ∃ low high, low ≤ 0x80 + n / 64 % 64 ∧ 0x80 + n / 64 % 64 ≤ high ∧
      continuations? (UInt8.ofNat (0xE0 + n / 4096)) = some [(low, high), (0x80, 0xBF)] := by
    simp only [continuations?, hlead]
    rw [if_neg (by omega), if_neg (by omega)]
    split_ifs
    all_goals first | omega | exact ⟨_, _, by omega, by omega, rfl⟩
  have hbits : leadBits (UInt8.ofNat (0xE0 + n / 4096)) = n / 4096 := by
    simp only [leadBits, hlead]
    rw [if_neg (by omega), if_neg (by omega), if_pos (by omega)]
    omega
  have hsum : (n / 4096 * 64 + n / 64 % 64) * 64 + n % 64 = n := by omega
  obtain ⟨low, high, hlow, hhigh, hranges⟩ := hranges
  rw [head, hranges]
  simp only [hbits]
  rw [complete_tail hlow hhigh (by omega), complete_tail (by omega) (by omega) (by omega), complete,
    hsum]

lemma head_four {n : ℕ} (h₁ : 0x10000 ≤ n) (h₂ : n < 0x110000) (rest : Bytes) :
    head (UInt8.ofNat (0xF0 + n / 262144))
        (UInt8.ofNat (0x80 + n / 4096 % 64) :: UInt8.ofNat (0x80 + n / 64 % 64) ::
          UInt8.ofNat (0x80 + n % 64) :: rest) =
      .char (Char.ofNat n) 3 := by
  have hlead : (UInt8.ofNat (0xF0 + n / 262144)).toNat = 0xF0 + n / 262144 :=
    toNat_ofNat_of_lt (by omega)
  have hranges : ∃ low high, low ≤ 0x80 + n / 4096 % 64 ∧ 0x80 + n / 4096 % 64 ≤ high ∧
      continuations? (UInt8.ofNat (0xF0 + n / 262144)) =
        some [(low, high), (0x80, 0xBF), (0x80, 0xBF)] := by
    simp only [continuations?, hlead]
    rw [if_neg (by omega), if_neg (by omega), if_neg (by omega), if_neg (by omega),
      if_neg (by omega)]
    split_ifs
    all_goals first | omega | exact ⟨_, _, by omega, by omega, rfl⟩
  have hbits : leadBits (UInt8.ofNat (0xF0 + n / 262144)) = n / 262144 := by
    simp only [leadBits, hlead]
    rw [if_neg (by omega), if_neg (by omega), if_neg (by omega)]
    omega
  have hsum : ((n / 262144 * 64 + n / 4096 % 64) * 64 + n / 64 % 64) * 64 + n % 64 = n := by
    omega
  obtain ⟨low, high, hlow, hhigh, hranges⟩ := hranges
  rw [head, hranges]
  simp only [hbits]
  rw [complete_tail hlow hhigh (by omega), complete_tail (by omega) (by omega) (by omega),
    complete_tail (by omega) (by omega) (by omega), complete, hsum]

/-- The octets of a character are read as this character and are used up, whatever follows. -/
lemma head_encodeChar (c : Char) : ∃ lead tail, encodeChar c = lead :: tail ∧
    ∀ rest, head lead (tail ++ rest) = .char c tail.length := by
  have hc := toNat_char c
  have hself : Char.ofNat c.toNat = c := Char.ofNat_toNat c
  simp only [encodeChar]
  split_ifs with h₁ h₂ h₃
  · refine ⟨_, _, rfl, fun rest => ?_⟩
    exact (head_one h₁ rest).trans (by rw [hself]; rfl)
  · refine ⟨_, _, rfl, fun rest => ?_⟩
    exact (head_two (by omega) h₂ rest).trans (by rw [hself]; rfl)
  · refine ⟨_, _, rfl, fun rest => ?_⟩
    exact (head_three (by omega) h₃ (by omega) rest).trans (by rw [hself]; rfl)
  · refine ⟨_, _, rfl, fun rest => ?_⟩
    exact (head_four (by omega) (by omega) rest).trans (by rw [hself]; rfl)

/-- A character of seven bits is one octet. -/
lemma encodeChar_of_lt {c : Char} (h : c.toNat < 0x80) : encodeChar c = [UInt8.ofNat c.toNat] := by
  simp only [encodeChar]
  rw [if_pos h]

/-! ### Texts -/

lemma encode_cons (c : Char) (s : List Char) : encode (c :: s) = encodeChar c ++ encode s := rfl

lemma encode_ne_nil {s : List Char} (h : s ≠ []) : encode s ≠ [] := by
  cases s with
  | nil => exact absurd rfl h
  | cons c s =>
      obtain ⟨lead, tail, hc, -⟩ := head_encodeChar c
      rw [encode_cons, hc, List.cons_append]
      exact List.cons_ne_nil _ _

/-- A text reads back from its octets, wherever they stand. -/
lemma decodeFrom_encode (index : ℕ) (s : List Char) : decodeFrom index (encode s) = .ok s := by
  induction s generalizing index with
  | nil => rw [encode, List.flatMap_nil, decodeFrom]
  | cons c s ih =>
      obtain ⟨lead, tail, hc, hhead⟩ := head_encodeChar c
      rw [encode_cons, hc, List.cons_append, decodeFrom, hhead]
      simp only [List.drop_left, ih]
      rfl

/-- **A text reads back from its octets.** -/
theorem decode_encode (s : List Char) : decode (encode s) = .ok s := decodeFrom_encode 0 s

/-- A text has no run of octets that is replaced. -/
lemma lossy_encode (s : List Char) : lossy (encode s) = s := by
  induction s with
  | nil => rw [encode, List.flatMap_nil, lossy]
  | cons c s ih =>
      obtain ⟨lead, tail, hc, hhead⟩ := head_encodeChar c
      rw [encode_cons, hc, List.cons_append, lossy, hhead]
      simp only [List.drop_left, ih]

@[simp] lemma toString?_ofString (s : String) : toString? (ofString s) = .ok s := by
  rw [toString?, ofString, decode_encode]
  exact congrArg Except.ok (String.ofList_toList)

/-! ### The only octets of a text -/

lemma toNat_char_ofNat {n : ℕ} (h : n < 0xD800 ∨ (0xDFFF < n ∧ n < 0x110000)) :
    (Char.ofNat n).toNat = n := by
  have hvalid : n.isValidChar := h
  rw [Char.ofNat, dif_pos hvalid]
  rfl

lemma ofNat_eq_of_toNat {n : ℕ} {b : UInt8} (h : n = b.toNat) : UInt8.ofNat n = b := by
  rw [h, UInt8.ofNat_toNat]

section Written

variable {lead b₁ b₂ b₃ : UInt8}

lemma encodeChar_one (hlead : lead.toNat < 0x80) :
    encodeChar (Char.ofNat (leadBits lead)) = [lead] := by
  have hbits : leadBits lead = lead.toNat := if_pos hlead
  have hnum : (Char.ofNat lead.toNat).toNat = lead.toNat := toNat_char_ofNat (by omega)
  rw [hbits, encodeChar_of_lt (by rwa [hnum]), hnum, UInt8.ofNat_toNat]

lemma encodeChar_two (hlead : 0xC2 ≤ lead.toNat ∧ lead.toNat ≤ 0xDF)
    (hb₁ : 0x80 ≤ b₁.toNat ∧ b₁.toNat ≤ 0xBF) :
    encodeChar (Char.ofNat (leadBits lead * 64 + b₁.toNat % 64)) = [lead, b₁] := by
  have hbits : leadBits lead = lead.toNat - 0xC0 := by
    simp only [leadBits]
    rw [if_neg (by omega), if_pos (by omega)]
    omega
  simp only [encodeChar]
  rw [hbits, toNat_char_ofNat (by omega), if_neg (by omega), if_pos (by omega),
    ofNat_eq_of_toNat (b := lead) (by omega), ofNat_eq_of_toNat (b := b₁) (by omega)]

/-- The first octet narrows the second where a shorter form or a surrogate would begin. -/
lemma encodeChar_three (hlead : 0xE0 ≤ lead.toNat ∧ lead.toNat ≤ 0xEF)
    (hb₁ : 0x80 ≤ b₁.toNat ∧ b₁.toNat ≤ 0xBF) (hb₂ : 0x80 ≤ b₂.toNat ∧ b₂.toNat ≤ 0xBF)
    (hlow : lead.toNat = 0xE0 → 0xA0 ≤ b₁.toNat) (hhigh : lead.toNat = 0xED → b₁.toNat ≤ 0x9F) :
    encodeChar (Char.ofNat ((leadBits lead * 64 + b₁.toNat % 64) * 64 + b₂.toNat % 64)) =
      [lead, b₁, b₂] := by
  have hbits : leadBits lead = lead.toNat - 0xE0 := by
    simp only [leadBits]
    rw [if_neg (by omega), if_neg (by omega), if_pos (by omega)]
    omega
  simp only [encodeChar]
  rw [hbits, toNat_char_ofNat (by omega), if_neg (by omega), if_neg (by omega), if_pos (by omega),
    ofNat_eq_of_toNat (b := lead) (by omega), ofNat_eq_of_toNat (b := b₁) (by omega),
    ofNat_eq_of_toNat (b := b₂) (by omega)]

/-- The first octet narrows the second where a shorter form or the end of the range would be. -/
lemma encodeChar_four (hlead : 0xF0 ≤ lead.toNat ∧ lead.toNat ≤ 0xF4)
    (hb₁ : 0x80 ≤ b₁.toNat ∧ b₁.toNat ≤ 0xBF) (hb₂ : 0x80 ≤ b₂.toNat ∧ b₂.toNat ≤ 0xBF)
    (hb₃ : 0x80 ≤ b₃.toNat ∧ b₃.toNat ≤ 0xBF)
    (hlow : lead.toNat = 0xF0 → 0x90 ≤ b₁.toNat) (hhigh : lead.toNat = 0xF4 → b₁.toNat ≤ 0x8F) :
    encodeChar (Char.ofNat (((leadBits lead * 64 + b₁.toNat % 64) * 64 + b₂.toNat % 64) * 64 +
      b₃.toNat % 64)) = [lead, b₁, b₂, b₃] := by
  have hbits : leadBits lead = lead.toNat - 0xF0 := by
    simp only [leadBits]
    rw [if_neg (by omega), if_neg (by omega), if_neg (by omega)]
    omega
  simp only [encodeChar]
  rw [hbits, toNat_char_ofNat (by omega), if_neg (by omega), if_neg (by omega), if_neg (by omega),
    ofNat_eq_of_toNat (b := lead) (by omega), ofNat_eq_of_toNat (b := b₁) (by omega),
    ofNat_eq_of_toNat (b := b₂) (by omega), ofNat_eq_of_toNat (b := b₃) (by omega)]

end Written

section Completed

variable {n width width' : ℕ} {rest : Bytes} {c : Char}

lemma complete_nil_eq_char :
    complete n width [] rest = .char c width' ↔ c = Char.ofNat n ∧ width' = width := by
  simp [complete, eq_comm]

lemma complete_cons_eq_char {low high : ℕ} {ranges : List (ℕ × ℕ)} :
    complete n width ((low, high) :: ranges) rest = .char c width' ↔
      ∃ b back, rest = b :: back ∧ (low ≤ b.toNat ∧ b.toNat ≤ high) ∧
        complete (n * 64 + b.toNat % 64) (width + 1) ranges back = .char c width' := by
  cases rest with
  | nil => simp [complete]
  | cons b back =>
      rw [complete]
      split_ifs with hb
      · simp [hb]
      · simp [hb]

/-- What is read as a character are the octets of this character. -/
lemma encodeChar_of_head {lead : UInt8} (h : head lead rest = .char c width) :
    encodeChar c = lead :: rest.take width := by
  simp only [head, continuations?] at h
  split_ifs at h <;> simp only [complete_cons_eq_char, complete_nil_eq_char] at h
  · obtain ⟨rfl, rfl⟩ := h
    exact encodeChar_one ‹_›
  · obtain ⟨b₁, _, rfl, hb₁, rfl, rfl⟩ := h
    exact encodeChar_two ‹_› hb₁
  iterate 3
    obtain ⟨b₁, _, rfl, hb₁, b₂, _, rfl, hb₂, rfl, rfl⟩ := h
    exact encodeChar_three (by omega) (by omega) hb₂ (by omega) (by omega)
  all_goals
    obtain ⟨b₁, _, rfl, hb₁, b₂, _, rfl, hb₂, b₃, _, rfl, hb₃, rfl, rfl⟩ := h
    exact encodeChar_four (by omega) (by omega) hb₂ hb₃ (by omega) (by omega)

end Completed

lemma decodeFrom_eq_ok {index : ℕ} {b : Bytes} {s : List Char} (h : decodeFrom index b = .ok s) :
    b = encode s := by
  fun_induction decodeFrom index b generalizing s with
  | case1 =>
    obtain rfl := Except.ok.inj h
    rfl
  | case2 index b rest c width hhead ih =>
      cases hs : decodeFrom (index + width + 1) (rest.drop width) with
      | error e => rw [hs] at h; cases h
      | ok s' =>
          rw [hs] at h
          obtain rfl := Except.ok.inj h
          rw [encode_cons, encodeChar_of_head hhead, ← ih hs, List.cons_append,
            List.take_append_drop]
  | case3 => cases h
  | case4 => cases h

/-- **Octets are read as a text** exactly if they are the octets of this text. -/
theorem decode_eq_ok_iff {b : Bytes} {s : List Char} : decode b = .ok s ↔ b = encode s := by
  constructor
  · exact decodeFrom_eq_ok
  · rintro rfl
    exact decode_encode s

/-! ### Octets of seven bits -/

lemma le_toNat_ofNat {n : ℕ} (hlow : 0x80 ≤ n) (h : n < 256) : 0x80 ≤ (UInt8.ofNat n).toNat := by
  rwa [toNat_ofNat_of_lt h]

/-- An octet of a character has eight bits, or it is the character. -/
lemma toNat_of_mem_encodeChar (c : Char) :
    ∀ b ∈ encodeChar c, b.toNat = c.toNat ∨ 0x80 ≤ b.toNat := by
  have hvalid := toNat_char c
  simp only [encodeChar]
  split_ifs <;>
    simp only [List.mem_cons, List.not_mem_nil, or_false, forall_eq_or_imp, forall_eq]
  · exact .inl (toNat_ofNat_of_lt (by omega))
  · exact ⟨.inr (le_toNat_ofNat (by omega) (by omega)), .inr (le_toNat_ofNat (by omega) (by omega))⟩
  · exact ⟨.inr (le_toNat_ofNat (by omega) (by omega)),
      .inr (le_toNat_ofNat (by omega) (by omega)), .inr (le_toNat_ofNat (by omega) (by omega))⟩
  · exact ⟨.inr (le_toNat_ofNat (by omega) (by omega)),
      .inr (le_toNat_ofNat (by omega) (by omega)), .inr (le_toNat_ofNat (by omega) (by omega)),
      .inr (le_toNat_ofNat (by omega) (by omega))⟩

/-- An octet of a character of seven bits is the whole of its character. -/
lemma eq_of_mem_encodeChar {c x : Char} (hc : c.toNat < 0x80)
    (h : UInt8.ofNat c.toNat ∈ encodeChar x) : x = c := by
  have hoctet : (UInt8.ofNat c.toNat).toNat = c.toNat := toNat_ofNat_of_lt (by omega)
  rcases toNat_of_mem_encodeChar x _ h with hx | hx
  · rw [← Char.ofNat_toNat x, ← hx, hoctet, Char.ofNat_toNat]
  · omega

/-- A text without a character of seven bits has no octet that is this character. -/
lemma notMem_encode {c : Char} (hc : c.toNat < 0x80) {s : List Char} (hs : c ∉ s) :
    UInt8.ofNat c.toNat ∉ encode s := by
  intro hmem
  obtain ⟨x, hx, hbx⟩ := List.mem_flatMap.mp hmem
  exact hs (eq_of_mem_encodeChar hc hbx ▸ hx)

/-- **An octet of seven bits divides a text** where its character does. -/
lemma encode_eq_append_cons {c : Char} (hc : c.toNat < 0x80) {s : List Char} {front back : Bytes}
    (h : encode s = front ++ UInt8.ofNat c.toNat :: back) :
    ∃ before after, s = before ++ c :: after ∧ encode before = front ∧ encode after = back := by
  induction s generalizing front with
  | nil => simp [encode] at h
  | cons x s ih =>
      -- the octets of `x` stand in front of the octet, or it is among them
      rw [encode_cons] at h
      obtain ⟨mid, rfl, hs⟩ | ⟨mid, hx, hs⟩ := List.append_eq_append_iff.mp h
      · obtain ⟨before, after, rfl, rfl, rfl⟩ := ih hs
        exact ⟨x :: before, after, rfl, rfl, rfl⟩
      · cases mid with
        | nil =>
            obtain ⟨before, after, rfl, hbefore, rfl⟩ := @ih [] hs.symm
            rw [List.append_nil] at hx
            exact ⟨x :: before, after, rfl, by rw [encode_cons, hbefore, hx, List.append_nil], rfl⟩
        | cons o mid =>
            obtain ⟨rfl, hback⟩ := List.cons.inj hs
            obtain rfl : x = c := eq_of_mem_encodeChar hc (hx ▸ by simp)
            rw [encodeChar_of_lt hc] at hx
            obtain ⟨rfl, hmid⟩ : front = [] ∧ mid = [] := by
              have hlength := congrArg List.length hx
              simp only [List.length_append, List.length_cons, List.length_nil] at hlength
              exact ⟨List.length_eq_zero_iff.mp (by omega), List.length_eq_zero_iff.mp (by omega)⟩
            exact ⟨[], s, rfl, rfl, (hmid ▸ hback).symm⟩

/-- A zero octet ends a text that has no zero character. -/
lemma untilNul_ofString {s : String} (hs : '\x00' ∉ s.toList) (rest : Bytes) :
    (ofString s ++ 0 :: rest).untilNul = ofString s := by
  have hzero : (0 : UInt8) ∉ ofString s := notMem_encode (c := '\x00') (by decide) hs
  have hrest : (0 :: rest : Bytes).takeWhile (· != 0) = [] := List.takeWhile_cons_of_neg (by simp)
  rw [Bytes.untilNul, List.takeWhile_append_of_pos, hrest, List.append_nil]
  intro b hb
  simpa using fun hb0 : b = 0 => hzero (hb0 ▸ hb)

/-- A zero octet, or the first zero character, ends a text. -/
lemma untilNul_ofString_append_zero (s : String) :
    (ofString s ++ [0]).untilNul =
      ofString (String.ofList (s.toList.takeWhile (· != '\x00'))) := by
  set before := s.toList.takeWhile (· != '\x00') with hbefore
  have hnul : '\x00' ∉ (String.ofList before).toList := by
    rw [String.toList_ofList]
    intro h
    simpa using List.all_eq_true.mp List.all_takeWhile _ h
  have hoctets : ofString (String.ofList before) = encode before := by
    rw [ofString, String.toList_ofList]
  have hsplit : s.toList = before ++ s.toList.dropWhile (· != '\x00') :=
    List.takeWhile_append_dropWhile.symm
  cases hafter : s.toList.dropWhile (· != '\x00') with
  | nil =>
      rw [hafter, List.append_nil] at hsplit
      rw [ofString, hsplit, ← hoctets]
      exact untilNul_ofString hnul []
  | cons c rest =>
      have hc : c = '\x00' := by
        have h := List.head_dropWhile_not (· != '\x00') (l := s.toList) (by simp [hafter])
        simpa only [hafter, List.head_cons, bne_eq_false_iff_eq] using h
      have hall : ofString s ++ [0] = encode before ++ 0 :: (encode rest ++ [0]) := by
        rw [ofString, hsplit, hafter, hc, encode, List.flatMap_append, List.append_assoc]
        rfl
      rw [hall, ← hoctets]
      exact untilNul_ofString hnul _

end WireGuardControl.Text.Utf8

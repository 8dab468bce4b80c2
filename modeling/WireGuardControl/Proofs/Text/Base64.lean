import Mathlib.Tactic
import WireGuardControl.Proofs.Failing
import WireGuardControl.Proofs.Text.Utf8
import WireGuardControl.Text.Base64
/-!
Octets and the one text that spells them in base 64.

* `value?_letter`, `letter_of_value?`: letters and values below sixty-four belong together one by
  one.
* `of_readTail`, `exists_readTail`: the last group holds letters and then padding.
* `join?`: the octets of the values in the last group. It is written with these values and no
  others (`encodeBytes_of_join?`), and read in three steps (`lastGroup_eq_ok_iff`).
* `eq_encodeBytes_of_decodeGroups`, `decodeGroups_encodeBytes`: letters are read as some octets
  exactly if these are written so.
* `decode_encode_eq_ok_iff`: a text is read as some octets exactly if it is the one that is written
  for them; no other padding and no other last letter is accepted.
-/

namespace WireGuardControl.Text.Base64

/-! ### The alphabet -/

lemma value?_letter {v : ℕ} (h : v < 64) : value? (letter v) = some v := by
  interval_cases v <;> rfl

lemma letter_of_value? {c : UInt8} {v : ℕ} (h : value? c = some v) : v < 64 ∧ letter v = c := by
  have hc := c.toNat_lt
  simp only [value?] at h
  have hv : v < 64 ∧ (if v < 26 then 65 + v else if v < 52 then 71 + v else if v < 62 then v - 4
      else if v = 62 then 43 else 47) = c.toNat := by
    split_ifs at h <;> obtain rfl := Option.some.inj h <;> split_ifs <;> omega
  exact ⟨hv.1, Utf8.ofNat_eq_of_toNat hv.2⟩

/-- The padding mark is no letter. -/
lemma letter_ne_pad {v : ℕ} (h : v < 64) : letter v ≠ pad := by
  intro hpad
  have hvalue := value?_letter h
  rw [hpad] at hvalue
  cases hvalue

/-- Values of letters. -/
def Values (vs : List ℕ) : Prop := ∀ v ∈ vs, v < 64

/-! ### Reading the last group -/

lemma readTail_cons_letter (start index : ℕ) {t : Tail} (ht : t.firstPad = none) {v : ℕ}
    (hv : v < 64) (rest : Bytes) :
    readTail start index t (letter v :: rest) =
      readTail start (index + 1) { t with values := t.values ++ [v], lastLetter := letter v }
        rest := by
  rw [readTail, if_neg (letter_ne_pad hv), ht, value?_letter hv]

lemma readTail_cons_pad (start : ℕ) {index : ℕ} (hindex : 2 ≤ index) (t : Tail) (rest : Bytes) :
    readTail start index t (pad :: rest) =
      readTail start (index + 1)
        { t with firstPad := some (t.firstPad.getD (start + index)), pads := t.pads + 1 } rest := by
  rw [readTail, if_pos rfl, if_neg (by omega)]

/-- Behind padding there is only padding. -/
lemma of_readTail_padded {start index : ℕ} {t t' : Tail} {first : ℕ} (ht : t.firstPad = some first)
    {s : Bytes} (h : readTail start index t s = .ok t') :
    ∃ k, s = List.replicate k pad ∧ t'.values = t.values ∧ t'.pads = t.pads + k := by
  induction s generalizing index t first with
  | nil =>
      obtain rfl := Except.ok.inj h
      exact ⟨0, rfl, rfl, rfl⟩
  | cons c rest ih =>
      rw [readTail, ht] at h
      split_ifs at h with hpad hindex
      obtain ⟨k, rfl, hvalues, hpads⟩ := ih rfl h
      refine ⟨k + 1, ?_, hvalues, ?_⟩
      · rw [hpad, List.replicate_succ]
      · rw [hpads]
        exact Nat.succ_add_eq_add_succ _ _

/-- **A group that is read** consists of letters and, behind them, padding. -/
lemma of_readTail {start index : ℕ} {t t' : Tail} (ht : t.firstPad = none) {s : Bytes}
    (h : readTail start index t s = .ok t') :
    ∃ vs k, Values vs ∧ s = vs.map letter ++ List.replicate k pad ∧
      t'.values = t.values ++ vs ∧ t'.pads = t.pads + k := by
  induction s generalizing index t with
  | nil =>
      obtain rfl := Except.ok.inj h
      exact ⟨[], 0, by simp [Values], rfl, by simp, rfl⟩
  | cons c rest ih =>
      rw [readTail, ht] at h
      split_ifs at h with hpad hindex
      · obtain ⟨k, rfl, hvalues, hpads⟩ := of_readTail_padded rfl h
        refine ⟨[], k + 1, by simp [Values], ?_, by simpa using hvalues, ?_⟩
        · rw [hpad, List.replicate_succ]
          rfl
        · rw [hpads]
          exact Nat.succ_add_eq_add_succ _ _
      · cases hc : value? c with
        | none =>
            rw [hc] at h
            cases h
        | some v =>
            simp only [hc] at h
            obtain ⟨hv, rfl⟩ := letter_of_value? hc
            obtain ⟨vs, k, hvs, rfl, hvalues, hpads⟩ := ih rfl h
            refine ⟨v :: vs, k, List.forall_mem_cons.mpr ⟨hv, hvs⟩, rfl, ?_, hpads⟩
            rw [hvalues, List.append_assoc]
            rfl

/-- Letters are read as their values. -/
lemma readTail_letters (start index : ℕ) {t : Tail} (ht : t.firstPad = none) {vs : List ℕ}
    (hvs : Values vs) (rest : Bytes) :
    ∃ t', t'.values = t.values ++ vs ∧ t'.pads = t.pads ∧
      readTail start index t (vs.map letter ++ rest) =
        readTail start (index + vs.length) t' rest := by
  induction vs generalizing index t with
  | nil => exact ⟨t, (List.append_nil _).symm, rfl, rfl⟩
  | cons v vs ih =>
      obtain ⟨hv, hvs⟩ := List.forall_mem_cons.mp hvs
      obtain ⟨t', hvalues, hpads, hread⟩ :=
        ih (index + 1) (t := { t with values := t.values ++ [v], lastLetter := letter v }) ht hvs
      refine ⟨t', ?_, hpads, ?_⟩
      · rw [hvalues, List.append_assoc]
        rfl
      · rw [List.map_cons, List.cons_append, readTail_cons_letter _ _ ht hv, hread,
          List.length_cons, Nat.add_right_comm, Nat.add_assoc]

/-- Padding is counted behind two letters. -/
lemma readTail_pads (start : ℕ) {index k : ℕ} (h : k = 0 ∨ 2 ≤ index) (t : Tail) :
    ∃ t', t'.values = t.values ∧ t'.pads = t.pads + k ∧
      readTail start index t (List.replicate k pad) = .ok t' := by
  induction k generalizing index t with
  | zero => exact ⟨t, rfl, rfl, rfl⟩
  | succ k ih =>
      have hindex : 2 ≤ index := h.resolve_left (Nat.succ_ne_zero k)
      rw [List.replicate_succ, readTail_cons_pad start hindex]
      obtain ⟨t', hvalues, hpads, hread⟩ := ih (.inr (by omega) : k = 0 ∨ 2 ≤ index + 1)
        { t with firstPad := some (t.firstPad.getD (start + index)), pads := t.pads + 1 }
      exact ⟨t', hvalues, hpads.trans (Nat.succ_add_eq_add_succ _ _), hread⟩

/-- **A group of letters and padding** is read, if it has two letters or no padding. -/
lemma exists_readTail (start : ℕ) {vs : List ℕ} (hvs : Values vs) {k : ℕ}
    (h : k = 0 ∨ 2 ≤ vs.length) :
    ∃ t, readTail start 0 {} (vs.map letter ++ List.replicate k pad) = .ok t ∧
      t.values = vs ∧ t.pads = k := by
  obtain ⟨t, hvalues, hpads, hletters⟩ :=
    readTail_letters start 0 (t := {}) rfl hvs (List.replicate k pad)
  rw [Nat.zero_add] at hletters
  obtain ⟨t', hvalues', hpads', hpadding⟩ := readTail_pads start h t
  refine ⟨t', hletters.trans hpadding, hvalues'.trans hvalues, ?_⟩
  rw [hpads', hpads]
  exact Nat.zero_add k

/-! ### Octets of a group -/

/-- The octet that begins with the value `v` and ends with the first bits of `w`. -/
def first (v w : ℕ) : UInt8 := UInt8.ofNat (4 * v + w / 16)

/-- The octet between the values `w` and `x`. -/
def second (w x : ℕ) : UInt8 := UInt8.ofNat (w % 16 * 16 + x / 4)

/-- The octet that ends with the value `y`. -/
def third (x y : ℕ) : UInt8 := UInt8.ofNat (x % 4 * 64 + y)

lemma toNat_first {v w : ℕ} (hv : v < 64) (hw : w < 64) : (first v w).toNat = 4 * v + w / 16 :=
  Utf8.toNat_ofNat_of_lt (by omega)

lemma toNat_second {w x : ℕ} (hx : x < 64) : (second w x).toNat = w % 16 * 16 + x / 4 :=
  Utf8.toNat_ofNat_of_lt (by omega)

lemma toNat_third {x y : ℕ} (hy : y < 64) : (third x y).toNat = x % 4 * 64 + y :=
  Utf8.toNat_ofNat_of_lt (by omega)

section Octets

variable {v w x y : ℕ}

lemma first_div (hv : v < 64) (hw : w < 64) : (first v w).toNat / 4 = v := by
  rw [toNat_first hv hw]
  omega

lemma first_second (hv : v < 64) (hw : w < 64) (hx : x < 64) :
    (first v w).toNat % 4 * 16 + (second w x).toNat / 16 = w := by
  rw [toNat_first hv hw, toNat_second hx]
  omega

lemma second_third (hx : x < 64) (hy : y < 64) :
    (second w x).toNat % 16 * 4 + (third x y).toNat / 64 = x := by
  rw [toNat_second hx, toNat_third hy]
  omega

lemma third_mod (hy : y < 64) : (third x y).toNat % 64 = y := by
  rw [toNat_third hy]
  omega

/-- A value of which only the first two bits belong to an octet. -/
lemma first_rest (hv : v < 64) (hw : w < 64) (hrest : w % 16 = 0) :
    (first v w).toNat % 4 * 16 = w := by
  rw [toNat_first hv hw]
  omega

/-- A value of which only the first four bits belong to an octet. -/
lemma second_rest (hx : x < 64) (hrest : x % 4 = 0) : (second w x).toNat % 16 * 4 = x := by
  rw [toNat_second hx]
  omega

end Octets

/-- An octet begins with its first six bits, whatever stands behind the other two. -/
lemma first_parts (a : UInt8) {r : ℕ} (hr : r < 16) :
    first (a.toNat / 4) (a.toNat % 4 * 16 + r) = a := by
  apply Utf8.ofNat_eq_of_toNat
  omega

/-- An octet is in two halves, whatever stands before and behind them. -/
lemma second_parts (q : ℕ) (b : UInt8) {r : ℕ} (hr : r < 4) :
    second (q * 16 + b.toNat / 16) (b.toNat % 16 * 4 + r) = b := by
  have hb := b.toNat_lt
  apply Utf8.ofNat_eq_of_toNat
  omega

/-- An octet ends with its last six bits, whatever stands before the other two. -/
lemma third_parts (q : ℕ) (c : UInt8) : third (q * 4 + c.toNat / 64) (c.toNat % 64) = c := by
  have hc := c.toNat_lt
  apply Utf8.ofNat_eq_of_toNat
  omega

/-- Three octets are those of four values. -/
lemma exists_group (a b c : UInt8) : ∃ v w x y, (v < 64 ∧ w < 64 ∧ x < 64 ∧ y < 64) ∧
    first v w = a ∧ second w x = b ∧ third x y = c := by
  have ha := a.toNat_lt
  have hb := b.toNat_lt
  have hc := c.toNat_lt
  exact ⟨a.toNat / 4, a.toNat % 4 * 16 + b.toNat / 16, b.toNat % 16 * 4 + c.toNat / 64,
    c.toNat % 64, ⟨by omega, by omega, by omega, by omega⟩, first_parts a (by omega),
    second_parts (a.toNat % 4) b (by omega), third_parts (b.toNat % 16) c⟩

/-! ### The last group -/

/-- The octets of the values in a last group, if it has as many as some octets have and the last of
them has no bits beyond the last octet. -/
def join? : List ℕ → Option Bytes
  | [] => some []
  | [v, w] => if w % 16 = 0 then some [first v w] else none
  | [v, w, x] => if x % 4 = 0 then some [first v w, second w x] else none
  | [v, w, x, y] => some [first v w, second w x, third x y]
  | _ => none

/-- The last group is read in three steps: its letters and padding, their numbers, and the
octets. -/
lemma lastGroup_eq_ok_iff {start : ℕ} {t : Tail} {s b : Bytes}
    (ht : readTail start 0 {} s = .ok t) (hlen : t.values.length ≤ 4) :
    lastGroup start s = .ok b ↔ (s = [] ∨ 2 ≤ t.values.length) ∧
      (t.pads + t.values.length) % 4 = 0 ∧ join? t.values = some b := by
  obtain ⟨vs, lastLetter, firstPad, pads⟩ := t
  simp only [lastGroup, ht, bind, Except.bind, pure, Except.pure, throw, throwThe,
    MonadExceptOf.throw]
  have hcount : ¬ (s ≠ [] ∧ vs.length < 2) ↔ s = [] ∨ 2 ≤ vs.length := by
    rw [not_and_or, not_not, not_lt]
  split_ifs with hshort hwhole
  · have hnone := mt hcount.mpr (not_not.mpr hshort)
    simp [hnone]
  · simp [hwhole]
  · have hgroup := hcount.mp hshort
    rw [not_not] at hwhole
    simp only [hgroup, hwhole, true_and]
    rcases vs with _ | ⟨v, _ | ⟨w, _ | ⟨x, _ | ⟨y, _ | ⟨z, more⟩⟩⟩⟩⟩
    · simp [join?]
    · obtain rfl : s = [] := hgroup.resolve_right (by simp)
      cases ht
    · simp only [join?, first]
      split_ifs <;> simp_all
    · simp only [join?, first, second]
      split_ifs <;> simp_all
    · simp [join?, first, second, third]
    · simp only [List.length_cons] at hlen
      omega

/-- The octets of the values in a last group are written with these values. -/
lemma encodeBytes_of_join? {vs : List ℕ} (hvs : Values vs) {b : Bytes} (h : join? vs = some b) :
    encodeBytes b = vs.map letter ++ List.replicate (Bytes.padding vs.length) pad := by
  rcases vs with _ | ⟨v, _ | ⟨w, _ | ⟨x, _ | ⟨y, _ | ⟨z, more⟩⟩⟩⟩⟩
  · obtain rfl := Option.some.inj h
    rfl
  · cases h
  · simp only [join?, Option.ite_none_right_eq_some] at h
    obtain ⟨hrest, hb⟩ := h
    obtain rfl := Option.some.inj hb
    simp only [Values, List.forall_mem_cons] at hvs
    obtain ⟨hv, hw, -⟩ := hvs
    rw [encodeBytes, first_div hv hw, first_rest hv hw hrest]
    rfl
  · simp only [join?, Option.ite_none_right_eq_some] at h
    obtain ⟨hrest, hb⟩ := h
    obtain rfl := Option.some.inj hb
    simp only [Values, List.forall_mem_cons] at hvs
    obtain ⟨hv, hw, hx, -⟩ := hvs
    rw [encodeBytes, first_div hv hw, first_second hv hw hx, second_rest hx hrest]
    rfl
  · obtain rfl := Option.some.inj h
    simp only [Values, List.forall_mem_cons] at hvs
    obtain ⟨hv, hw, hx, hy, -⟩ := hvs
    rw [encodeBytes, first_div hv hw, first_second hv hw hx, second_third hx hy, third_mod hy,
      encodeBytes]
    simp [Bytes.padding]
  · cases h

/-- **A last group that is read** is written for its octets. -/
lemma eq_encodeBytes_of_lastGroup {start : ℕ} {s b : Bytes} (hs : s.length ≤ 4)
    (h : lastGroup start s = .ok b) : s = encodeBytes b := by
  cases ht : readTail start 0 {} s with
  | error fault =>
      rw [lastGroup, ht] at h
      cases h
  | ok t =>
      obtain ⟨vs, k, hvs, hletters, hvalues, hpads⟩ := of_readTail rfl ht
      rw [List.nil_append] at hvalues
      rw [zero_add] at hpads
      have hlen : k + vs.length = s.length := by
        rw [hletters, List.length_append, List.length_map, List.length_replicate]
        omega
      obtain ⟨hcount, hwhole, hjoin⟩ := (lastGroup_eq_ok_iff ht (by rw [hvalues]; omega)).mp h
      rw [hvalues] at hcount hwhole hjoin
      rw [hpads] at hwhole
      have hk : k = Bytes.padding vs.length := by
        rcases hcount with rfl | hcount
        · rw [List.length_nil] at hlen
          obtain ⟨hzero, hnone⟩ := Nat.add_eq_zero_iff.mp hlen
          rw [hzero, hnone]
          rfl
        · simp only [Bytes.padding]
          omega
      rw [hletters, encodeBytes_of_join? hvs hjoin, ← hk]

/-- At most three octets are those of some values. -/
lemma exists_join? {b : Bytes} (hb : b.length ≤ 3) :
    ∃ vs, Values vs ∧ (vs = [] ∨ 2 ≤ vs.length) ∧ vs.length ≤ 4 ∧ join? vs = some b := by
  rcases b with _ | ⟨a, _ | ⟨b, _ | ⟨c, _ | ⟨d, more⟩⟩⟩⟩
  · exact ⟨[], by simp [Values], .inl rfl, by simp, rfl⟩
  · have ha := a.toNat_lt
    have hfirst := first_parts a (r := 0) (by omega)
    refine ⟨[a.toNat / 4, a.toNat % 4 * 16], ?_, .inr (by simp), by simp, ?_⟩
    · simp only [Values, List.forall_mem_cons]
      refine ⟨by omega, by omega, by simp⟩
    · rw [join?, if_pos (by omega), ← Nat.add_zero (a.toNat % 4 * 16), hfirst]
  · have ha := a.toNat_lt
    have hb' := b.toNat_lt
    have hfirst := first_parts a (r := b.toNat / 16) (by omega)
    have hsecond := second_parts (a.toNat % 4) b (r := 0) (by omega)
    refine ⟨[a.toNat / 4, a.toNat % 4 * 16 + b.toNat / 16, b.toNat % 16 * 4], ?_, .inr (by simp),
      by simp, ?_⟩
    · simp only [Values, List.forall_mem_cons]
      refine ⟨by omega, by omega, by omega, by simp⟩
    · rw [join?, if_pos (by omega), ← Nat.add_zero (b.toNat % 16 * 4), hfirst, hsecond]
  · obtain ⟨v, w, x, y, hvs, rfl, rfl, rfl⟩ := exists_group a b c
    refine ⟨[v, w, x, y], ?_, .inr (by simp), by simp, rfl⟩
    simpa [Values] using hvs
  · simp only [List.length_cons] at hb
    omega

/-- **The last group of some octets** is read as these. -/
lemma lastGroup_encodeBytes (start : ℕ) {b : Bytes} (hb : b.length ≤ 3) :
    lastGroup start (encodeBytes b) = .ok b := by
  obtain ⟨vs, hvs, hcount, hlen, hjoin⟩ := exists_join? hb
  have hencode := encodeBytes_of_join? hvs hjoin
  have hpadding : Bytes.padding vs.length = 0 ∨ 2 ≤ vs.length := by
    rcases hcount with rfl | hcount
    · exact .inl rfl
    · exact .inr hcount
  obtain ⟨t, ht, hvalues, hpads⟩ := exists_readTail start hvs hpadding
  rw [← hencode] at ht
  refine (lastGroup_eq_ok_iff ht (by rw [hvalues]; exact hlen)).mpr ?_
  rw [hvalues, hpads]
  refine ⟨?_, ?_, hjoin⟩
  · rcases hcount with rfl | hcount
    · exact .inl hencode
    · exact .inr hcount
  · simp only [Bytes.padding]
    omega

/-! ### Groups in front of the last -/

lemma encodeBytes_ne_nil {b : Bytes} (hb : b ≠ []) : encodeBytes b ≠ [] := by
  rcases b with _ | ⟨a, _ | ⟨b, _ | ⟨c, more⟩⟩⟩
  · exact absurd rfl hb
  · simp [encodeBytes]
  · simp [encodeBytes]
  · simp [encodeBytes]

/-- Four letters are those of three octets. -/
lemma encodeBytes_group {v w x y : ℕ} (hv : v < 64) (hw : w < 64) (hx : x < 64) (hy : y < 64)
    (rest : Bytes) :
    encodeBytes (first v w :: second w x :: third x y :: rest) =
      letter v :: letter w :: letter x :: letter y :: encodeBytes rest := by
  rw [encodeBytes, first_div hv hw, first_second hv hw hx, second_third hx hy, third_mod hy]

/-- **Letters that are read** are those that are written for their octets. -/
lemma eq_encodeBytes_of_decodeGroups {start : ℕ} {s b : Bytes} (h : decodeGroups start s = .ok b) :
    s = encodeBytes b := by
  fun_induction decodeGroups start s generalizing b with
  | case1 | case2 | case3 | case4 => cases h
  | case5 start _ _ _ _ e rest v w x y hd hc hb ha ih =>
      obtain ⟨hv, rfl⟩ := letter_of_value? ha
      obtain ⟨hw, rfl⟩ := letter_of_value? hb
      obtain ⟨hx, rfl⟩ := letter_of_value? hc
      obtain ⟨hy, rfl⟩ := letter_of_value? hd
      obtain ⟨later, hlater, rfl⟩ := Except.map_eq_ok_iff.mp h
      rw [ih hlater]
      exact (encodeBytes_group hv hw hx hy later).symm
  | case6 start s hshort =>
      refine eq_encodeBytes_of_lastGroup ?_ h
      rcases s with _ | ⟨a, _ | ⟨b, _ | ⟨c, _ | ⟨d, _ | ⟨e, rest⟩⟩⟩⟩⟩
      · simp
      · simp
      · simp
      · simp
      · simp
      · exact (hshort a b c d e rest rfl).elim

/-- Four letters in front of others are read as three octets. -/
lemma decodeGroups_group (start : ℕ) {v w x y : ℕ} (hv : v < 64) (hw : w < 64) (hx : x < 64)
    (hy : y < 64) {rest : Bytes} (hrest : rest ≠ []) :
    decodeGroups start (letter v :: letter w :: letter x :: letter y :: rest) =
      (decodeGroups (start + 4) rest).map fun bytes =>
        first v w :: second w x :: third x y :: bytes := by
  obtain ⟨e, more, rfl⟩ := List.exists_cons_of_ne_nil hrest
  rw [decodeGroups]
  simp only [value?_letter hv, value?_letter hw, value?_letter hx, value?_letter hy]
  rfl

/-- **The letters of some octets** are read as these. -/
lemma decodeGroups_encodeBytes (start : ℕ) (b : Bytes) :
    decodeGroups start (encodeBytes b) = .ok b := by
  induction b using encodeBytes.induct generalizing start with
  | case1 => exact lastGroup_encodeBytes start (by simp)
  | case2 a => exact lastGroup_encodeBytes start (b := [a]) (by simp)
  | case3 a b => exact lastGroup_encodeBytes start (b := [a, b]) (by simp)
  | case4 a b c rest ih =>
      by_cases hrest : rest = []
      · rw [hrest]
        exact lastGroup_encodeBytes start (b := [a, b, c]) (by simp)
      · obtain ⟨v, w, x, y, ⟨hv, hw, hx, hy⟩, rfl, rfl, rfl⟩ := exists_group a b c
        rw [encodeBytes_group hv hw hx hy, decodeGroups_group start hv hw hx hy
          (encodeBytes_ne_nil hrest), ih]
        rfl

/-! ### Texts -/

lemma length_encodeBytes_mod (b : Bytes) : (encodeBytes b).length % 4 = 0 := by
  induction b using encodeBytes.induct with
  | case1 => rfl
  | case2 a => simp [encodeBytes]
  | case3 a b => simp [encodeBytes]
  | case4 a b c rest ih =>
      simp only [encodeBytes, List.length_cons]
      omega

/-- **A row of letters is read as some octets exactly if it is written for them.** -/
theorem decode_eq_ok_iff {s b : Bytes} : decode s = .ok b ↔ s = encodeBytes b := by
  rw [decode.eq_def]
  cases hlast : s.getLast? with
  | none =>
      obtain rfl := List.getLast?_eq_none_iff.mp hlast
      simp only [Except.ok.injEq]
      constructor
      · rintro rfl
        rfl
      · intro h
        by_contra hb
        exact encodeBytes_ne_nil (Ne.symm hb) h.symm
  | some c =>
      simp only
      constructor
      · intro h
        split_ifs at h
        exact eq_encodeBytes_of_decodeGroups h
      · rintro rfl
        rw [length_encodeBytes_mod, if_neg (by simp)]
        exact decodeGroups_encodeBytes 0 b

/-- Whether an octet is a character of seven bits behind the blank and the control characters. -/
def Visible (c : UInt8) : Prop := 0x20 < c.toNat ∧ c.toNat < 0x80

lemma visible_letter (v : ℕ) : Visible (letter v) := by
  rw [Visible, letter, Utf8.toNat_ofNat_of_lt]
  all_goals split_ifs <;> omega

/-- Letters and padding are visible. -/
lemma visible_of_mem_encodeBytes {b : Bytes} : ∀ c ∈ encodeBytes b, Visible c := by
  have hpad : Visible pad := by simp [Visible, pad]
  induction b using encodeBytes.induct with
  | case1 => simp [encodeBytes]
  | case2 a => simp [encodeBytes, visible_letter, hpad]
  | case3 a b => simp [encodeBytes, visible_letter, hpad]
  | case4 a b c rest ih =>
      simp only [encodeBytes, List.forall_mem_cons, visible_letter, true_and]
      exact ih

lemma toNat_char {c : UInt8} (h : Visible c) : (Char.ofNat c.toNat).toNat = c.toNat :=
  Utf8.toNat_char_ofNat (.inl (h.2.trans (by omega)))

lemma encode_encode (b : Bytes) : Utf8.encode (encode b) = encodeBytes b := by
  have hchars : ∀ {s : Bytes}, (∀ c ∈ s, Visible c) →
      Utf8.encode (s.map fun c => Char.ofNat c.toNat) = s := by
    intro s hs
    induction s with
    | nil => rfl
    | cons c s ih =>
        obtain ⟨hc, hs⟩ := List.forall_mem_cons.mp hs
        have hchar := toNat_char hc
        rw [List.map_cons, Utf8.encode_cons, Utf8.encodeChar_of_lt (by rw [hchar]; exact hc.2),
          hchar, UInt8.ofNat_toNat, ih hs]
        rfl
  exact hchars visible_of_mem_encodeBytes

/-- A character of a written text is visible. -/
lemma toNat_lt_of_mem_encode {b : Bytes} {c : Char} (h : c ∈ encode b) :
    0x20 < c.toNat ∧ c.toNat < 0x80 := by
  obtain ⟨x, hx, rfl⟩ := List.mem_map.mp h
  have hvisible := visible_of_mem_encodeBytes x hx
  rw [toNat_char hvisible]
  exact hvisible

/-- **A text is read as some octets exactly if it is written for them**: in base 64 every row of
octets has one text. -/
theorem decode_encode_eq_ok_iff {s : List Char} {b : Bytes} :
    decode (Utf8.encode s) = .ok b ↔ s = encode b := by
  rw [decode_eq_ok_iff, ← encode_encode]
  constructor
  · intro h
    exact Except.ok.inj ((Utf8.decode_encode s).symm.trans (h ▸ Utf8.decode_encode (encode b)))
  · rintro rfl
    rfl

end WireGuardControl.Text.Base64

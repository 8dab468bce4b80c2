import Mathlib.Tactic
import WireGuardControl.Net.Address
import WireGuardControl.Proofs.Text.Decimal
import WireGuardControl.Proofs.Text.Hex
/-!
Addresses read back from their text, under either grammar and whatever text follows that cannot
belong to an address.

* `Address.readNumber_append`: a run of digits in front of a text that does not go on with one is
  read as the number that it spells.
* `IPv4.read_chars`: an IPv4 address reads back.
* `IPv6.readGroups_groupsChars`: groups read back, up to where the text does not go on with one;
  `IPv6.longestZeros_spec` is what a double colon leaves out.
* `IPv6.read_chars`: an IPv6 address reads back, with a double colon, in its mapped form, or with
  all of its groups.
* `IpAddress.mem_chars`: the characters of an address.
-/

namespace WireGuardControl

open Text

/-! ### Numbers -/

namespace Address

/-- A text that does not begin with a digit. -/
def Stops (base : ℕ) (s : List Char) : Prop := ∀ c, s.head? = some c → digitValue? base c = none

lemma Stops.cons {base : ℕ} {c : Char} (h : digitValue? base c = none) (s : List Char) :
    Stops base (c :: s) := by
  intro x hx
  rw [← Option.some.inj hx]
  exact h

lemma stops_nil (base : ℕ) : Stops base [] := by
  intro c hc
  cases hc

lemma takeWhile_append_of_stops {base : ℕ} {digits rest : List Char}
    (hdigits : ∀ c ∈ digits, (digitValue? base c).isSome) (hrest : Stops base rest) :
    (digits ++ rest).takeWhile (fun c => (digitValue? base c).isSome) = digits := by
  rw [List.takeWhile_append_of_pos hdigits]
  cases rest with
  | nil => simp
  | cons c s => rw [List.takeWhile_cons_of_neg (by simp [hrest c rfl]), List.append_nil]

lemma dropWhile_append_of_stops {base : ℕ} {digits rest : List Char}
    (hdigits : ∀ c ∈ digits, (digitValue? base c).isSome) (hrest : Stops base rest) :
    (digits ++ rest).dropWhile (fun c => (digitValue? base c).isSome) = rest := by
  rw [List.dropWhile_append_of_pos hdigits]
  cases rest with
  | nil => rfl
  | cons c s => rw [List.dropWhile_cons_of_neg (by simp [hrest c rfl])]

/-- **Digits are read as the number that they spell**, if its form allows them. -/
lemma readNumber_append {f : NumberForm} {digits rest : List Char}
    (hdigits : ∀ c ∈ digits, (digitValue? f.base c).isSome) (hne : digits ≠ [])
    (hrest : Stops f.base rest) (hlen : ∀ most, f.maxDigits = some most → digits.length ≤ most)
    (hzero : digits.head? = some '0' → digits.length ≤ 1 ∨ f.leadingZeros = true)
    (hlimit : digitsValue f.base 0 digits ≤ f.limit) :
    readNumber f (digits ++ rest) = some (digitsValue f.base 0 digits, rest) := by
  have hany : (f.maxDigits.any fun most => decide (most < digits.length)) = false := by
    cases hmax : f.maxDigits with
    | none => rfl
    | some most => simpa using hlen most hmax
  have hlead : ¬ (f.leadingZeros = false ∧ digits.head? = some '0' ∧ 1 < digits.length) := by
    rintro ⟨hfalse, hhead, hlong⟩
    rcases hzero hhead with hshort | htrue
    · omega
    · rw [htrue] at hfalse
      cases hfalse
  simp only [readNumber, takeWhile_append_of_stops hdigits hrest,
    dropWhile_append_of_stops hdigits hrest]
  rw [if_neg (by simpa using hne), if_neg (by simp [hany]), if_neg hlead, if_neg (by omega)]

/-- A text that does not begin with a digit is no number. -/
lemma readNumber_of_stops {f : NumberForm} {s : List Char} (h : Stops f.base s) :
    readNumber f s = none := by
  have htake : s.takeWhile (fun c => (digitValue? f.base c).isSome) = [] :=
    @takeWhile_append_of_stops f.base [] s (by simp) h
  simp only [readNumber, htake]
  rfl

/-- Behind a number stands what follows its digits. -/
lemma rest_of_readNumber {f : NumberForm} {s rest : List Char} {n : ℕ}
    (h : readNumber f s = some (n, rest)) :
    rest = s.dropWhile fun c => (digitValue? f.base c).isSome := by
  simp only [readNumber] at h
  split_ifs at h
  exact (Prod.mk.inj (Option.some.inj h)).2.symm

/-! ### Numbers in base ten -/

lemma digitValue?_digit {d : ℕ} (h : d < 10) : digitValue? 10 (Decimal.digit d) = some d := by
  interval_cases d <;> rfl

lemma digitsValue_append (base n : ℕ) (xs ys : List Char) :
    digitsValue base n (xs ++ ys) = digitsValue base (digitsValue base n xs) ys :=
  List.foldl_append

lemma digitsValue_ofNat (n : ℕ) : digitsValue 10 0 (Decimal.ofNat n) = n := by
  induction n using Decimal.ofNat.induct with
  | case1 n hn =>
      rw [Decimal.ofNat_of_lt hn, digitsValue, List.foldl_cons, digitValue?_digit hn]
      simp
  | case2 n hn ih =>
      have hsum : n / 10 * 10 + n % 10 = n := by omega
      rw [Decimal.ofNat_of_le (by omega), digitsValue_append, ih, digitsValue, List.foldl_cons,
        digitValue?_digit (by omega)]
      exact hsum

/-- A number in base ten reads back, if its form has room for it. -/
lemma readNumber_ofNat {most : Option ℕ} {limit n : ℕ} (leading : Bool) {rest : List Char}
    (hlimit : n ≤ limit) (hlen : ∀ m, most = some m → (Decimal.ofNat n).length ≤ m)
    (hrest : Stops 10 rest) :
    readNumber ⟨10, most, limit, leading⟩ (Decimal.ofNat n ++ rest) = some (n, rest) := by
  have hdigits : ∀ c ∈ Decimal.ofNat n, (digitValue? 10 c).isSome := by
    intro c hc
    obtain ⟨d, hd, rfl⟩ := Decimal.mem_ofNat hc
    rw [digitValue?_digit hd]
    rfl
  have hzero : (Decimal.ofNat n).head? = some '0' →
      (Decimal.ofNat n).length ≤ 1 ∨ leading = true := by
    intro hhead
    have hn : n = 0 := by
      by_contra hne
      exact Decimal.head?_ofNat_ne (Nat.pos_of_ne_zero hne) hhead
    left
    rw [hn, Decimal.ofNat_of_lt (by omega)]
    rfl
  have hvalue := digitsValue_ofNat n
  rw [readNumber_append (f := ⟨10, most, limit, leading⟩) hdigits (Decimal.ofNat_ne_nil n) hrest
    hlen hzero (by rw [hvalue]; exact hlimit), hvalue]

end Address

open Address

/-! ### IPv4 addresses -/

namespace IPv4

/-- An octet reads back. -/
lemma readOctet_ofNat (g : Grammar) (x : UInt8) {rest : List Char} (h : Stops 10 rest) :
    readOctet g (Decimal.ofNat x.toNat ++ rest) = some (x, rest) := by
  have hx := x.toNat_lt
  have hlen : ∀ m, some 3 = some m → (Decimal.ofNat x.toNat).length ≤ m := by
    intro m hm
    rw [← Option.some.inj hm]
    exact Decimal.length_ofNat_le 2 (by omega)
  simp only [readOctet]
  rw [readNumber_ofNat g.leadingZeros (by omega) hlen h]
  simp

lemma stops_dot (s : List Char) : Stops 10 ('.' :: s) := .cons (by decide) s

/-- **An IPv4 address reads back.** -/
lemma read_chars (g : Grammar) (x : IPv4) {rest : List Char} (h : Stops 10 rest) :
    read g (x.chars ++ rest) = some (x, rest) := by
  rw [chars, List.append_assoc, List.append_assoc, List.append_assoc, List.cons_append,
    List.cons_append, List.cons_append, read]
  simp only [readOctet_ofNat g _ (stops_dot _), readOctet_ofNat g _ h, expect, Option.bind_eq_bind,
    Option.bind_some, if_true, pure]

/-- The text of an IPv4 address consists of digits and dots. -/
lemma mem_chars {x : IPv4} {c : Char} (h : c ∈ x.chars) :
    (∃ d < 16, c = Hex.digit d) ∨ c = '.' := by
  simp only [chars, List.mem_append, List.mem_cons] at h
  rcases h with ((h | h | h) | h | h) | h | h
  · exact .inl (Hex.mem_ofNat h)
  · exact .inr h
  · exact .inl (Hex.mem_ofNat h)
  · exact .inr h
  · exact .inl (Hex.mem_ofNat h)
  · exact .inr h
  · exact .inl (Hex.mem_ofNat h)

/-- A text whose first number is not followed by a dot is no IPv4 address. -/
lemma read_eq_none (g : Grammar) {s : List Char}
    (h : (s.dropWhile fun c => (digitValue? 10 c).isSome).head? ≠ some '.') : read g s = none := by
  cases hoctet : readOctet g s with
  | none => rw [read, hoctet]; rfl
  | some r =>
      obtain ⟨n, hn, hr⟩ := Option.map_eq_some_iff.mp hoctet
      have hrest : r.2 = s.dropWhile fun c => (digitValue? 10 c).isSome := by
        rw [← hr]
        exact rest_of_readNumber hn
      have hexpect : expect '.' r.2 = none := by
        rw [hrest]
        cases hdrop : s.dropWhile fun c => (digitValue? 10 c).isSome with
        | nil => rfl
        | cons c rest =>
            rw [hdrop] at h
            rw [expect, if_neg fun hc => h (congrArg some hc)]
      rw [read, hoctet]
      simp [hexpect]

end IPv4

/-! ### Groups -/

namespace IPv6

lemma digitValue?_hexDigit {d : ℕ} (h : d < 16) : digitValue? 16 (Hex.digit d) = some d := by
  interval_cases d <;> rfl

/-- The digits of a group. -/
lemma mem_groupChars {g : UInt16} {c : Char} (h : c ∈ groupChars g) :
    ∃ d < 16, c = Hex.digit d := by
  have hg := g.toNat_lt
  simp only [groupChars] at h
  split_ifs at h with h₁ h₂ h₃ <;> simp only [List.mem_cons, List.not_mem_nil, or_false] at h
  · exact ⟨g.toNat, by omega, h⟩
  · rcases h with h | h
    · exact ⟨_, by omega, h⟩
    · exact ⟨_, by omega, h⟩
  · rcases h with h | h | h
    · exact ⟨_, by omega, h⟩
    · exact ⟨_, by omega, h⟩
    · exact ⟨_, by omega, h⟩
  · rcases h with h | h | h | h
    · exact ⟨_, by omega, h⟩
    · exact ⟨_, by omega, h⟩
    · exact ⟨_, by omega, h⟩
    · exact ⟨_, by omega, h⟩

lemma groupChars_ne_nil (g : UInt16) : groupChars g ≠ [] := by
  simp only [groupChars]
  split_ifs <;> simp

lemma length_groupChars_le (g : UInt16) : (groupChars g).length ≤ 4 := by
  simp only [groupChars]
  split_ifs <;> simp

lemma digitsValue_groupChars (g : UInt16) : digitsValue 16 0 (groupChars g) = g.toNat := by
  have hg := g.toNat_lt
  simp only [groupChars]
  split_ifs with h₁ h₂ h₃ <;>
    simp only [digitsValue, List.foldl_cons, List.foldl_nil]
  · rw [digitValue?_hexDigit (by omega)]
    simp
  · rw [digitValue?_hexDigit (by omega), digitValue?_hexDigit (by omega)]
    simp only [Option.getD_some]
    omega
  · rw [digitValue?_hexDigit (by omega), digitValue?_hexDigit (by omega),
      digitValue?_hexDigit (by omega)]
    simp only [Option.getD_some]
    omega
  · rw [digitValue?_hexDigit (by omega), digitValue?_hexDigit (by omega),
      digitValue?_hexDigit (by omega), digitValue?_hexDigit (by omega)]
    simp only [Option.getD_some]
    omega

/-- A group reads back. -/
lemma readGroup_groupChars (g : UInt16) {rest : List Char} (h : Stops 16 rest) :
    readGroup (groupChars g ++ rest) = some (g, rest) := by
  have hg := g.toNat_lt
  have hdigits : ∀ c ∈ groupChars g, (digitValue? 16 c).isSome := by
    intro c hc
    obtain ⟨d, hd, rfl⟩ := mem_groupChars hc
    rw [digitValue?_hexDigit hd]
    rfl
  have hlen : ∀ m, some 4 = some m → (groupChars g).length ≤ m := by
    intro m hm
    rw [← Option.some.inj hm]
    exact length_groupChars_le g
  have hvalue := digitsValue_groupChars g
  simp only [readGroup]
  rw [readNumber_append (f := ⟨16, some 4, 65535, true⟩) hdigits (groupChars_ne_nil g) h hlen
    (fun _ => .inr rfl) (by rw [hvalue]; show g.toNat ≤ 65535; omega), hvalue]
  simp

lemma readGroup_of_stops {s : List Char} (h : Stops 16 s) : readGroup s = none := by
  simp only [readGroup]
  rw [readNumber_of_stops h]
  rfl

/-- A text that cannot go on with a group, nor turn it into an octet of an IPv4 address. -/
structure EndsGroup (s : List Char) : Prop where
  /-- There is no digit. -/
  stops : Stops 16 s
  /-- There is no dot. -/
  no_dot : s.head? ≠ some '.'

lemma endsGroup_colon (s : List Char) : EndsGroup (':' :: s) :=
  ⟨.cons (by decide) s, by simp⟩

/-- A digit in base ten is one in base sixteen. -/
lemma stops_ten {s : List Char} (h : Stops 16 s) : Stops 10 s := by
  intro c hc
  have h16 := h c hc
  simp only [digitValue?] at h16 ⊢
  split_ifs at h16 ⊢ <;> first | rfl | omega

/-- A text without a dot up to where no group goes on is no IPv4 address. -/
lemma readV4_eq_none (g : Grammar) {front rest : List Char} (hfront : ∀ c ∈ front, c ≠ '.')
    (h : EndsGroup rest) : IPv4.read g (front ++ rest) = none := by
  apply IPv4.read_eq_none
  induction front with
  | nil =>
      have hdrop := @dropWhile_append_of_stops 10 [] rest (by simp) (stops_ten h.stops)
      rw [hdrop]
      exact h.no_dot
  | cons c front ih =>
      rw [List.forall_mem_cons] at hfront
      rw [List.cons_append, List.dropWhile_cons]
      split_ifs
      · exact ih hfront.2
      · exact fun hhead => hfront.1 (Option.some.inj hhead)

lemma ne_dot_of_mem_groupChars {x : UInt16} {c : Char} (h : c ∈ groupChars x) : c ≠ '.' := by
  obtain ⟨d, hd, rfl⟩ := mem_groupChars h
  interval_cases d <;> decide

/-! ### Runs of groups -/

/-- Groups, each behind a colon. -/
def colonGroups (gs : List UInt16) : List Char := gs.flatMap fun g => ':' :: groupChars g

lemma groupsChars_cons (x : UInt16) (gs : List UInt16) :
    groupsChars (x :: gs) = groupChars x ++ colonGroups gs := by
  induction gs generalizing x with
  | nil => simp [groupsChars, colonGroups]
  | cons y gs ih =>
      rw [groupsChars, ih y, colonGroups, colonGroups, List.flatMap_cons]
      · rfl
      · simp

lemma endsGroup_colonGroups_append (gs : List UInt16) {rest : List Char} (h : EndsGroup rest) :
    EndsGroup (colonGroups gs ++ rest) := by
  cases gs with
  | nil => exact h
  | cons x gs => exact endsGroup_colon _

/-- A run of groups with one more in front. -/
def Run.push (x : UInt16) (run : Run) : Run := ⟨x :: run.groups, run.dotted, run.rest⟩

/-- A run of groups with more in front. -/
def Run.pushAll (gs : List UInt16) (run : Run) : Run := gs.foldr Run.push run

/-- The first group of a run reads back. -/
lemma readGroups_first (g : Grammar) (most : ℕ) (x : UInt16) {rest : List Char}
    (h : EndsGroup rest) :
    readGroups g (most + 1) true (groupChars x ++ rest) =
      (readGroups g most false rest).push x := by
  have hv4 := readV4_eq_none g (fun _ => ne_dot_of_mem_groupChars (x := x)) h
  rw [readGroups, if_pos rfl]
  simp only [hv4, ite_self, readGroup_groupChars x h.stops]
  rfl

/-- A later group of a run reads back. -/
lemma readGroups_later (g : Grammar) (most : ℕ) (x : UInt16) {rest : List Char}
    (h : EndsGroup rest) :
    readGroups g (most + 1) false (':' :: (groupChars x ++ rest)) =
      (readGroups g most false rest).push x := by
  have hv4 := readV4_eq_none g (fun _ => ne_dot_of_mem_groupChars (x := x)) h
  rw [readGroups, if_neg (by decide), expect, if_pos rfl]
  simp only [hv4, ite_self, readGroup_groupChars x h.stops]
  rfl

lemma readGroups_colonGroups (g : Grammar) (gs : List UInt16) (most : ℕ) {rest : List Char}
    (h : EndsGroup rest) :
    readGroups g (gs.length + most) false (colonGroups gs ++ rest) =
      (readGroups g most false rest).pushAll gs := by
  induction gs with
  | nil => rw [List.length_nil, Nat.zero_add]; rfl
  | cons x gs ih =>
      have hends := endsGroup_colonGroups_append gs h
      have hlength : (x :: gs).length + most = gs.length + most + 1 := by
        rw [List.length_cons]
        omega
      rw [hlength, colonGroups, List.flatMap_cons, ← colonGroups, List.append_assoc,
        List.cons_append, readGroups_later g _ x hends, ih]
      rfl

/-- Where no group begins, a run is at its end. -/
lemma readGroups_true_of_endsGroup (g : Grammar) (most : ℕ) {s : List Char} (h : EndsGroup s) :
    readGroups g most true s = ⟨[], false, s⟩ := by
  cases most with
  | zero => rfl
  | succ most =>
      have hv4 := @readV4_eq_none g [] s (by simp) h
      rw [List.nil_append] at hv4
      rw [readGroups, if_pos rfl]
      simp only [hv4, ite_self, readGroup_of_stops h.stops]

/-- Where no colon stands, a run is at its end. -/
lemma readGroups_false_of_ne (g : Grammar) (most : ℕ) {s : List Char} (h : s.head? ≠ some ':') :
    readGroups g most false s = ⟨[], false, s⟩ := by
  cases most with
  | zero => rfl
  | succ most =>
      rw [readGroups, if_neg (by decide)]
      cases s with
      | nil => rfl
      | cons c s => rw [expect, if_neg fun hc => h (congrArg some hc)]

/-- At a double colon, a run is at its end. -/
lemma readGroups_false_of_gap (g : Grammar) (most : ℕ) (s : List Char) :
    readGroups g most false (':' :: ':' :: s) = ⟨[], false, ':' :: ':' :: s⟩ := by
  cases most with
  | zero => rfl
  | succ most =>
      have hv4 := @readV4_eq_none g [] (':' :: s) (by simp) (endsGroup_colon s)
      rw [List.nil_append] at hv4
      rw [readGroups, if_neg (by decide), expect, if_pos rfl]
      simp only [hv4, ite_self, readGroup_of_stops (endsGroup_colon s).stops]

lemma pushAll_empty (gs : List UInt16) (rest : List Char) :
    Run.pushAll gs ⟨[], false, rest⟩ = ⟨gs, false, rest⟩ := by
  induction gs with
  | nil => rfl
  | cons x gs ih =>
      change (Run.pushAll gs ⟨[], false, rest⟩).push x = _
      rw [ih]
      rfl

/-- **Groups read back**, up to where the text does not go on with one. -/
lemma readGroups_groupsChars (g : Grammar) {gs : List UInt16} {most : ℕ} (hlen : gs.length ≤ most)
    {rest : List Char} (hends : EndsGroup rest)
    (hstop : gs ≠ [] → ∀ n, readGroups g n false rest = ⟨[], false, rest⟩) :
    readGroups g most true (groupsChars gs ++ rest) = ⟨gs, false, rest⟩ := by
  cases gs with
  | nil => exact readGroups_true_of_endsGroup g most hends
  | cons x gs =>
      obtain ⟨more, rfl⟩ := Nat.exists_eq_add_of_le hlen
      have hlength : (x :: gs).length + more = gs.length + more + 1 := by
        rw [List.length_cons]
        omega
      rw [hlength, groupsChars_cons, List.append_assoc,
        readGroups_first g _ x (endsGroup_colonGroups_append gs hends),
        readGroups_colonGroups g gs more hends, hstop (by simp), pushAll_empty]
      rfl

/-- The zero groups that a double colon leaves out, and what stands around them. -/
lemma longestZeros_spec (index : ℕ) (gs : List UInt16) : ∃ front back,
    gs = front ++ List.replicate (longestZeros index gs).2 0 ++ back ∧
      (longestZeros index gs).1 = index + front.length := by
  induction gs generalizing index with
  | nil => exact ⟨[], [], rfl, rfl⟩
  | cons x gs ih =>
      have hzeros : (x :: gs).takeWhile (· == 0) = List.replicate (leadingZeros (x :: gs)) 0 :=
        List.eq_replicate_of_mem fun y hy => by
          simpa using List.all_eq_true.mp List.all_takeWhile y hy
      obtain ⟨front, back, hgs, hindex⟩ := ih (index + 1)
      rw [longestZeros]
      split_ifs
      · refine ⟨[], (x :: gs).dropWhile (· == 0), ?_, rfl⟩
        rw [List.nil_append, ← hzeros, List.takeWhile_append_dropWhile]
      · refine ⟨x :: front, back, ?_, ?_⟩
        · rw [List.cons_append, List.cons_append, ← hgs]
        · rw [hindex, List.length_cons]
          omega

/-- A text that cannot belong to an address in front of it. -/
structure EndsAddress (s : List Char) : Prop extends EndsGroup s where
  /-- There is no colon. -/
  no_colon : s.head? ≠ some ':'

lemma ofGroups?_groups (x : IPv6) : ofGroups? x.groups = some x := by
  rw [ofGroups?, dif_pos x.length_groups]

/-- An address with all of its groups reads back. -/
lemma read_groupsChars (g : Grammar) (x : IPv6) {rest : List Char} (h : EndsAddress rest) :
    read g (groupsChars x.groups ++ rest) = some (x, rest) := by
  have hfront := readGroups_groupsChars g x.length_groups.le h.toEndsGroup fun _ n =>
    readGroups_false_of_ne g n h.no_colon
  rw [read, hfront]
  simp [x.length_groups, ofGroups?_groups]

/-- Two runs of groups around a double colon are read as an address. -/
lemma read_of_runs {g : Grammar} {x : IPv6} {s gap rest : List Char} {front back : List UInt16}
    {dotted : Bool} (hlen : front.length ≠ 8)
    (hfront : readGroups g 8 true s = ⟨front, false, ':' :: ':' :: gap⟩)
    (hback : readGroups g (8 - front.length - (if g.emptyGap then 0 else 1)) true gap =
      ⟨back, dotted, rest⟩)
    (hx : x.groups = front ++ List.replicate (8 - front.length - back.length) 0 ++ back) :
    read g s = some (x, rest) := by
  rw [read, hfront]
  simp only [expect, if_true, hlen, hback, ← hx, ofGroups?_groups, if_false,
    Option.bind_eq_bind, Option.bind_some, Bool.false_eq_true, pure]

/-- An address with a double colon in place of two or more zero groups reads back. -/
lemma read_gap (g : Grammar) {front back : List UInt16} {n : ℕ} (hn : 1 < n) {x : IPv6}
    (hx : x.groups = front ++ List.replicate n 0 ++ back) {rest : List Char}
    (h : EndsAddress rest) :
    read g (groupsChars front ++ ':' :: ':' :: (groupsChars back ++ rest)) = some (x, rest) := by
  have hlen : front.length + n + back.length = 8 := by
    rw [← x.length_groups, hx, List.length_append, List.length_append, List.length_replicate]
  have hshort : front.length ≤ 8 := by omega
  have hroom : back.length ≤ 8 - front.length - (if g.emptyGap then 0 else 1) := by
    split_ifs <;> omega
  have hfront := readGroups_groupsChars g hshort
    (endsGroup_colon (':' :: (groupsChars back ++ rest))) fun _ n =>
      readGroups_false_of_gap g n _
  have hback := readGroups_groupsChars g hroom h.toEndsGroup fun _ n =>
    readGroups_false_of_ne g n h.no_colon
  have hzeros : 8 - front.length - back.length = n := by omega
  exact read_of_runs (by omega) hfront hback (by rw [hzeros]; exact hx)

/-! ### Mapped addresses -/

/-- The two octets of a group spell it. -/
lemma toUInt16BE_halves (g : UInt16) :
    Bytes.toUInt16BE [(g >>> 8).toUInt8, g.toUInt8] = g := by
  have hg := g.toNat_lt
  have hhigh : (g >>> 8).toUInt8.toNat = g.toNat / 256 := by
    simp only [UInt16.toNat_toUInt8, UInt16.toNat_shiftRight, Nat.shiftRight_eq_div_pow]
    simp
    omega
  have hlow : g.toUInt8.toNat = g.toNat % 256 := UInt16.toNat_toUInt8 g
  have hsum : g.toNat % 256 + 256 * (g.toNat / 256) = g.toNat := by omega
  apply UInt16.toNat_inj.mp
  simp only [Bytes.toUInt16BE, Bytes.toNatBE, List.reverse_cons, List.reverse_nil, List.nil_append,
    List.cons_append, Bytes.toNatLE, hhigh, hlow, Nat.mul_zero, Nat.add_zero, hsum]
  simp

lemma groups_of_mapped? {x : IPv6} {y : IPv4} (h : x.mapped? = some y) :
    x.groups = List.replicate 5 0 ++ [0xFFFF, Bytes.toUInt16BE [y.a, y.b],
      Bytes.toUInt16BE [y.c, y.d]] := by
  rw [mapped?] at h
  split at h
  · next p q hgroups =>
      rw [← Option.some.inj h, hgroups, toUInt16BE_halves, toUInt16BE_halves]
      rfl
  · cases h

/-- An IPv4 address ends a run of groups. -/
lemma readGroups_dotted (g : Grammar) (most : ℕ) (x : IPv4) {rest : List Char}
    (h : Stops 10 rest) : readGroups g (most + 2) false (':' :: (x.chars ++ rest)) =
      ⟨[Bytes.toUInt16BE [x.a, x.b], Bytes.toUInt16BE [x.c, x.d]], true, rest⟩ := by
  rw [readGroups, if_neg (by decide), expect, if_pos rfl]
  simp only [Nat.add_one_ne_zero, if_false, IPv4.read_chars g x h]

/-- A mapped address reads back. -/
lemma read_mapped (g : Grammar) {x : IPv6} {y : IPv4} (hy : x.mapped? = some y)
    {rest : List Char} (h : EndsAddress rest) :
    read g (':' :: ':' :: (groupChars 0xFFFF ++ ':' :: (y.chars ++ rest))) = some (x, rest) := by
  have hnone : ([] : List UInt16).length ≠ 8 := by decide
  have hfront := readGroups_true_of_endsGroup g 8
    (endsGroup_colon (':' :: (groupChars 0xFFFF ++ ':' :: (y.chars ++ rest))))
  obtain ⟨most, hmost⟩ : ∃ most, 8 - ([] : List UInt16).length - (if g.emptyGap then 0 else 1) =
      most + 3 := by
    split_ifs
    · exact ⟨5, rfl⟩
    · exact ⟨4, rfl⟩
  have hback : readGroups g (most + 3) true (groupChars 0xFFFF ++ ':' :: (y.chars ++ rest)) =
      ⟨[0xFFFF, Bytes.toUInt16BE [y.a, y.b], Bytes.toUInt16BE [y.c, y.d]], true, rest⟩ := by
    rw [readGroups_first g (most + 2) 0xFFFF (endsGroup_colon _),
      readGroups_dotted g most y (stops_ten h.stops)]
    rfl
  rw [← hmost] at hback
  exact read_of_runs hnone hfront hback (groups_of_mapped? hy)

/-- **An IPv6 address reads back.** -/
lemma read_chars (g : Grammar) (x : IPv6) {rest : List Char} (h : EndsAddress rest) :
    read g (x.chars ++ rest) = some (x, rest) := by
  rw [chars]
  cases hmapped : x.mapped? with
  | some y =>
      have hffff : groupChars 0xFFFF = ['f', 'f', 'f', 'f'] := by decide
      have hread := read_mapped g hmapped h
      rw [hffff] at hread
      simpa using hread
  | none =>
      simp only
      split_ifs with hrun
      · obtain ⟨front, back, hgroups, hindex⟩ := longestZeros_spec 0 x.groups
        set n := (longestZeros 0 x.groups).2
        have hstart : (longestZeros 0 x.groups).1 = front.length := by omega
        have hfront : x.groups.take front.length = front := by
          rw [hgroups, List.append_assoc, List.take_left]
        have hback : x.groups.drop (front.length + n) = back := by
          rw [hgroups, List.drop_left' (by simp)]
        rw [hstart, hfront, hback, List.append_assoc]
        exact read_gap g hrun hgroups h
      · exact read_groupsChars g x h

/-! ### The characters of an address -/

lemma mem_groupsChars {gs : List UInt16} {c : Char} (h : c ∈ groupsChars gs) :
    (∃ d < 16, c = Hex.digit d) ∨ c = ':' := by
  cases gs with
  | nil => cases h
  | cons x gs =>
      rw [groupsChars_cons, List.mem_append, colonGroups, List.mem_flatMap] at h
      rcases h with h | ⟨y, -, h⟩
      · exact .inl (mem_groupChars h)
      · rcases List.mem_cons.mp h with h | h
        · exact .inr h
        · exact .inl (mem_groupChars h)

lemma ne_dot_of_mem_groupsChars {gs : List UInt16} {c : Char} (h : c ∈ groupsChars gs) :
    c ≠ '.' := by
  rcases mem_groupsChars h with ⟨d, hd, rfl⟩ | rfl
  · interval_cases d <;> decide
  · decide

/-- The text of an IPv6 address consists of digits, colons and dots. -/
lemma mem_chars {x : IPv6} {c : Char} (h : c ∈ x.chars) :
    (∃ d < 16, c = Hex.digit d) ∨ c = ':' ∨ c = '.' := by
  have hgroups : ∀ gs, c ∈ groupsChars gs → (∃ d < 16, c = Hex.digit d) ∨ c = ':' ∨ c = '.' :=
    fun gs hc => (mem_groupsChars hc).imp_right .inl
  have hffff : c ∈ [':', ':', 'f', 'f', 'f', 'f', ':'] → c = 'f' ∨ c = ':' := by
    simp only [List.mem_cons, List.not_mem_nil]
    tauto
  rw [chars] at h
  split at h
  · rcases List.mem_append.mp h with h | h
    · rcases hffff h with hc | hc
      · exact .inl ⟨15, by decide, hc⟩
      · exact .inr (.inl hc)
    · exact (IPv4.mem_chars h).imp_right .inr
  · simp only at h
    split_ifs at h
    · simp only [List.mem_append, List.mem_cons] at h
      rcases h with h | h | h | h
      · exact hgroups _ h
      · exact .inr (.inl h)
      · exact .inr (.inl h)
      · exact hgroups _ h
    · exact hgroups _ h

/-- The text of an IPv6 address does not begin with an IPv4 address. -/
lemma readV4_chars (g : Grammar) (x : IPv6) {rest : List Char} (h : EndsGroup rest) :
    IPv4.read g (x.chars ++ rest) = none := by
  rw [chars]
  cases x.mapped? with
  | some y => exact @readV4_eq_none g [] _ (by simp) (endsGroup_colon _)
  | none =>
      simp only
      split_ifs
      · rw [List.append_assoc]
        exact readV4_eq_none g (fun _ => ne_dot_of_mem_groupsChars) (endsGroup_colon _)
      · exact readV4_eq_none g (fun _ => ne_dot_of_mem_groupsChars) h

/-- The text of an IPv6 address and nothing more reads back. -/
lemma read?_chars (g : Grammar) (x : IPv6) : read? g x.chars = some x := by
  have hnil : EndsAddress [] := ⟨⟨stops_nil 16, by simp⟩, by simp⟩
  have hread := read_chars g x hnil
  rw [List.append_nil] at hread
  rw [read?, hread]

end IPv6

/-- The text of an address consists of digits, colons and dots. -/
lemma IpAddress.mem_chars {x : IpAddress} {c : Char} (h : c ∈ x.chars) :
    (∃ d < 16, c = Hex.digit d) ∨ c = ':' ∨ c = '.' := by
  cases x with
  | v4 x => exact (IPv4.mem_chars h).imp_right .inr
  | v6 x => exact IPv6.mem_chars h

end WireGuardControl

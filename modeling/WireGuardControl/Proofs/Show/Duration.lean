import Mathlib.Tactic
import WireGuardControl.Proofs.Tables
import WireGuardControl.Proofs.Text.Decimal
import WireGuardControl.Show.Units
/-!
Durations are printed without loss.

* `MakesUp`: counts of units that a number of seconds is made of, the largest unit first, each of
  them too small for one of the next larger unit.
* `total_countUnits`: what has been counted and what is left over make up the number, by induction
  on the units. `makesUp_durationParts`: so nothing is lost behind the last unit.
* `Worded`: the words for a count of a unit. `partText_injective`: they determine the count and the
  unit, and they have no comma (`comma_notMem_partText`).
* `duration_lossless`: what is printed for a number of seconds, and that it determines the number.
-/

namespace WireGuardControl.Show

open Text Table

/-! ### Counts of units -/

/-- How many of a unit make one of the next larger unit, if there is one. -/
def TimeUnit.limit? : TimeUnit → Option ℕ
  | .year => none
  | .day => some 365
  | .hour => some 24
  | .minute => some 60
  | .second => some 60

/-- The seconds of counts of units. -/
def total (parts : List (ℕ × TimeUnit)) : ℕ := (parts.map fun p => p.1 * p.2.seconds).sum

/-- Counts of units that `n` seconds are made of. -/
structure MakesUp (parts : List (ℕ × TimeUnit)) (n : ℕ) : Prop where
  /-- There is something to print. -/
  ne_nil : parts ≠ []
  /-- Units that are not needed are left out. -/
  pos : ∀ p ∈ parts, 1 ≤ p.1
  /-- No count is large enough for one of the next larger unit. -/
  lt_limit : ∀ p ∈ parts, ∀ limit, p.2.limit? = some limit → p.1 < limit
  /-- The largest unit stands first. -/
  decreasing : parts.Pairwise fun p q => q.2.seconds < p.2.seconds
  /-- Together they are all the seconds. -/
  total_eq : total parts = n

lemma TimeUnit.seconds_pos (u : TimeUnit) : 0 < u.seconds := by
  cases u <;> decide

/-- The seconds that units leave over, the largest unit first. -/
def leftOver (us : List TimeUnit) (n : ℕ) : ℕ := us.foldl (fun n u => n % u.seconds) n

/-- **What is counted and what is left over** make up the number. -/
lemma total_countUnits (us : List TimeUnit) (n : ℕ) :
    total (countUnits us n) + leftOver us n = n := by
  induction us generalizing n with
  | nil => exact Nat.zero_add n
  | cons u us ih =>
      have hrest := ih (n % u.seconds)
      have hunit := Nat.div_add_mod' n u.seconds
      simp only [total, countUnits, List.map_cons, List.sum_cons, leftOver, List.foldl_cons]
        at hrest ⊢
      omega

/-- Units, each of which has as many of the one behind it as that one's limit says. -/
abbrev Nested (us : List TimeUnit) : Prop :=
  us.IsChain fun u v => ∀ limit, v.limit? = some limit → u.seconds = limit * v.seconds

/-- What a unit leaves over has no room for one more of it, so that the counts of the unit behind it
stay below its limit. -/
lemma lt_limit_of_mem_countUnits {us : List TimeUnit} (hus : Nested us) {n : ℕ}
    (hn : ∀ u, us.head? = some u → ∀ limit, u.limit? = some limit → n < limit * u.seconds) :
    ∀ p ∈ countUnits us n, ∀ limit, p.2.limit? = some limit → p.1 < limit := by
  induction us generalizing n with
  | nil => simp [countUnits]
  | cons u us ih =>
      rw [countUnits, List.forall_mem_cons]
      refine ⟨fun limit hlimit => ?_, ih hus.tail fun v hv limit hlimit => ?_⟩
      · exact Nat.div_lt_of_lt_mul (by rw [Nat.mul_comm]; exact hn u rfl limit hlimit)
      · obtain ⟨us, rfl⟩ := List.head?_eq_some_iff.mp hv
        rw [← hus.rel limit hlimit]
        exact Nat.mod_lt n u.seconds_pos

lemma map_snd_countUnits (us : List TimeUnit) (n : ℕ) : (countUnits us n).map Prod.snd = us := by
  induction us generalizing n with
  | nil => rfl
  | cons u us ih => rw [countUnits, List.map_cons, ih]

/-- Counts of zero do not count. -/
lemma total_filter (parts : List (ℕ × TimeUnit)) :
    total (parts.filter fun p => p.1 ≠ 0) = total parts := by
  induction parts with
  | nil => rfl
  | cons p parts ih =>
      simp only [total] at ih ⊢
      by_cases hp : p.1 = 0
      · rw [List.filter_cons_of_neg (by simp [hp]), ih, List.map_cons, List.sum_cons, hp]
        simp
      · rw [List.filter_cons_of_pos (by simp [hp]), List.map_cons, List.sum_cons, ih, List.map_cons,
          List.sum_cons]

/-- Nothing is left over behind seconds. -/
lemma total_durationParts (n : ℕ) : total (durationParts n) = n := by
  have hcounted := total_countUnits TimeUnit.all n
  have hnothing : leftOver TimeUnit.all n = 0 := Nat.mod_one _
  rw [durationParts, total_filter]
  omega

/-- **The counts that are printed** are those of the number. -/
lemma makesUp_durationParts {n : ℕ} (hn : 1 ≤ n) : MakesUp (durationParts n) n where
  ne_nil := by
    intro hnil
    have htotal := total_durationParts n
    rw [hnil] at htotal
    exact absurd htotal (Nat.ne_of_lt hn)
  pos p hp := Nat.one_le_iff_ne_zero.mpr (by simpa using (List.mem_filter.mp hp).2)
  lt_limit p hp := by
    have hnested : Nested TimeUnit.all := by simp [Nested, TimeUnit.all, TimeUnit.limit?,
      TimeUnit.seconds]
    refine lt_limit_of_mem_countUnits hnested (n := n) ?_ p (List.mem_filter.mp hp).1
    rintro u hu limit hlimit
    obtain rfl := Option.some.inj hu
    cases hlimit
  decreasing := by
    have hunits : TimeUnit.all.Pairwise fun u v => v.seconds < u.seconds := by decide
    rw [← map_snd_countUnits TimeUnit.all n, List.pairwise_map] at hunits
    exact hunits.filter _
  total_eq := total_durationParts n

/-! ### Words -/

/-- The words for a count of a unit: the unit stands in the singular exactly if there is one. -/
inductive Worded : ℕ × TimeUnit → String → Prop
  /-- One unit. -/
  | one (u : TimeUnit) : Worded (1, u) ("1 " ++ u.name)
  /-- Any other number of units. -/
  | many {k : ℕ} (hk : k ≠ 1) (u : TimeUnit) :
      Worded (k, u) (Decimal.text k ++ " " ++ u.name ++ "s")

lemma worded_partText (p : ℕ × TimeUnit) : Worded p (partText p) := by
  obtain ⟨k, u⟩ := p
  by_cases hk : k = 1
  · have hone : Decimal.text 1 ++ " " = "1 " := by decide +kernel
    subst hk
    rw [partText, if_pos rfl, hone, String.append_empty]
    exact .one u
  · rw [partText, if_neg hk]
    exact .many hk u

/-- What stands behind the number of a count. -/
def unitChars (p : ℕ × TimeUnit) : List Char := p.2.name.toList ++ if p.1 = 1 then [] else ['s']

lemma toList_partText (p : ℕ × TimeUnit) :
    (partText p).toList = Decimal.ofNat p.1 ++ ' ' :: unitChars p := by
  rw [partText, unitChars, Decimal.text]
  split_ifs <;> simp

lemma ne_space_of_mem_ofNat {n : ℕ} {c : Char} (h : c ∈ Decimal.ofNat n) : c ≠ ' ' ∧ c ≠ ',' := by
  obtain ⟨d, hd, rfl⟩ := Decimal.mem_ofNat h
  interval_cases d <;> decide

/-- **The words for a count** determine it. -/
lemma partText_injective : Function.Injective fun p => (partText p).toList := by
  intro p q h
  simp only [toList_partText] at h
  obtain ⟨hcounts, -, hunits⟩ := append_cons_inj (P := (· = ' '))
    (fun _ hz => (ne_space_of_mem_ofNat hz).1) (fun _ hz => (ne_space_of_mem_ofNat hz).1) rfl rfl h
  have hcount : p.1 = q.1 := Decimal.ofNat_injective hcounts
  rw [unitChars, unitChars, hcount, List.append_left_inj] at hunits
  have hnames : ∀ u v : TimeUnit, u.name.toList = v.name.toList → u = v := by
    intro u v
    cases u <;> cases v <;> decide
  exact Prod.ext hcount (hnames _ _ hunits)

lemma partText_ne_nil (p : ℕ × TimeUnit) : (partText p).toList ≠ [] := by
  simp [toList_partText]

lemma comma_notMem_partText (p : ℕ × TimeUnit) : ',' ∉ (partText p).toList := by
  have hname : ∀ u : TimeUnit, ',' ∉ u.name.toList := by
    intro u
    cases u <;> decide
  rw [toList_partText, unitChars]
  intro h
  rcases List.mem_append.mp h with h | h
  · exact (ne_space_of_mem_ofNat h).2 rfl
  · rcases List.mem_append.mp (List.mem_of_ne_of_mem (by decide) h) with h | h
    · exact hname p.2 h
    · split_ifs at h <;> simp at h

lemma toList_duration (n : ℕ) : (duration n).toList =
    [',', ' '].intercalate ((durationParts n).map fun p => (partText p).toList) := by
  rw [duration, String.toList_intercalate, List.map_map]
  rfl

/-- Different numbers of seconds are printed differently. -/
lemma duration_injective : Function.Injective duration := by
  intro m n h
  have hchars := congrArg String.toList h
  rw [toList_duration, toList_duration] at hchars
  have hparts : durationParts m = durationParts n :=
    intercalate_map_inj partText_injective partText_ne_nil (by decide) comma_notMem_partText hchars
  rw [← total_durationParts m, hparts, total_durationParts]

/-- **Durations are printed without loss.** From one second on, the counts of units that the number
is made of are printed in their words, with commas between them, and no other number is printed like
that. -/
theorem duration_lossless {n : ℕ} (hn : 1 ≤ n) :
    (∃ parts words, MakesUp parts n ∧ List.Forall₂ Worded parts words ∧
        duration n = ", ".intercalate words) ∧
      ∀ m, duration m = duration n → m = n := by
  refine ⟨⟨durationParts n, (durationParts n).map partText, makesUp_durationParts hn, ?_, rfl⟩,
    fun m h => duration_injective h⟩
  rw [List.forall₂_map_right_iff, List.forall₂_same]
  exact fun p _ => worded_partText p

/-- A year, two hours and a second: days and minutes are left out. -/
theorem duration_lossless_year :
    1 ≤ 31543201 ∧ duration 31543201 = "1 year, 2 hours, 1 second" ∧
      (∃ parts words, MakesUp parts 31543201 ∧ List.Forall₂ Worded parts words ∧
        duration 31543201 = ", ".intercalate words) ∧
      ∀ m, duration m = duration 31543201 → m = 31543201 :=
  ⟨by decide, by decide +kernel, duration_lossless (by decide)⟩

end WireGuardControl.Show

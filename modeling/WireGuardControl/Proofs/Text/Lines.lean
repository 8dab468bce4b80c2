import Mathlib.Data.List.TakeWhile
import Mathlib.Tactic
import WireGuardControl.Text.Lines
/-!
Texts taken apart at the characters between which they were put together.

* `cut_append`, `cut_pair`, `once_append`: a text is cut at a mark that does not occur before, or at
  all; a mark of two characters does not occur if they never stand one behind the other.
  `once_eq`: where a text is cut, if the mark occurs in it once.
* `split_append`, `split_line`: the first line of a text; `split_paragraph`: the lines of a
  `paragraph`, which ends with a blank line, read back.
* `Whole`: text that ends with its last line. `split_whole_append`: lines behind it are added.
-/

namespace WireGuardControl.Text.Lines

/-! ### Up to a mark -/

section Mark

variable {α : Type} [DecidableEq α] {mark : α} {front : List α}

lemma takeWhile_ne_append (h : mark ∉ front) (back : List α) :
    (front ++ mark :: back).takeWhile (· ≠ mark) = front := by
  have hfront : ∀ c ∈ front, decide (c ≠ mark) = true := by
    intro c hc
    exact decide_eq_true fun hcm => h (hcm ▸ hc)
  rw [List.takeWhile_append_of_pos hfront, List.takeWhile_cons_of_neg (by simp), List.append_nil]

lemma dropWhile_ne_append (h : mark ∉ front) (back : List α) :
    (front ++ mark :: back).dropWhile (· ≠ mark) = mark :: back := by
  have hfront : ∀ c ∈ front, decide (c ≠ mark) = true := by
    intro c hc
    exact decide_eq_true fun hcm => h (hcm ▸ hc)
  rw [List.dropWhile_append_of_pos hfront, List.dropWhile_cons_of_neg (by simp)]

end Mark

variable {mark c : Char}

/-! ### Parts -/

lemma not_isPrefixOf_cons (h : mark ≠ c) (more s : List Char) :
    (mark :: more).isPrefixOf (c :: s) = false := by
  rw [List.isPrefixOf, beq_false_of_ne h, Bool.false_and]

lemma cut_of_notMem (more : List Char) {s : List Char} (h : mark ∉ s) :
    cut (mark :: more) s = none := by
  induction s with
  | nil => rfl
  | cons c s ih =>
      rw [List.mem_cons, not_or] at h
      rw [cut, not_isPrefixOf_cons h.1, if_neg (by decide), ih h.2]
      rfl

/-- A text is cut at a mark whose first character does not occur before it. -/
lemma cut_append (more : List Char) {front : List Char} (h : mark ∉ front) (back : List Char) :
    cut (mark :: more) (front ++ (mark :: more) ++ back) = some (front, back) := by
  induction front with
  | nil =>
      have hprefix : (mark :: more).isPrefixOf (mark :: (more ++ back)) = true := by
        rw [List.isPrefixOf_iff_prefix]
        exact List.prefix_append (mark :: more) back
      rw [List.nil_append, List.cons_append, cut, hprefix, if_pos rfl, ← List.cons_append,
        List.drop_left]
  | cons c front ih =>
      rw [List.mem_cons, not_or] at h
      rw [List.cons_append, List.cons_append, cut, not_isPrefixOf_cons h.1, if_neg (by decide),
        ih h.2]
      rfl

section Pair

variable {x y : Char}

/-- Two characters at the head of a text are at the head of what stands in front of a third. -/
lemma pair_at_head {c : Char} {a rest : List Char} (hy : y ≠ mark)
    (h : [x, y] <+: c :: (a ++ mark :: rest)) : [x, y] <+: c :: a := by
  rw [List.cons_prefix_cons] at h ⊢
  refine ⟨h.1, ?_⟩
  cases a with
  | nil => exact absurd (List.cons_prefix_cons.mp h.2).1 hy
  | cons d a => exact List.cons_prefix_cons.mpr ⟨(List.cons_prefix_cons.mp h.2).1, List.nil_prefix⟩

/-- Two characters that occur in neither of two texts do not occur around a third between them. -/
lemma not_infix_append {a b : List Char} (ha : ¬ [x, y] <:+: a) (hb : ¬ [x, y] <:+: b)
    (hx : x ≠ mark) (hy : y ≠ mark) : ¬ [x, y] <:+: a ++ mark :: b := by
  induction a with
  | nil =>
      rw [List.nil_append, List.infix_cons_iff, not_or]
      exact ⟨fun h => hx (List.cons_prefix_cons.mp h).1, hb⟩
  | cons c a ih =>
      rw [List.infix_cons_iff, not_or] at ha
      rw [List.cons_append, List.infix_cons_iff, not_or]
      exact ⟨fun h => ha.1 (pair_at_head hy h), ih ha.2⟩

/-- A text is cut at the first of two different characters that occur one behind the other. -/
lemma cut_pair (hne : x ≠ y) {front : List Char} (h : ¬ [x, y] <:+: front) (back : List Char) :
    cut [x, y] (front ++ x :: y :: back) = some (front, back) := by
  induction front with
  | nil =>
      rw [List.nil_append, cut, if_pos (by simp [List.isPrefixOf])]
      rfl
  | cons c front ih =>
      rw [List.infix_cons_iff, not_or] at h
      rw [List.cons_append, cut, if_neg, ih h.2]
      · rfl
      · rw [List.isPrefixOf_iff_prefix]
        exact fun hprefix => h.1 (pair_at_head hne.symm hprefix)

lemma not_infix_of_notMem {s : List Char} (hx : x ∉ s) : ¬ [x, y] <:+: s := fun h =>
  hx (h.subset List.mem_cons_self)

end Pair

/-- A text is taken apart at the only occurrence of a mark. -/
lemma once_append {front back : List Char} (hfront : mark ∉ front) (hback : mark ∉ back) :
    once mark (front ++ mark :: back) = some (front, back) := by
  rw [once, dropWhile_ne_append hfront, takeWhile_ne_append hfront]
  simp only
  rw [if_neg hback]

/-- A text is taken apart exactly if a mark occurs in it once. -/
lemma once_eq (s : List Char) : once mark s =
    if s.count mark = 1 then some (s.takeWhile (· ≠ mark), (s.dropWhile (· ≠ mark)).tail)
    else none := by
  by_cases hmark : mark ∈ s
  · obtain ⟨front, back, rfl, hfront⟩ := List.eq_append_cons_of_mem hmark
    rw [once, dropWhile_ne_append hfront, takeWhile_ne_append hfront, List.count_append,
      List.count_cons_self, List.count_eq_zero.mpr hfront]
    by_cases hback : mark ∈ back
    · have hcount := List.count_pos_iff.mpr hback
      simp only [if_pos hback]
      rw [if_neg (by omega)]
    · simp [hback, List.count_eq_zero.mpr hback]
  · have hdrop : s.dropWhile (· ≠ mark) = [] :=
      List.dropWhile_eq_nil_iff.mpr fun c hc => decide_eq_true fun hcm => hmark (hcm ▸ hc)
    rw [once, hdrop, List.count_eq_zero.mpr hmark]
    rfl

/-! ### Lines -/

lemma chomp_of_ne {line : List Char} (h : line.getLast? ≠ some '\r') : chomp line = line := by
  rw [chomp, if_neg h]

/-- The first line of a text is read up to its end, at which a carriage return is taken off. -/
lemma split_line {line : List Char} (hline : '\n' ∉ line) (rest : List Char) :
    split (line ++ '\n' :: rest) = chomp line :: split rest := by
  have htake := takeWhile_ne_append hline rest
  have hdrop := dropWhile_ne_append hline rest
  have hcons : ∃ c s, line ++ '\n' :: rest = c :: s := by
    cases line with
    | nil => exact ⟨_, _, rfl⟩
    | cons c s => exact ⟨c, s ++ '\n' :: rest, rfl⟩
  obtain ⟨c, s, hcs⟩ := hcons
  rw [hcs] at htake hdrop ⊢
  rw [split]
  simp only [htake]
  split
  · next heq => rw [hdrop] at heq; cases heq
  · next heq =>
      rw [hdrop] at heq
      rw [(List.cons.inj heq).2]

/-- The first line of a text is read up to its end. -/
lemma split_append {line : List Char} (hline : '\n' ∉ line) (hlast : line.getLast? ≠ some '\r')
    (rest : List Char) : split (line ++ '\n' :: rest) = line :: split rest := by
  rw [split_line hline, chomp_of_ne hlast]

/-- A text of whole lines: it is empty, or ends with the end of a line. -/
def Whole (s : List Char) : Prop := s = [] ∨ s.getLast? = some '\n'

lemma Whole.exists_line {s : List Char} (h : Whole s) (hs : s ≠ []) :
    ∃ line rest, '\n' ∉ line ∧ s = line ++ '\n' :: rest ∧ Whole rest := by
  have hlast : s.getLast? = some '\n' := h.resolve_left hs
  obtain ⟨line, rest, rfl, hline⟩ := List.eq_append_cons_of_mem (List.mem_of_getLast? hlast)
  refine ⟨line, rest, hline, rfl, ?_⟩
  by_cases hrest : rest = []
  · exact .inl hrest
  · right
    rwa [List.getLast?_append_of_ne_nil _ (List.cons_ne_nil _ _),
      List.getLast?_cons_of_ne_nil hrest] at hlast

/-- Whole lines are read apart from what follows them. -/
lemma split_whole_append {front : List Char} (h : Whole front) (back : List Char) :
    split (front ++ back) = split front ++ split back := by
  induction hn : front.length using Nat.strong_induction_on generalizing front with
  | _ n ih =>
      by_cases hfront : front = []
      · rw [hfront, List.nil_append, split, List.nil_append]
      · obtain ⟨line, rest, hline, rfl, hrest⟩ := h.exists_line hfront
        have hshort : rest.length < n := by
          rw [← hn, List.length_append, List.length_cons]
          omega
        rw [List.append_assoc, List.cons_append, split_line hline, split_line hline,
          ih _ hshort hrest rfl, List.cons_append]

/-! ### Paragraphs -/

/-- Lines, each with its end, and a blank line behind them. -/
def paragraph (lines : List (List Char)) : List Char :=
  (lines.flatMap fun l => l ++ ['\n']) ++ ['\n']

lemma paragraph_cons (l : List Char) (lines : List (List Char)) :
    paragraph (l :: lines) = l ++ '\n' :: paragraph lines := by
  simp [paragraph]

/-- **Lines read back** up to the blank line, whatever is written behind it. -/
lemma split_paragraph {lines : List (List Char)} (hlines : ∀ l ∈ lines, '\n' ∉ l)
    (hlast : ∀ l ∈ lines, l.getLast? ≠ some '\r') (rest : List Char) :
    split (paragraph lines ++ rest) = lines ++ [] :: split rest := by
  induction lines with
  | nil => exact @split_append [] (by simp) (by simp) rest
  | cons l lines ih =>
      rw [List.forall_mem_cons] at hlines hlast
      rw [paragraph_cons, List.append_assoc, List.cons_append, split_append hlines.1 hlast.1,
        ih hlines.2 hlast.2, List.cons_append]

end WireGuardControl.Text.Lines

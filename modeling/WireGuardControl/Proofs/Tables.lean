import Mathlib.Tactic
/-!
What a row determines that is written piece by piece.

* `spread`: the entries of a table, one behind the other, each with its label. They determine the
  table if its labels differ (`spread_inj`), so that a label without an entry is not mistaken for
  another.
* `append_flatMap_inj`: blocks that begin with a mark, and have none inside, are determined by the
  row of them, and so is what stands in front of the first block.
* `intercalate_map_inj`: so are pieces with a separator between them that none of them has inside.
* `flatten_inj`: so are pieces whose lengths their first elements tell.
-/

namespace WireGuardControl.Table

universe u v

variable {κ : Type u} {ν : Type v}

/-! ### Labels -/

/-- The entries of a table of labels and their values, one behind the other. -/
def spread (table : List (κ × List ν)) : List (κ × ν) :=
  table.flatMap fun row => row.2.map (row.1, ·)

lemma fst_of_mem_spread {table : List (κ × List ν)} {x : κ × ν} (h : x ∈ spread table) :
    x.1 ∈ table.map Prod.fst := by
  obtain ⟨row, hrow, hx⟩ := List.mem_flatMap.mp h
  obtain ⟨v, -, rfl⟩ := List.mem_map.mp hx
  exact List.mem_map_of_mem hrow

/-- The values of one label end where another label begins. -/
lemma map_append_inj {k : κ} {vs ws : List ν} {s t : List (κ × ν)} (hs : ∀ x ∈ s, x.1 ≠ k)
    (ht : ∀ x ∈ t, x.1 ≠ k) (h : vs.map (k, ·) ++ s = ws.map (k, ·) ++ t) : vs = ws ∧ s = t := by
  induction vs generalizing ws with
  | nil =>
      cases ws with
      | nil => exact ⟨rfl, h⟩
      | cons w ws =>
          have hw : (k, w) ∈ s := by
            rw [List.map_nil, List.nil_append] at h
            rw [h]
            exact List.mem_cons_self
          exact absurd rfl (hs _ hw)
  | cons v vs ih =>
      cases ws with
      | nil =>
          have hv : (k, v) ∈ t := by
            rw [List.map_nil, List.nil_append] at h
            rw [← h]
            exact List.mem_cons_self
          exact absurd rfl (ht _ hv)
      | cons w ws =>
          obtain ⟨hvw, hrest⟩ := List.cons.inj h
          obtain ⟨hvs, hst⟩ := ih hrest
          exact ⟨congrArg₂ List.cons (Prod.mk.inj hvw).2 hvs, hst⟩

/-- **The entries of a table determine it**, if its labels are known and differ. -/
theorem spread_inj {labels : List κ} (hnodup : labels.Nodup) {s t : List (κ × List ν)}
    (hs : s.map Prod.fst = labels) (ht : t.map Prod.fst = labels) (h : spread s = spread t) :
    s = t := by
  induction labels generalizing s t with
  | nil => rw [List.map_eq_nil_iff.mp hs, List.map_eq_nil_iff.mp ht]
  | cons k labels ih =>
      obtain ⟨row, s, rfl, rfl, hlabels⟩ := List.map_eq_cons_iff.mp hs
      obtain ⟨row', t, rfl, hlabel, hlabels'⟩ := List.map_eq_cons_iff.mp ht
      obtain ⟨hnotMem, hnodup⟩ := List.nodup_cons.mp hnodup
      rw [spread, spread, List.flatMap_cons, List.flatMap_cons, hlabel] at h
      have hnone : ∀ {table : List (κ × List ν)}, table.map Prod.fst = labels →
          ∀ x ∈ spread table, x.1 ≠ row.1 := by
        intro table htable x hx heq
        exact hnotMem (heq ▸ htable ▸ fst_of_mem_spread hx)
      obtain ⟨hvalues, hrest⟩ := map_append_inj (hnone hlabels) (hnone hlabels') h
      exact congrArg₂ List.cons (Prod.ext hlabel.symm hvalues) (ih hnodup hlabels hlabels' hrest)

/-! ### Values -/

section Values

variable {α β γ : Type} {f : α → β} {g : α → γ}

/-- Equal values of a function are equal values of what factors through it, all along a list. -/
lemma map_eq_map (h : g.FactorsThrough f) {xs ys : List α} (heq : xs.map f = ys.map f) :
    xs.map g = ys.map g := by
  induction xs generalizing ys with
  | nil => rw [List.map_eq_nil_iff.mp heq.symm, List.map_nil]
  | cons x xs ih =>
      cases ys with
      | nil => cases heq
      | cons y ys =>
          obtain ⟨hxy, hrest⟩ := List.cons.inj heq
          exact congrArg₂ List.cons (h hxy) (ih hrest)

/-- A value that may be absent is told from one that is there. -/
lemma option_map_eq_map (h : g.FactorsThrough f) {o o' : Option α}
    (heq : (o.map f).toList = (o'.map f).toList) : o.map g = o'.map g := by
  cases o with
  | none =>
      cases o' with
      | none => rfl
      | some y => cases heq
  | some x =>
      cases o' with
      | none => cases heq
      | some y => exact congrArg some (h (List.cons.inj heq).1)

lemma option_eq (h : Function.Injective f) {o o' : Option α}
    (heq : (o.map f).toList = (o'.map f).toList) : o = o' := by
  have hid := option_map_eq_map (g := id) (h.factorsThrough id) heq
  rwa [Option.map_id, id, id] at hid

lemma list_eq (h : Function.Injective f) {xs ys : List α} (heq : xs.map f = ys.map f) : xs = ys :=
  List.map_injective_iff.mpr h heq

/-- A value that may be absent is determined by whether it is there, and by what stands for it. -/
lemma map_eq_of_getD {o o' : Option α} {d : α} (hsome : o.isSome = o'.isSome)
    (h : f (o.getD d) = f (o'.getD d)) : o.map f = o'.map f := by
  cases o <;> cases o'
  · rfl
  · cases hsome
  · cases hsome
  · exact congrArg some h

lemma eq_of_getD {o o' : Option α} {d : α} (hsome : o.isSome = o'.isSome)
    (h : o.getD d = o'.getD d) : o = o' := by
  have hid := map_eq_of_getD (f := id) hsome h
  rwa [Option.map_id, id, id] at hid

/-- One flag tells one thing. -/
lemma eq_of_eq_false_iff {a b : Bool} {P : Prop} (ha : P ↔ a = false) (hb : P ↔ b = false) :
    a = b := by
  cases a <;> cases b <;> simp_all

end Values

/-! ### Marks -/

variable {α : Type u} {β : Type v} {P : β → Prop}

/-- What stands in front of the first mark ends there. -/
lemma append_cons_inj {s t : List β} {x y : β} {s' t' : List β} (hs : ∀ z ∈ s, ¬ P z)
    (ht : ∀ z ∈ t, ¬ P z) (hx : P x) (hy : P y) (h : s ++ x :: s' = t ++ y :: t') :
    s = t ∧ x = y ∧ s' = t' := by
  induction s generalizing t with
  | nil =>
      cases t with
      | nil => exact ⟨rfl, List.cons.inj h⟩
      | cons z t =>
          obtain ⟨rfl, -⟩ := List.cons.inj h
          exact absurd hx (ht x List.mem_cons_self)
  | cons z s ih =>
      cases t with
      | nil =>
          obtain ⟨rfl, -⟩ := List.cons.inj h
          exact absurd hy (hs z List.mem_cons_self)
      | cons z' t =>
          rw [List.forall_mem_cons] at hs ht
          obtain ⟨rfl, hrest⟩ := List.cons.inj h
          obtain ⟨rfl, hmarks⟩ := ih hs.2 ht.2 hrest
          exact ⟨rfl, hmarks⟩

/-- **Blocks that begin with a mark** and have none inside are determined by the row of them, and
so is what stands in front of the first. -/
theorem append_flatMap_inj {head : α → β} {tail : α → List β} (hhead : ∀ a, P (head a))
    (htail : ∀ a, ∀ z ∈ tail a, ¬ P z) {s t : List β} {xs ys : List α}
    (hs : ∀ z ∈ s, ¬ P z) (ht : ∀ z ∈ t, ¬ P z)
    (h : (s ++ xs.flatMap fun a => head a :: tail a) =
      t ++ ys.flatMap fun a => head a :: tail a) :
    s = t ∧ (xs.map fun a => (head a, tail a)) = ys.map fun a => (head a, tail a) := by
  -- what stands in front of a block is, one step later, what stands inside of the block
  induction xs generalizing s t ys with
  | nil =>
      cases ys with
      | nil =>
          rw [List.flatMap_nil, List.append_nil, List.append_nil] at h
          exact ⟨h, rfl⟩
      | cons y ys =>
          have hy : head y ∈ s := by
            rw [List.flatMap_nil, List.append_nil] at h
            rw [h]
            simp
          exact absurd (hhead y) (hs _ hy)
  | cons x xs ih =>
      cases ys with
      | nil =>
          have hx : head x ∈ t := by
            rw [List.flatMap_nil, List.append_nil] at h
            rw [← h]
            simp
          exact absurd (hhead x) (ht _ hx)
      | cons y ys =>
          rw [List.flatMap_cons, List.flatMap_cons, List.cons_append, List.cons_append] at h
          obtain ⟨hst, hheads, hrest⟩ := append_cons_inj hs ht (hhead x) (hhead y) h
          obtain ⟨htails, hblocks⟩ := ih (htail x) (htail y) hrest
          refine ⟨hst, ?_⟩
          rw [List.map_cons, List.map_cons, hheads, htails, hblocks]

/-! ### Separators -/

/-- Behind the first of several pieces, each piece stands behind a separator. -/
lemma intercalate_cons (sep x : List β) (xs : List (List β)) :
    sep.intercalate (x :: xs) = x ++ xs.flatMap (sep ++ ·) := by
  induction xs generalizing x with
  | nil => simp
  | cons y xs ih => rw [List.intercalate_cons_cons, ih, List.flatMap_cons, List.append_assoc,
      List.append_assoc]

/-- **Pieces are determined by the row of them**, if the separator between them begins with a mark
that none of them has. -/
theorem intercalate_map_inj {mark : β} {sep : List β} {f : α → List β}
    (hf : Function.Injective f) (hne : ∀ a, f a ≠ []) (hsep : mark ∉ sep)
    (hmark : ∀ a, mark ∉ f a) {xs ys : List α}
    (h : (mark :: sep).intercalate (xs.map f) = (mark :: sep).intercalate (ys.map f)) :
    xs = ys := by
  cases xs with
  | nil =>
      cases ys with
      | nil => rfl
      | cons y ys =>
          rw [List.map_cons, intercalate_cons] at h
          exact absurd (List.append_eq_nil_iff.mp h.symm).1 (hne y)
  | cons x xs =>
      cases ys with
      | nil =>
          rw [List.map_cons, intercalate_cons] at h
          exact absurd (List.append_eq_nil_iff.mp h).1 (hne x)
      | cons y ys =>
          rw [List.map_cons, List.map_cons, intercalate_cons, intercalate_cons,
            List.flatMap_map, List.flatMap_map] at h
          have hnone : ∀ a, ∀ z ∈ f a, ¬ z = mark := by
            rintro a z hz rfl
            exact hmark a hz
          have hbehind : ∀ a, ∀ z ∈ sep ++ f a, ¬ z = mark := by
            rintro a z hz rfl
            rcases List.mem_append.mp hz with hz | hz
            · exact hsep hz
            · exact hmark a hz
          have hseparator : ∀ a : α, (fun _ => mark) a = mark := fun _ => rfl
          obtain ⟨hfirst, hrest⟩ := append_flatMap_inj (P := (· = mark)) hseparator hbehind
            (hnone x) (hnone y) h
          have hpieces : Function.Injective fun a => (mark, sep ++ f a) := by
            intro a b hab
            exact hf (List.append_cancel_left (Prod.mk.inj hab).2)
          exact congrArg₂ List.cons (hf hfirst) (List.map_injective_iff.mpr hpieces hrest)

/-! ### Pieces -/

/-- Pieces that are not empty and whose lengths their first elements tell are determined by the row
of them. -/
lemma flatten_inj {width : β → ℕ} {xs ys : List (List β)}
    (hxs : ∀ x ∈ xs, ∃ b s, x = b :: s ∧ x.length = width b)
    (hys : ∀ y ∈ ys, ∃ b s, y = b :: s ∧ y.length = width b)
    (h : xs.flatten = ys.flatten) : xs = ys := by
  induction xs generalizing ys with
  | nil =>
      cases ys with
      | nil => rfl
      | cons y ys =>
          obtain ⟨b, s, rfl, -⟩ := hys y List.mem_cons_self
          cases h
  | cons x xs ih =>
      cases ys with
      | nil =>
          obtain ⟨b, s, rfl, -⟩ := hxs x List.mem_cons_self
          cases h
      | cons y ys =>
          rw [List.forall_mem_cons] at hxs hys
          obtain ⟨b, s, hx, hwidth⟩ := hxs.1
          obtain ⟨b', s', hy, hwidth'⟩ := hys.1
          rw [List.flatten_cons, List.flatten_cons] at h
          have hb : b = b' := by
            have hheads := h
            rw [hx, hy] at hheads
            exact (List.cons.inj hheads).1
          obtain ⟨hxy, hrest⟩ := List.append_inj h (by rw [hwidth, hwidth', hb])
          exact congrArg₂ List.cons hxy (ih hxs.2 hys.2 hrest)

end WireGuardControl.Table

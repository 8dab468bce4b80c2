import Mathlib.Tactic
import WireGuardControl.Proofs.Net.Address
/-!
Readers of addresses look no further than the address.

* `Local`: a reader that takes its value off the head of a text, and for which text that cannot
  belong to an address is as good as the end. Readers are put together from smaller ones with
  `Local.bind`, `Local.behind` and `Local.orElse`.
* `IPv4.local_read`, `IPv6.local_read`: both readers of addresses are local. A run of groups is the
  reader `IPv6.readRun`, whose two cases are `IPv6.readRun_succ`.
* `IPv6.exists_of_read`: in front of other text stands an address and nothing more, in which no
  mark occurs that ends an address.
-/

namespace WireGuardControl

open Text Address IPv6

/-! ### Marks -/

lemma Address.expect_eq_some_iff {c : Char} {s t : List Char} :
    expect c s = some t ↔ s = c :: t := by
  cases s with
  | nil => simp [expect]
  | cons x s => simp [expect]

/-- A mark is looked for in a text alone, if what follows does not begin with it. -/
lemma Address.expect_append {c : Char} {rest : List Char} (h : rest.head? ≠ some c)
    (s : List Char) : expect c (s ++ rest) = (expect c s).map (· ++ rest) := by
  cases s with
  | nil =>
      rw [List.nil_append, expect, Option.map_none]
      by_contra hne
      obtain ⟨t, ht⟩ := Option.ne_none_iff_exists'.mp hne
      rw [expect_eq_some_iff.mp ht] at h
      exact h rfl
  | cons x s =>
      rw [List.cons_append, expect, expect]
      split_ifs <;> rfl

/-! ### Local readers -/

/-- A reader of something at the head of a text for which text that cannot belong to an address is
as good as the end. -/
structure Local {α : Type} (p : List Char → Option (α × List Char)) : Prop where
  append : ∀ s {rest}, EndsAddress rest → p (s ++ rest) = (p s).map (Prod.map id (· ++ rest))
  suffix : ∀ {s a rest}, p s = some (a, rest) → rest <:+ s

namespace Local

variable {α β : Type} {p : List Char → Option (α × List Char)}

/-- A reader of nothing. -/
lemma value (a : α) : Local fun s => some (a, s) where
  append _ _ _ := rfl
  suffix h := by
    obtain ⟨-, rfl⟩ := Prod.mk.inj (Option.some.inj h)
    exact List.suffix_rfl

/-- A reader that always fails. -/
lemma fail : Local fun _ : List Char => (none : Option (α × List Char)) where
  append _ _ _ := rfl
  suffix h := by cases h

/-- One reader behind another. -/
lemma bind {q : α → List Char → Option (β × List Char)} (hp : Local p) (hq : ∀ a, Local (q a)) :
    Local fun s => (p s).bind fun r => q r.1 r.2 where
  append s rest hrest := by
    simp only [hp.append s hrest, Option.bind_map, Option.map_bind, Function.comp_def, Prod.map_fst,
      Prod.map_snd, id, (hq _).append _ hrest]
  suffix h := by
    obtain ⟨⟨a, middle⟩, hfirst, hsecond⟩ := Option.bind_eq_some_iff.mp h
    exact ((hq a).suffix hsecond).trans (hp.suffix hfirst)

/-- A reader whose value is made into another. -/
lemma map (f : α → β) (hp : Local p) : Local fun s => (p s).map fun r => (f r.1, r.2) where
  append s rest hrest := by
    simp only [hp.append s hrest, Option.map_map, Function.comp_def, Prod.map_fst, Prod.map_snd, id,
      Prod.map_apply]
  suffix h := by
    obtain ⟨⟨a, middle⟩, hread, hrest⟩ := Option.map_eq_some_iff.mp h
    obtain ⟨-, rfl⟩ := Prod.mk.inj hrest
    exact hp.suffix hread

/-- A reader that makes up for another that fails. -/
lemma orElse {q : List Char → Option (α × List Char)} (hp : Local p) (hq : Local q) :
    Local fun s => (p s).orElse fun _ => q s where
  append s rest hrest := by
    rw [hp.append s hrest]
    cases p s with
    | none => exact hq.append s hrest
    | some r => rfl
  suffix {s a rest} h := by
    cases hread : p s with
    | none =>
        rw [hread] at h
        exact hq.suffix h
    | some r =>
        rw [hread] at h
        exact hp.suffix (hread.trans h)

/-- A reader behind a mark that may belong to an address. -/
lemma behind {c : Char} (hc : ∀ {rest}, EndsAddress rest → rest.head? ≠ some c)
    (hp : Local p) : Local fun s => (expect c s).bind p where
  append s rest hrest := by
    simp only [expect_append (hc hrest), Option.bind_map, Option.map_bind, Function.comp_def,
      hp.append _ hrest]
  suffix h := by
    obtain ⟨t, hmark, hread⟩ := Option.bind_eq_some_iff.mp h
    obtain rfl := expect_eq_some_iff.mp hmark
    exact (hp.suffix hread).trans (List.suffix_cons c t)

/-- What is read in front of text that cannot belong to it is read there as a whole. -/
lemma of_append (hp : Local p) {front rest : List Char} {a : α} (hrest : EndsAddress rest)
    (h : p (front ++ rest) = some (a, rest)) : p front = some (a, []) := by
  rw [hp.append front hrest] at h
  obtain ⟨⟨b, middle⟩, hread, hmiddle⟩ := Option.map_eq_some_iff.mp h
  obtain ⟨rfl, hnil⟩ := Prod.mk.inj hmiddle
  obtain rfl := List.append_left_eq_self.mp hnil
  exact hread

/-- In a text that is read to its end there is no mark that would have ended it before. -/
lemma notMem (hp : Local p) {s : List Char} {a : α} (h : p s = some (a, [])) {mark : Char}
    (hmark : ∀ rest, EndsAddress (mark :: rest)) : mark ∉ s := by
  intro hmem
  obtain ⟨front, back, rfl⟩ := List.append_of_mem hmem
  rw [hp.append front (hmark back)] at h
  obtain ⟨⟨b, middle⟩, -, hmiddle⟩ := Option.map_eq_some_iff.mp h
  simpa using (Prod.mk.inj hmiddle).2

end Local

/-! ### Numbers and IPv4 addresses -/

section Stops

variable {base : ℕ} {rest : List Char}

lemma takeWhile_append_stops (s : List Char) (h : Stops base rest) :
    (s ++ rest).takeWhile (fun c => (digitValue? base c).isSome) =
      s.takeWhile fun c => (digitValue? base c).isSome := by
  induction s with
  | nil => exact @takeWhile_append_of_stops base [] rest (by simp) h
  | cons c s ih => rw [List.cons_append, List.takeWhile_cons, List.takeWhile_cons, ih]

lemma dropWhile_append_stops (s : List Char) (h : Stops base rest) :
    (s ++ rest).dropWhile (fun c => (digitValue? base c).isSome) =
      s.dropWhile (fun c => (digitValue? base c).isSome) ++ rest := by
  induction s with
  | nil => exact @dropWhile_append_of_stops base [] rest (by simp) h
  | cons c s ih =>
      rw [List.cons_append, List.dropWhile_cons, List.dropWhile_cons, ih]
      split_ifs <;> rfl

end Stops

/-- A number ends where no digit follows. -/
lemma Address.local_readNumber {f : NumberForm}
    (h : ∀ {rest}, EndsAddress rest → Stops f.base rest) : Local (readNumber f) where
  append s rest hrest := by
    simp only [readNumber, takeWhile_append_stops s (h hrest), dropWhile_append_stops s (h hrest)]
    split_ifs <;> rfl
  suffix hread := by
    rw [rest_of_readNumber hread]
    exact List.dropWhile_suffix _

lemma IPv4.local_readOctet (g : Grammar) : Local (readOctet g) :=
  (local_readNumber fun h => stops_ten h.stops).map UInt8.ofNat

/-- **The reader of IPv4 addresses is local.** -/
lemma IPv4.local_read (g : Grammar) : Local (IPv4.read g) :=
  (local_readOctet g).bind fun a => .behind (fun h => h.no_dot) <|
    (local_readOctet g).bind fun b => .behind (fun h => h.no_dot) <|
      (local_readOctet g).bind fun c => .behind (fun h => h.no_dot) <|
        (local_readOctet g).bind fun d => .value (IPv4.mk a b c d)

/-! ### IPv6 addresses -/

namespace IPv6

lemma local_readGroup : Local readGroup :=
  (local_readNumber (f := ⟨16, some 4, 65535, true⟩) fun h => h.stops).map UInt16.ofNat

/-- A run of groups as a reader, of the groups and of whether the last two were dotted. -/
def readRun (g : Grammar) (most : ℕ) (first : Bool) (s : List Char) :
    Option ((List UInt16 × Bool) × List Char) :=
  let run := readGroups g most first s
  some ((run.groups, run.dotted), run.rest)

/-- The groups of an IPv4 address. -/
def dottedGroups (x : IPv4) : List UInt16 × Bool :=
  ([Bytes.toUInt16BE [x.a, x.b], Bytes.toUInt16BE [x.c, x.d]], true)

/-- What a run goes on with: an IPv4 address, where there is room for two groups, or a group and
more. -/
def readNext (g : Grammar) (most : ℕ) (s : List Char) : Option ((List UInt16 × Bool) × List Char) :=
  ((if most = 0 then none else IPv4.read g s).map fun r => (dottedGroups r.1, r.2)).orElse fun _ =>
    (readGroup s).bind fun r =>
      (readRun g most false r.2).map fun q => ((r.1 :: q.1.1, q.1.2), q.2)

/-- A run goes on, behind a colon if it has begun, or is at its end. -/
lemma readRun_succ (g : Grammar) (most : ℕ) (first : Bool) (s : List Char) :
    readRun g (most + 1) first s =
      ((if first then some s else expect ':' s).bind (readNext g most)).orElse fun _ =>
        some (([], false), s) := by
  rw [readRun, readGroups]
  cases if first then some s else expect ':' s with
  | none => rfl
  | some body =>
      simp only [Option.bind_some, readNext]
      cases if most = 0 then none else IPv4.read g body with
      | some r => rfl
      | none =>
          cases readGroup body with
          | none => rfl
          | some r => rfl

/-- **A run of groups is read locally.** -/
lemma local_readRun (g : Grammar) (most : ℕ) (first : Bool) : Local (readRun g most first) := by
  induction most generalizing first with
  | zero => exact .value ([], false)
  | succ most ih =>
      have hdotted : Local fun s => if most = 0 then none else IPv4.read g s := by
        by_cases hmost : most = 0
        · simpa only [if_pos hmost] using Local.fail
        · simpa only [if_neg hmost] using IPv4.local_read g
      have hnext : Local (readNext g most) :=
        (hdotted.map dottedGroups).orElse <|
          local_readGroup.bind fun x => (ih false).map fun q => (x :: q.1, q.2)
      have hbody : Local fun s =>
          (if first then some s else expect ':' s).bind (readNext g most) := by
        cases first with
        | true => exact hnext
        | false => exact .behind (fun h => h.no_colon) hnext
      rw [funext (readRun_succ g most first)]
      exact hbody.orElse (.value ([], false))

/-- What is read behind the groups in front of a double colon: the groups behind it, and the zero
groups that are missing. -/
def readGap (g : Grammar) (front : List UInt16) (s : List Char) : Option (IPv6 × List Char) :=
  (expect ':' s).bind fun s => (expect ':' s).bind fun s =>
    (readRun g (8 - front.length - (if g.emptyGap then 0 else 1)) true s).bind fun back =>
      (ofGroups? (front ++ List.replicate (8 - front.length - back.1.1.length) 0 ++ back.1.1)).map
        fun x => (x, back.2)

/-- An address is eight groups, or it has a double colon. -/
lemma read_eq (g : Grammar) (s : List Char) :
    read g s = (readRun g 8 true s).bind fun front =>
      if front.1.1.length = 8 then (ofGroups? front.1.1).map fun x => (x, front.2)
      else if front.1.2 then none else readGap g front.1.1 front.2 := by
  rw [read, readRun, Option.bind_some]
  by_cases hcount : (readGroups g 8 true s).groups.length = 8
  · simp only [if_pos hcount, Option.map_eq_bind]
    rfl
  · by_cases hdotted : (readGroups g 8 true s).dotted
    · simp only [if_neg hcount, if_pos hdotted]
      rfl
    · simp only [if_neg hcount, if_neg hdotted, readGap, readRun, Option.map_eq_bind,
        Option.bind_some]
      rfl

lemma local_ofGroups? (gs : List UInt16) : Local fun s => (ofGroups? gs).map fun x => (x, s) := by
  cases ofGroups? gs with
  | none => exact .fail
  | some x => exact .value x

lemma local_readGap (g : Grammar) (front : List UInt16) : Local (readGap g front) :=
  .behind (fun h => h.no_colon) <| .behind (fun h => h.no_colon) <|
    (local_readRun g (8 - front.length - (if g.emptyGap then 0 else 1)) true).bind fun back =>
      local_ofGroups? (front ++ List.replicate (8 - front.length - back.1.length) 0 ++ back.1)

/-- **The reader of IPv6 addresses is local.** -/
lemma local_read (g : Grammar) : Local (read g) := by
  rw [funext (read_eq g)]
  refine (local_readRun g 8 true).bind (q := fun front s =>
    if front.1.length = 8 then (ofGroups? front.1).map fun x => (x, s)
    else if front.2 then none else readGap g front.1 s) fun front => ?_
  split_ifs
  · exact local_ofGroups? front.1
  · exact .fail
  · exact local_readGap g front.1

/-- **In front of text that cannot belong to an address** stands an address and nothing more, in
which no mark occurs that ends one. -/
lemma exists_of_read {g : Grammar} {s rest : List Char} {x : IPv6} (h : read g s = some (x, rest))
    (hrest : EndsAddress rest) :
    ∃ front, s = front ++ rest ∧ read? g front = some x ∧
      ∀ mark, (∀ t, EndsAddress (mark :: t)) → mark ∉ front := by
  obtain ⟨front, rfl⟩ := (local_read g).suffix h
  have hread := (local_read g).of_append hrest h
  refine ⟨front, rfl, ?_, fun mark hmark => (local_read g).notMem hread hmark⟩
  rw [read?, hread]

end IPv6

end WireGuardControl

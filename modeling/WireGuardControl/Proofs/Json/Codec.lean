import WireGuardControl.Json.Record
import WireGuardControl.Proofs.Json.Numeral
import WireGuardControl.Proofs.Tables
/-!
Values read back from their JSON.

* `Reader.Takes r v a`: the reader takes the text of `v`, whatever stands behind it, for `a`.
* `Codec.Restores c a`: the codec writes `a` as some JSON, and takes this for `a` again. Each way to
  build a codec keeps that: `restores_bool`, `restores_natural`, `Restores.via`, `restores_spelled`,
  `Restores.optional`, `Restores.list` and `restores_choice`.
* `Restores.parse`: so a whole text reads back.
-/

namespace WireGuardControl.Json

open Text

variable {α β : Type}

/-! ### The beginning of a value -/

/-- A value begins with a mark or a letter that ends no list, and only null begins with an `n`. -/
lemma Value.exists_compact_eq_cons (v : Value) :
    ∃ c s, v.compact = c :: s ∧ isBlank c = false ∧ c ≠ ']' ∧ (v ≠ .null → c ≠ 'n') := by
  cases v with
  | null => exact ⟨'n', _, rfl, by decide, by decide, fun h => absurd rfl h⟩
  | bool b =>
      cases b
      · exact ⟨'f', _, rfl, by decide, by decide, fun _ => by decide⟩
      · exact ⟨'t', _, rfl, by decide, by decide, fun _ => by decide⟩
  | number n =>
      obtain ⟨c, s, hs⟩ := List.exists_cons_of_ne_nil (Decimal.ofNat_ne_nil n)
      obtain ⟨d, hd, rfl⟩ := Decimal.mem_ofNat (n := n) (c := c) (by simp [hs])
      refine ⟨_, s, hs, ?_, ?_, fun _ => ?_⟩
      all_goals interval_cases d <;> decide
  | string s => exact ⟨'"', _, rfl, by decide, by decide, fun _ => by decide⟩
  | list items => exact ⟨'[', _, rfl, by decide, by decide, fun _ => by decide⟩
  | object members => exact ⟨'\x7b', _, rfl, by decide, by decide, fun _ => by decide⟩

/-! ### Readers -/

/-- A reader takes the text of a value, in front of anything that may stand behind one, for `a`. -/
def Reader.Takes (r : Reader α) (v : Value) (a : α) : Prop :=
  ∀ rest, EndsValue rest → r.read (v.compact ++ rest) = .ok (a, rest)

namespace Reader

lemma read_chars : chars.read = readString := rfl

lemma read_optional (r : Reader α) : r.optional.read = r.readOptional := rfl

lemma read_list (r : Reader α) : r.list.read = r.readList := rfl

lemma read_choice (names : List (String × α)) : (choice names).read = readChoice names := rfl

lemma takes_bool (b : Bool) : bool.Takes (.bool b) b := by
  intro rest _
  cases b <;> rfl

lemma takes_natural {limit n : ℕ} (hlimit : n ≤ limit) (hn : n < UInt64.size) :
    (natural limit).Takes (.number n) n :=
  fun _ hrest => readNatural_ofNat hlimit hn hrest

lemma takes_chars (s : List Char) : chars.Takes (.string (String.ofList s)) s := by
  intro rest _
  have htext : (Value.string (String.ofList s)).compact ++ rest =
      '"' :: (s.flatMap escaped ++ '"' :: rest) := by
    rw [Value.compact, String.toList_ofList, quoted_append]
  rw [htext, read_chars, readString, skipBlank_cons (by decide)]
  exact readChars_flatMap_escaped s rest

lemma Takes.checked {r : Reader α} {v : Value} {a : α} {f : α → Option β} {b : β}
    (h : r.Takes v a) (hf : f a = some b) : (r.checked f).Takes v b := by
  intro rest hrest
  simp only [Reader.checked, h rest hrest, hf]

lemma takes_optional_null (r : Reader α) : r.optional.Takes .null none := by
  intro rest _
  rfl

lemma Takes.optional {r : Reader α} {v : Value} {a : α} (h : r.Takes v a) (hv : v ≠ .null) :
    r.optional.Takes v (some a) := by
  intro rest hrest
  obtain ⟨c, s, hs, hblank, -, hn⟩ := v.exists_compact_eq_cons
  have hread := h rest hrest
  rw [hs, List.cons_append] at hread ⊢
  rw [read_optional, readOptional, skipBlank_cons hblank]
  split
  · rename_i t heq
    exact absurd (List.cons.inj heq).1 (hn hv)
  · rw [hread]
    rfl

/-! ### Lists -/

/-- The further items of a list, each behind its comma. -/
def furtherItems (vs : List Value) : List Char := vs.flatMap fun v => ',' :: v.compact

lemma compactItems_eq_map (vs : List Value) : Value.compactItems vs = vs.map Value.compact := by
  induction vs with
  | nil => rfl
  | cons v vs ih => rw [Value.compactItems, ih, List.map_cons]

lemma compact_list_cons (v : Value) (vs : List Value) (rest : List Char) :
    (Value.list (v :: vs)).compact ++ rest =
      '[' :: (v.compact ++ (furtherItems vs ++ ']' :: rest)) := by
  rw [Value.compact, compactItems_eq_map, List.map_cons, Table.intercalate_cons, List.flatMap_map]
  simp [furtherItems]

lemma endsValue_furtherItems (vs : List Value) (rest : List Char) :
    EndsValue (furtherItems vs ++ ']' :: rest) := by
  cases vs with
  | nil => exact .bracket rest
  | cons v vs => exact .comma _

lemma listHead_close (first : Bool) (s : List Char) :
    listHead first (']' :: s) = .ok (.close (']' :: s)) := rfl

lemma listHead_first (v : Value) (s : List Char) :
    listHead true (v.compact ++ s) = .ok (.item (v.compact ++ s)) := by
  obtain ⟨c, t, ht, hblank, hclose, -⟩ := v.exists_compact_eq_cons
  rw [ht, List.cons_append, listHead, skipBlank_cons hblank]
  simp only [if_neg hclose, if_true]

lemma listHead_further (v : Value) (s : List Char) :
    listHead false (',' :: (v.compact ++ s)) = .ok (.item (v.compact ++ s)) := by
  obtain ⟨c, t, ht, hblank, hclose, -⟩ := v.exists_compact_eq_cons
  rw [ht, List.cons_append, listHead, skipBlank_cons (by decide)]
  simp [skipBlank_cons hblank, hclose]

lemma readItems_close (r : Reader α) (first : Bool) (s : List Char) :
    r.readItems first (']' :: s) = .ok ([], s) := by
  rw [readItems]
  split
  all_goals
    rename_i heq
    rw [listHead_close] at heq
    cases heq
  rfl

/-- An item at the front of a text is read, and then those behind it. -/
lemma readItems_item {r : Reader α} {v : Value} {a : α} {first : Bool} {s rest : List Char}
    (hhead : listHead first s = .ok (.item (v.compact ++ rest))) (h : r.Takes v a)
    (hrest : EndsValue rest) :
    r.readItems first s = (r.readItems false rest).map fun t => (a :: t.1, t.2) := by
  have hread := h rest hrest
  rw [readItems]
  split
  · rename_i heq
    rw [hhead] at heq
    cases heq
  · rename_i heq
    rw [hhead] at heq
    cases heq
  · rename_i text heq
    rw [hhead] at heq
    cases heq
    split
    · rename_i hfault
      rw [hread] at hfault
      cases hfault
    · rename_i hok
      rw [hread] at hok
      cases hok
      rfl

lemma readItems_furtherItems {r : Reader α} {vs : List Value} {l : List α}
    (h : List.Forall₂ r.Takes vs l) (rest : List Char) :
    r.readItems false (furtherItems vs ++ ']' :: rest) = .ok (l, rest) := by
  induction h with
  | nil => exact readItems_close r false rest
  | @cons v a vs l hv _ ih =>
      have htext : furtherItems (v :: vs) ++ ']' :: rest =
          ',' :: (v.compact ++ (furtherItems vs ++ ']' :: rest)) := by
        simp [furtherItems]
      rw [htext, readItems_item (listHead_further v _) hv (endsValue_furtherItems vs rest), ih]
      rfl

/-- **A list of values is taken** for the list of what they are taken for. -/
lemma Takes.list {r : Reader α} {vs : List Value} {l : List α}
    (h : List.Forall₂ r.Takes vs l) : r.list.Takes (.list vs) l := by
  intro rest _
  cases h with
  | nil => exact readItems_close r true rest
  | @cons v a vs l hv hvs =>
      rw [compact_list_cons, read_list, readList, skipBlank_cons (by decide)]
      simp only
      rw [readItems_item (listHead_first v _) hv (endsValue_furtherItems vs rest),
        readItems_furtherItems hvs]
      rfl

/-! ### Choices -/

lemma lookup_name {values : List α} {name : α → String} {a : α} (ha : a ∈ values)
    (hname : ∀ b ∈ values, name b = name a → b = a) :
    (values.map fun b => (name b, b)).lookup (name a) = some a := by
  induction values with
  | nil => cases ha
  | cons b values ih =>
      rw [List.map_cons, List.lookup_cons]
      by_cases hb : name a = name b
      · simp [hb, hname b List.mem_cons_self hb.symm]
      · have hmem : a ∈ values := (List.mem_cons.mp ha).resolve_left fun h => hb (by rw [h])
        rw [beq_false_of_ne hb]
        exact ih hmem fun d hd => hname d (List.mem_cons_of_mem b hd)

/-- A name that belongs to one value only is taken for it. -/
lemma takes_choice {values : List α} {name : α → String} {a : α} (ha : a ∈ values)
    (hname : ∀ b ∈ values, name b = name a → b = a) :
    (choice (values.map fun b => (name b, b))).Takes (.string (name a)) a := by
  intro rest _
  rw [Value.compact, quoted_append, read_choice, readChoice, skipBlank_cons (by decide)]
  simp only [readChars_flatMap_escaped, bind, Except.bind, chosen, String.ofList_toList,
    lookup_name ha hname]
  rfl

end Reader

/-! ### Codecs -/

namespace Codec

/-- A codec writes `a` as some value and takes this value for `a` again. -/
def Restores (c : Codec α) (a : α) : Prop := ∃ v, c.write a = .ok v ∧ c.reader.Takes v a

/-- A codec never writes a null. -/
def NeverNull (c : Codec α) : Prop := ∀ a, c.write a ≠ .ok .null

variable {c : Codec α}

lemma restores_bool (b : Bool) : bool.Restores b := ⟨_, rfl, Reader.takes_bool b⟩

lemma restores_natural {limit n : ℕ} (hlimit : n ≤ limit) (hn : n < UInt64.size) :
    (natural limit).Restores n :=
  ⟨_, rfl, Reader.takes_natural hlimit hn⟩

lemma Restores.via {f : β → α} {g : α → Option β} {b : β} (h : c.Restores (f b))
    (hg : g (f b) = some b) : (c.via f g).Restores b := by
  obtain ⟨v, hwrite, hread⟩ := h
  exact ⟨v, hwrite, hread.checked hg⟩

/-- A value is restored that its spelling gives back. -/
lemma restores_spelled {f : β → String} {g : List Char → Option β} {b : β}
    (h : g (f b).toList = some b) : (spelled f g).Restores b :=
  Restores.via ⟨_, rfl, Reader.takes_chars _⟩ h

lemma neverNull_spelled (f : β → String) (g : List Char → Option β) : (spelled f g).NeverNull :=
  nofun

lemma NeverNull.via (h : c.NeverNull) (f : β → α) (g : α → Option β) : (c.via f g).NeverNull :=
  fun b => h (f b)

lemma neverNull_natural (limit : ℕ) : (natural limit).NeverNull := nofun

/-- **Values that may be absent are restored** if no value that is present is written as null. -/
lemma Restores.optional {o : Option α} (hnull : c.NeverNull) (h : ∀ a ∈ o, c.Restores a) :
    c.optional.Restores o := by
  cases o with
  | none => exact ⟨.null, rfl, Reader.takes_optional_null c.reader⟩
  | some a =>
      obtain ⟨v, hwrite, hread⟩ := h a rfl
      refine ⟨v, hwrite, hread.optional ?_⟩
      rintro rfl
      exact hnull a hwrite

/-- **Lists of values are restored.** -/
lemma Restores.list {l : List α} (h : ∀ a ∈ l, c.Restores a) : c.list.Restores l := by
  have hvalues : ∃ vs, l.mapM c.write = .ok vs ∧ List.Forall₂ c.reader.Takes vs l := by
    induction l with
    | nil => exact ⟨[], rfl, .nil⟩
    | cons a l ih =>
        obtain ⟨ha, hl⟩ := List.forall_mem_cons.mp h
        obtain ⟨v, hwrite, hread⟩ := ha
        obtain ⟨vs, hwrites, hreads⟩ := ih hl
        refine ⟨v :: vs, ?_, .cons hread hreads⟩
        rw [List.mapM_cons, hwrite, hwrites]
        rfl
  obtain ⟨vs, hwrites, hreads⟩ := hvalues
  refine ⟨.list vs, ?_, .list hreads⟩
  change (l.mapM c.write).map Value.list = _
  rw [hwrites]
  rfl

lemma restores_choice {values : List α} {name : α → String} {a : α} (ha : a ∈ values)
    (hname : ∀ b ∈ values, name b = name a → b = a) : (choice values name).Restores a :=
  ⟨_, rfl, Reader.takes_choice ha hname⟩

/-- **A value that is restored has a text that reads back.** -/
lemma Restores.parse {a : α} (h : c.Restores a) : ∃ s, c.text a = .ok s ∧ c.parse s = .ok a := by
  obtain ⟨v, hwrite, hread⟩ := h
  have hwhole := hread [] .nil
  rw [List.append_nil] at hwhole
  refine ⟨v.compact, by rw [Codec.text, hwrite]; rfl, ?_⟩
  rw [Codec.parse, Reader.parse, hwhole]
  rfl

end Codec

end WireGuardControl.Json

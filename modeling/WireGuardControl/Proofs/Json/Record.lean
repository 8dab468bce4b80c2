import WireGuardControl.Proofs.Json.Codec
/-!
Records read back from their objects.

* `Field.Carries f x put`: the field writes its part of `x`, and what it reads there does `put` to a
  record.
* `Entry`: a field with what it writes and with what it reads. `readMember_text`: a member is read
  as its entry, and `readMembers_text` all members one after the other.
* `restores_codec`: a record is restored if its fields have different names, if what they read turns
  the empty record into it, and if it is valid.
-/

namespace WireGuardControl.Json

variable {α σ : Type}

/-! ### Fields -/

namespace Field

/-- A field writes its part of `x`, and what it reads there does `put` to a record. -/
def Carries (f : Field σ) (x : σ) (put : σ → σ) : Prop :=
  ∃ v, f.write x = .ok v ∧ f.reader.Takes v put

lemma carries_of {name : String} {c : Codec α} {get : σ → α} {put : α → σ → σ} {x : σ}
    (h : c.Restores (get x)) : (Field.of name c get put).Carries x (put (get x)) := by
  obtain ⟨v, hwrite, hread⟩ := h
  exact ⟨v, hwrite, hread.checked (f := fun a => some (put a)) rfl⟩

lemma Carries.leftOut {f : Field σ} {x : σ} {put : σ → σ} (h : f.Carries x put) :
    f.leftOut.Carries x put := h

/-- Of fields with different names, each is found by its own. -/
lemma find?_name {fields : List (Field σ)} (hnames : (fields.map (·.name)).Nodup) {f : Field σ}
    (hf : f ∈ fields) : fields.find? (fun g => g.name.toList = f.name.toList) = some f := by
  induction fields with
  | nil => cases hf
  | cons g fields ih =>
      obtain ⟨hnotMem, hnames⟩ := List.nodup_cons.mp hnames
      rcases List.mem_cons.mp hf with rfl | hf
      · exact List.find?_cons_of_pos (by simp)
      · have hne : g.name ≠ f.name := fun h =>
          hnotMem (List.mem_map.mpr ⟨f, hf, h.symm⟩)
        rw [List.find?_cons_of_neg (by simpa [String.toList_inj] using hne), ih hnames hf]

end Field

/-! ### Members -/

/-- A field with what it writes of a record and with what this, as it is read, does to one. -/
structure Entry (σ : Type) where
  /-- The field. -/
  field : Field σ
  /-- What the field writes. -/
  value : Value
  /-- What the field does to a record. -/
  put : σ → σ

namespace Entry

/-- The field writes of `x` what the entry has, and reads it as the entry says. -/
def Fits (e : Entry σ) (x : σ) : Prop :=
  e.field.write x = .ok e.value ∧ e.field.reader.Takes e.value e.put

/-- The member behind its opening quote. -/
def memberText (e : Entry σ) : List Char :=
  e.field.name.toList.flatMap escaped ++ '"' :: ':' :: e.value.compact

/-- The further members of an object, each behind its comma. -/
def further (es : List (Entry σ)) : List Char := es.flatMap fun e => ',' :: '"' :: e.memberText

/-- The members that are written. -/
def members (es : List (Entry σ)) : List (String × Value) := es.map fun e => (e.field.name, e.value)

lemma exists_of_carries {x : σ} {fields : List (Field σ)} {puts : List (σ → σ)}
    (h : List.Forall₂ (fun f put => f.Carries x put) fields puts) :
    ∃ es : List (Entry σ), es.map (·.field) = fields ∧ es.map (·.put) = puts ∧
      ∀ e ∈ es, e.Fits x := by
  induction h with
  | nil => exact ⟨[], rfl, rfl, by simp⟩
  | @cons f put fields puts hf _ ih =>
      obtain ⟨v, hv⟩ := hf
      obtain ⟨es, rfl, rfl, hes⟩ := ih
      exact ⟨⟨f, v, put⟩ :: es, rfl, rfl, List.forall_mem_cons.mpr ⟨hv, hes⟩⟩

lemma compactMembers_members (es : List (Entry σ)) :
    Value.compactMembers (members es) = es.map fun e => '"' :: e.memberText := by
  induction es with
  | nil => rfl
  | cons e es ih =>
      rw [members, List.map_cons, Value.compactMembers, ← members, ih, List.map_cons,
        quoted_append, memberText]

lemma compact_object_cons (e : Entry σ) (es : List (Entry σ)) (rest : List Char) :
    (Value.object (members (e :: es))).compact ++ rest =
      '\x7b' :: '"' :: (e.memberText ++ (further es ++ '\x7d' :: rest)) := by
  rw [Value.compact, compactMembers_members, List.map_cons, Table.intercalate_cons,
    List.flatMap_map]
  simp [further]

end Entry

namespace Record

open Entry

variable {r : Record σ} {x : σ}

lemma mapM_write {es : List (Entry σ)} (hes : ∀ e ∈ es, e.Fits x) :
    (es.map (·.field)).mapM (fun f => (f.write x).map fun v => (f.name, v)) = .ok (members es) := by
  induction es with
  | nil => rfl
  | cons e es ih =>
      obtain ⟨he, hes⟩ := List.forall_mem_cons.mp hes
      rw [List.map_cons, List.mapM_cons, he.1, ih hes]
      rfl

lemma write_eq {es : List (Entry σ)} (hfields : es.map (·.field) = r.fields)
    (hes : ∀ e ∈ es, e.Fits x) : r.write x = .ok (.object (members es)) := by
  simp only [write, ← hfields, mapM_write hes]
  rfl

/-! ### Reading -/

/-- The progress behind one more member. -/
def Progress.take (p : Progress σ) (e : Entry σ) : Progress σ :=
  ⟨e.field.name :: p.names, e.put p.record⟩

lemma Progress.foldl_take (p : Progress σ) (es : List (Entry σ)) :
    es.foldl take p = ⟨(es.map (·.field.name)).reverse ++ p.names,
      (es.map (·.put)).foldl (fun y put => put y) p.record⟩ := by
  induction es generalizing p with
  | nil => rfl
  | cons e es ih =>
      rw [List.foldl_cons, ih]
      simp [take]

/-- **A member is read as its entry** if no field of its name has been read. -/
lemma readMember_text (hnames : (r.fields.map (·.name)).Nodup) {e : Entry σ}
    (he : e.field ∈ r.fields) (hfits : e.Fits x) {p : Progress σ} (hp : e.field.name ∉ p.names)
    {rest : List Char} (hrest : EndsValue rest) :
    r.readMember p (e.memberText ++ rest) = .ok (p.take e, rest) := by
  have htext : e.memberText ++ rest =
      e.field.name.toList.flatMap escaped ++ '"' :: ':' :: (e.value.compact ++ rest) := by
    rw [memberText, List.append_assoc, List.cons_append, List.cons_append]
  rw [htext, readMember, readChars_flatMap_escaped]
  simp only [bind, Except.bind, Field.find?_name hnames he, if_neg hp,
    expect_cons (show isBlank ':' = false by decide), hfits.2 rest hrest]
  rfl

/-- The last member is read, and then the object is complete. -/
lemma readMembers_last {p p' : Progress σ} {s rest : List Char}
    (h : r.readMember p s = .ok (p', '\x7d' :: rest)) :
    r.readMembers p s = (r.complete p').map (·, rest) := by
  rw [readMembers]
  split
  · rename_i heq
    rw [h] at heq
    cases heq
  · rename_i q s₁ heq
    rw [h] at heq
    cases heq
    rfl

/-- A member is read, and then those behind its comma. -/
lemma readMembers_comma {p p' : Progress σ} {s rest : List Char}
    (h : r.readMember p s = .ok (p', ',' :: '"' :: rest)) :
    r.readMembers p s = r.readMembers p' rest := by
  rw [readMembers]
  split
  · rename_i heq
    rw [h] at heq
    cases heq
  · rename_i q s₁ heq
    rw [h] at heq
    cases heq
    rfl

/-- **The members of an object are read** one after the other. -/
lemma readMembers_text (hnames : (r.fields.map (·.name)).Nodup) {e : Entry σ} {es : List (Entry σ)}
    (hnew : ((e :: es).map (·.field.name)).Nodup) {p : Progress σ}
    (hes : ∀ d ∈ e :: es, d.field ∈ r.fields ∧ d.Fits x ∧ d.field.name ∉ p.names)
    (rest : List Char) :
    r.readMembers p (e.memberText ++ (further es ++ '\x7d' :: rest)) =
      (r.complete ((e :: es).foldl Progress.take p)).map (·, rest) := by
  induction es generalizing e p with
  | nil =>
      obtain ⟨hfield, hfits, hp⟩ := hes e List.mem_cons_self
      exact readMembers_last (readMember_text hnames hfield hfits hp (.brace rest))
  | cons d es ih =>
      obtain ⟨⟨hfield, hfits, hp⟩, hes⟩ := List.forall_mem_cons.mp hes
      obtain ⟨hother, hnew⟩ := List.nodup_cons.mp hnew
      have htext : further (d :: es) ++ '\x7d' :: rest =
          ',' :: '"' :: (d.memberText ++ (further es ++ '\x7d' :: rest)) := by
        simp [further]
      rw [htext, readMembers_comma (readMember_text hnames hfield hfits hp (.comma _))]
      refine ih hnew fun c hc => ⟨(hes c hc).1, (hes c hc).2.1, fun hmem => ?_⟩
      have hne : e.field.name ≠ c.field.name := fun heq =>
        hother (List.mem_map.mpr ⟨c, hc, heq.symm⟩)
      rcases List.mem_cons.mp hmem with heq | hmem
      · exact hne heq.symm
      · exact (hes c hc).2.2 hmem

lemma read_codec (r : Record σ) : r.codec.reader.read = r.read := rfl

/-- The object of some entries is read by its members, all of which have to be there. -/
lemma read_object (hnames : (r.fields.map (·.name)).Nodup) {es : List (Entry σ)}
    (hes : es.map (·.field) = r.fields) (hfits : ∀ e ∈ es, e.Fits x) (rest : List Char) :
    r.read ((Value.object (members es)).compact ++ rest) =
      (r.complete (es.foldl Progress.take ⟨[], r.start⟩)).map (·, rest) := by
  have hnew : (es.map (·.field.name)).Nodup := by
    rwa [← hes, List.map_map] at hnames
  cases es with
  | nil => rfl
  | cons e es =>
      have hall : ∀ d ∈ e :: es, d.field ∈ r.fields ∧ d.Fits x ∧ d.field.name ∉ [] := fun d hd =>
        ⟨hes ▸ List.mem_map_of_mem hd, hfits d hd, List.not_mem_nil⟩
      rw [compact_object_cons, read, skipBlank_cons (by decide)]
      simp only
      rw [readObject, skipBlank_cons (by decide)]
      simp only [Char.reduceEq, if_false, if_true]
      exact readMembers_text hnames hnew hall rest

/-- A valid record is complete behind the entries of all fields. -/
lemma complete_foldl_take {es : List (Entry σ)} (hes : es.map (·.field) = r.fields)
    (hstart : (es.map (·.put)).foldl (fun y put => put y) r.start = x) (hvalid : r.valid x = true) :
    r.complete (es.foldl Progress.take ⟨[], r.start⟩) = .ok x := by
  have hall : (r.fields.all fun f => ¬ f.required ∨ f.name ∈
      (es.map (·.field.name)).reverse ++ []) = true := by
    rw [List.all_eq_true, ← hes]
    intro f hf
    obtain ⟨e, he, rfl⟩ := List.mem_map.mp hf
    rw [decide_eq_true_iff, List.append_nil, List.mem_reverse]
    exact .inr (List.mem_map_of_mem (f := (·.field.name)) he)
  rw [Progress.foldl_take, complete, hstart, if_pos hall, if_pos hvalid]

/-- **A record is restored** if its fields have different names, if what they read turns the empty
record into it, and if it is valid. -/
theorem restores_codec {puts : List (σ → σ)} (hnames : (r.fields.map (·.name)).Nodup)
    (hfields : List.Forall₂ (fun f put => f.Carries x put) r.fields puts)
    (hstart : puts.foldl (fun y put => put y) r.start = x) (hvalid : r.valid x = true) :
    r.codec.Restores x := by
  obtain ⟨es, hes, rfl, hfits⟩ := exists_of_carries hfields
  refine ⟨_, write_eq hes hfits, fun rest _ => ?_⟩
  rw [read_codec, read_object hnames hes hfits, complete_foldl_take hes hstart hvalid]
  rfl

end Record

end WireGuardControl.Json

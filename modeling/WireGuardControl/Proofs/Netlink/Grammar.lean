import Mathlib.Tactic
import WireGuardControl.Netlink.Cursor
import WireGuardControl.Proofs.Netlink.Forest
import WireGuardControl.Proofs.Netlink.Packed
/-!
The rows of octets that are rows of attributes.

* `Attribute.Fault.Ends`: a fault stands at the head of a row. A row is empty, or a fault or a
  record stands at its head (`Attributes.row_cases`, `Attributes.row_ind`), and `Attributes.ofBytes`
  and `Cursor.next` see the same there.
* `Attributes.ofBytes_of_packed` and `Attributes.fault_eq_none_iff`: a row has no fault exactly if
  it is packed records.
* `Attributes.found`, `Cursor.gives_ofBytes`: what a cursor gives, step by step.
* `Attribute.restored`: an attribute that was read, as one to be written.
* `Cursor.gives_found`: the run of a cursor over any octets, and the rows which it reads to the end.
-/

namespace WireGuardControl.Netlink

/-! ### The head of a row -/

/-- A fault stands at the head of a row. -/
inductive Attribute.Fault.Ends : Attribute.Fault → Bytes → Prop where
  /-- There are octets, but fewer than a header has. -/
  | headerTruncated {b : Bytes} (left : b ≠ []) (lt : b.length < attributeHeaderLength) :
      Ends (.headerTruncated b.length) b
  /-- The length in the header is less than that of a header, or more than there is. -/
  | lengthOutOfRange {b : Bytes} (le : attributeHeaderLength ≤ b.length)
      (range : Bytes.toNatLE (b.field 0 2) < attributeHeaderLength ∨
        b.length < Bytes.toNatLE (b.field 0 2)) :
      Ends (.lengthOutOfRange (Bytes.toNatLE (b.field 0 2)) b.length) b

namespace Attributes

/-- A length in range is that of a record. -/
lemma exists_record_isPrefix {b : Bytes} (hlen : attributeHeaderLength ≤ b.length)
    (hmin : attributeHeaderLength ≤ Bytes.toNatLE (b.field 0 2))
    (hmax : Bytes.toNatLE (b.field 0 2) ≤ b.length) : ∃ r : Record, r.octets <+: b := by
  have hwidth : ∀ start, start + 2 ≤ attributeHeaderLength → (b.field start 2).length = 2 :=
    fun start h => Bytes.length_field b start 2 (h.trans hlen)
  have hlt := Bytes.toNatLE_lt (b.field 0 2)
  have hhead := Bytes.ofUInt16LE_toUInt16LE (hwidth 0 (by decide))
  have hkind := Bytes.ofUInt16LE_toUInt16LE (hwidth 2 (by decide))
  rw [Bytes.toUInt16LE] at hhead
  rw [hwidth 0 (by decide)] at hlt
  set n := Bytes.toNatLE (b.field 0 2)
  obtain ⟨m, hm⟩ := Nat.exists_eq_add_of_le hmin
  have hpayload : (b.field attributeHeaderLength m).length = m :=
    Bytes.length_field b _ m (hm ▸ hmax)
  let r : Record :=
    { kind := Bytes.toUInt16LE (b.field 2 2)
      payload := b.field attributeHeaderLength m
      length_le := by
        rw [hpayload, ← hm]
        exact Nat.le_of_lt_succ hlt }
  have hr : r.length = n := by rw [Record.length, hpayload, hm]
  refine ⟨r, ?_⟩
  have htake : r.octets = b.take n := by
    calc r.octets = b.field 0 2 ++ b.field 2 2 ++ b.field attributeHeaderLength m := by
          rw [Record.octets, hr, hhead, hkind]
      _ = b.field 0 (2 + 2) ++ b.field attributeHeaderLength m := by
          rw [← Bytes.field_append_field b 0 2 2]
      _ = b.field 0 (attributeHeaderLength + m) := Bytes.field_append_field b 0 _ m
      _ = b.take n := by rw [← hm, Bytes.field_zero]
  rw [htake]
  exact List.take_prefix n b

/-- A row is empty, or a fault or a record stands at its head. -/
lemma row_cases (b : Bytes) :
    b = [] ∨ (∃ f, Attribute.Fault.Ends f b) ∨ ∃ r : Record, r.octets <+: b := by
  by_cases hnil : b = []
  · exact .inl hnil
  by_cases hlt : b.length < attributeHeaderLength
  · exact .inr (.inl ⟨_, .headerTruncated hnil hlt⟩)
  by_cases hrange : Bytes.toNatLE (b.field 0 2) < attributeHeaderLength ∨
      b.length < Bytes.toNatLE (b.field 0 2)
  · exact .inr (.inl ⟨_, .lengthOutOfRange (not_lt.mp hlt) hrange⟩)
  obtain ⟨hmin, hmax⟩ := not_or.mp hrange
  exact .inr (.inr (exists_record_isPrefix (not_lt.mp hlt) (not_lt.mp hmin) (not_lt.mp hmax)))

lemma length_drop_add_le {r : Record} {b : Bytes} (h : r.octets <+: b) :
    (b.drop (Bytes.aligned r.length)).length + attributeHeaderLength ≤ b.length := by
  have hle := h.length_le
  rw [Record.length_octets] at hle
  have hmin := r.headerLength_le
  rw [List.length_drop, Bytes.aligned]
  omega

/-- The induction principle of rows of attributes. -/
@[elab_as_elim]
theorem row_ind {P : Bytes → Prop} (nil : P []) (ends : ∀ b f, Attribute.Fault.Ends f b → P b)
    (record : ∀ b (r : Record), r.octets <+: b → P (b.drop (Bytes.aligned r.length)) → P b) :
    ∀ b, P b :=
  units_ind Record.octets_ne_nil row_cases nil (fun b ⟨f, hf⟩ => ends b f hf)
    fun b r hr ih => record b r hr (r.length_octets ▸ ih)

lemma ofBytes_of_ends {f : Attribute.Fault} {b : Bytes} (h : f.Ends b) :
    ofBytes b = ⟨[], some f⟩ := by
  cases h with
  | headerTruncated left lt =>
      match b, left, lt with
      | [_], _, _ => rw [ofBytes] <;> simp
      | [_, _], _, _ => rw [ofBytes] <;> simp
      | [_, _, _], _, _ => rw [ofBytes] <;> simp
  | lengthOutOfRange le range =>
      rw [ofBytes_of_length_le le]
      exact if_pos range

/-! ### Packed records -/

/-- **Packed records are read one by one**, and no fault is behind them. -/
lemma ofBytes_of_packed {units : List (Record × Bytes)} {b : Bytes}
    (h : Packed Record.octets units b) :
    ofBytes b = ⟨units.map fun u => .ofRecord u.1.kind u.1.payload, none⟩ := by
  induction units generalizing b with
  | nil =>
      rw [Packed.nil_iff.mp h, ofBytes]
      rfl
  | cons u units ih =>
      obtain ⟨hhead, hrest⟩ := h.drop
      rw [Record.length_octets] at hrest
      rw [Record.ofBytes_of_isPrefix hhead, ih hrest]
      rfl

/-- **A row without a fault is packed records.** -/
lemma fault_eq_none_iff (b : Bytes) :
    (ofBytes b).fault = none ↔ ∃ units, Packed Record.octets units b := by
  refine exists_packed_iff (P := fun b => (ofBytes b).fault = none) Record.octets_ne_nil row_cases
    ?_ (fun b ⟨f, hf⟩ h => ?_) (fun b r hr => ?_) b
  · rw [ofBytes]
  · rw [ofBytes_of_ends hf] at h
    cases h
  · rw [Record.ofBytes_of_isPrefix hr, r.length_octets]

/-! ### What is found in a row -/

/-- The attributes of a row and the fault behind them, one by one. -/
def found (xs : Attributes) : List (Except Attribute.Fault Attribute) :=
  xs.items.map .ok ++ (xs.fault.map .error).toList

lemma found_of_isPrefix {r : Record} {b : Bytes} (h : r.octets <+: b) :
    (ofBytes b).found = .ok (.ofRecord r.kind r.payload) ::
      (ofBytes (b.drop (Bytes.aligned r.length))).found := by
  rw [Record.ofBytes_of_isPrefix h]
  rfl

/-- What is found in a row takes four octets each, but for the last. -/
lemma length_found_le (b : Bytes) : (ofBytes b).found.length ≤ (b.length + 3) / 4 := by
  induction b using row_ind with
  | nil => simp [ofBytes, found]
  | ends b f hf =>
      have hpos : 0 < b.length := by
        cases hf with
        | headerTruncated left lt => exact List.length_pos_of_ne_nil left
        | lengthOutOfRange le range => exact lt_of_lt_of_le (by decide) le
      rw [ofBytes_of_ends hf]
      change 1 ≤ _
      omega
  | record b r hr ih =>
      have hdrop := length_drop_add_le hr
      rw [attributeHeaderLength] at hdrop
      rw [found_of_isPrefix hr, List.length_cons]
      omega

/-- A fault is the last that is found, and the only one. -/
lemma of_found_eq {xs : Attributes} {earlier later : List (Except Attribute.Fault Attribute)}
    {f : Attribute.Fault} (h : xs.found = earlier ++ .error f :: later) :
    later = [] ∧ ∀ x ∈ earlier, ∃ a, x = .ok a := by
  obtain ⟨items, fault⟩ := xs
  induction items generalizing earlier with
  | nil =>
      cases fault with
      | none => simp [found] at h
      | some g =>
          cases earlier with
          | nil => exact ⟨(List.cons.inj h).2.symm, by simp⟩
          | cons x earlier => simp [found] at h
  | cons a items ih =>
      cases earlier with
      | nil => cases (List.cons.inj h).1
      | cons x earlier =>
          obtain ⟨rfl, hrest⟩ := List.cons.inj h
          obtain ⟨hlater, hall⟩ := ih hrest
          exact ⟨hlater, List.forall_mem_cons.mpr ⟨⟨a, rfl⟩, hall⟩⟩

lemma error_notMem_found_iff (xs : Attributes) :
    (∀ f, .error f ∉ xs.found) ↔ xs.fault = none := by
  cases h : xs.fault with
  | none => simp [found, h]
  | some f => simp [found, h]

end Attributes

/-! ### Steps of a cursor -/

namespace Cursor

variable {b : Bytes}

lemma atEnd_nil : AtEnd ⟨[], false⟩ := rfl

lemma atEnd_failed (b : Bytes) : AtEnd ⟨b, true⟩ := by
  rw [AtEnd, next]
  exact if_pos (.inl rfl)

lemma not_atEnd (h : b ≠ []) : ¬ ((⟨b, false⟩ : Cursor).failed = true ∨ b.length = 0) := by
  simpa using h

/-- A cursor gives the fault at the head of a row, and then nothing. -/
lemma next_of_ends {f : Attribute.Fault} (h : f.Ends b) :
    next ⟨b, false⟩ = .ok (some (.error f), ⟨b, true⟩) := by
  cases h with
  | headerTruncated left lt =>
      rw [next]
      exact (if_neg (not_atEnd left)).trans (if_pos lt)
  | lengthOutOfRange le range =>
      have left : b ≠ [] := List.ne_nil_of_length_pos (lt_of_lt_of_le (by decide) le)
      rw [next]
      refine (if_neg (not_atEnd left)).trans ((if_neg (not_lt.mpr le)).trans ?_)
      rw [Bytes.octetsAt_eq b 0 2 (le_trans (by decide) le),
        Bytes.octetsAt_eq b 2 2 (le_trans (by decide) le)]
      exact if_pos range

/-- A cursor gives the record at the head of a row, and goes on at the next multiple of four. -/
lemma next_of_isPrefix {r : Record} (h : r.octets <+: b) :
    next ⟨b, false⟩ = .ok (some (.ok (.ofRecord r.kind r.payload)),
      ⟨b.drop (Bytes.aligned r.length), false⟩) := by
  obtain ⟨hle, hlength, hkind, hpayload⟩ := Record.fields_of_isPrefix h
  have hhead := r.headerLength_le.trans hle
  have left : b ≠ [] := List.ne_nil_of_length_pos (lt_of_lt_of_le (by decide) hhead)
  rw [next]
  refine (if_neg (not_atEnd left)).trans ((if_neg (not_lt.mpr hhead)).trans ?_)
  rw [Bytes.octetsAt_eq b 0 2 (le_trans (by decide) hhead),
    Bytes.octetsAt_eq b 2 2 (le_trans (by decide) hhead)]
  simp only [bind, Except.bind, hlength, hkind]
  rw [if_neg (Record.not_outOfRange h), Bytes.slice_eq b _ _ r.headerLength_le hle,
    Bytes.slice_min_length, hpayload]
  rfl

/-- **A cursor gives what is found in a row**, one step after the other, and is then at its end. -/
lemma gives_ofBytes (b : Bytes) :
    ∃ e, Gives ⟨b, false⟩ (Attributes.ofBytes b).found e ∧ e.AtEnd := by
  induction b using Attributes.row_ind with
  | nil =>
      rw [Attributes.ofBytes]
      exact ⟨_, .nil _, atEnd_nil⟩
  | ends b f hf =>
      rw [Attributes.ofBytes_of_ends hf]
      exact ⟨_, .cons (next_of_ends hf) (.nil _), atEnd_failed b⟩
  | record b r hr ih =>
      obtain ⟨e, hgives, hend⟩ := ih
      rw [Attributes.found_of_isPrefix hr]
      exact ⟨e, .cons (next_of_isPrefix hr) hgives, hend⟩

end Cursor

/-! ### Writing again what was read -/

/-- An attribute that was read, as one to be written: a plain payload, and the mark of attributes
that hold attributes in the kind. -/
def Attribute.restored (a : Attribute) : Item :=
  .plain (if a.nested then a.kind ||| nestedFlag else a.kind) a.payload

/-- A record is read as the same attribute when it is written again. -/
lemma Attribute.exists_restored (kind : UInt16) (payload : Bytes) :
    ∃ kind', (ofRecord kind payload).restored = .plain kind' payload ∧
      ofRecord kind' payload = ofRecord kind payload := by
  let k : Kind := ⟨kind &&& kindMask, by rw [UInt16.and_assoc, UInt16.and_self]⟩
  cases hmark : kind &&& nestedFlag != 0 with
  | false =>
      refine ⟨k.number, ?_, ?_⟩
      · simp [restored, ofRecord, hmark, k]
      · rw [k.ofRecord_number, ofRecord, hmark]
  | true =>
      refine ⟨k.number ||| nestedFlag, ?_, ?_⟩
      · simp [restored, ofRecord, hmark, k]
      · rw [k.ofRecord_marked, ofRecord, hmark]

/-- Records that were read can be written again, and are read as the same attributes. -/
lemma Attributes.exists_encodeAll_restored (records : List Record) :
    ∃ b, Item.encodeAll (records.map fun r => (Attribute.ofRecord r.kind r.payload).restored) =
        .ok b ∧
      ofBytes b = ⟨records.map fun r => .ofRecord r.kind r.payload, none⟩ := by
  induction records with
  | nil => exact ⟨[], Item.encodeAll_nil, by rw [ofBytes]; rfl⟩
  | cons r records ih =>
      obtain ⟨b, hb, hread⟩ := ih
      obtain ⟨kind, hitem, hsame⟩ := Attribute.exists_restored r.kind r.payload
      refine ⟨record kind r.payload ++ b, ?_, ?_⟩
      · rw [List.map_cons, hitem]
        exact Item.encodeAll_cons_eq_ok_iff.mpr ⟨kind, r.payload, b, rfl, r.length_le, hb, rfl⟩
      · rw [ofBytes_record_append kind r.length_le, hread, hsame]
        rfl

/-- **The rows of attributes**: over any octets, a cursor makes no step outside of them and is soon
at its end. A fault is the last that it gives. There is none exactly if the octets are packed
records, each of which begins at a multiple of four and of which only the last may lack padding;
then it gives these records, and gives them again when they are written anew. -/
theorem Cursor.gives_found (b : Bytes) :
    let found := (Attributes.ofBytes b).found
    (∃ e, Gives ⟨b, false⟩ found e ∧ e.AtEnd) ∧
    found.length ≤ (b.length + 3) / 4 ∧
    (∀ earlier f later, found = earlier ++ .error f :: later →
      later = [] ∧ ∀ x ∈ earlier, ∃ a, x = .ok a) ∧
    ((∀ f, .error f ∉ found) ↔ ∃ units, Packed Record.octets units b) ∧
    ∀ units, Packed Record.octets units b →
      (∀ earlier u later, units = earlier ++ u :: later →
        (earlier.flatMap fun v => v.1.octets ++ v.2).length % 4 = 0) ∧
      found = units.map (fun u => .ok (.ofRecord u.1.kind u.1.payload)) ∧
      ∃ b' e, Item.encodeAll
          (units.map fun u => (Attribute.ofRecord u.1.kind u.1.payload).restored) = .ok b' ∧
        Gives ⟨b', false⟩ found e ∧ e.AtEnd := by
  intro found
  refine ⟨gives_ofBytes b, Attributes.length_found_le b, fun _ _ _ => Attributes.of_found_eq,
    (Attributes.error_notMem_found_iff _).trans (Attributes.fault_eq_none_iff b),
    fun units h => ?_⟩
  have hfound : found = units.map fun u => .ok (.ofRecord u.1.kind u.1.payload) := by
    change (Attributes.ofBytes b).found = _
    rw [Attributes.ofBytes_of_packed h]
    simp [Attributes.found]
  obtain ⟨b', hb', hread⟩ := Attributes.exists_encodeAll_restored (units.map Prod.fst)
  obtain ⟨e, hgives, hend⟩ := gives_ofBytes b'
  have hsame : (Attributes.ofBytes b').found = found := by
    rw [hread, hfound]
    simp [Attributes.found]
  rw [List.map_map] at hb'
  refine ⟨fun earlier u later hunits => ?_, hfound, b', e, hb', hsame ▸ hgives, hend⟩
  exact Packed.length_mod (hunits ▸ h)

/-- A marked attribute with padding that is not zero, and one without padding at the end. -/
theorem Cursor.gives_found_unpadded :
    let b : Bytes := [5, 0, 1, 192, 9, 7, 7, 7, 6, 0, 2, 0, 1, 2]
    let first : Record := ⟨0xC001, [9], by decide⟩
    let second : Record := ⟨2, [1, 2], by decide⟩
    Packed Record.octets [(first, [7, 7, 7]), (second, [])] b ∧
      ∃ e, Gives ⟨b, false⟩ [.ok ⟨1, true, [9]⟩, .ok ⟨2, false, [1, 2]⟩] e ∧ e.AtEnd := by
  intro b first second
  have hpacked : Packed Record.octets [(first, [7, 7, 7]), (second, [])] b :=
    ⟨by decide, by decide, by decide⟩
  have hfirst : Attribute.ofRecord first.kind first.payload = ⟨1, true, [9]⟩ := by decide
  have hsecond : Attribute.ofRecord second.kind second.payload = ⟨2, false, [1, 2]⟩ := by decide
  obtain ⟨hgives, -, -, -, hread⟩ := gives_found b
  rw [(hread _ hpacked).2.1, List.map_cons, List.map_singleton, hfirst, hsecond] at hgives
  exact ⟨hpacked, hgives⟩

end WireGuardControl.Netlink

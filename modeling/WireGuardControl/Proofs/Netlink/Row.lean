import Mathlib.Tactic
import WireGuardControl.Netlink.Attribute
import WireGuardControl.Netlink.Encoder
import WireGuardControl.Proofs.Octets
/-!
Rows of attributes, written and read.

* `Record`: an attribute as it stands in a row. `Record.ofBytes_of_isPrefix` reads it back from the
  head of a row.
* `record`: the octets of one attribute, padding included, which are read back in the same way
  (`Attributes.ofBytes_record_append`).
* `Item.octets` and `Item.encodeAll_cons`: a list of items is written item by item, and the
  record of an item does not depend on what stands before it.
* `Item.asRead`: the attribute as which an item is read. The row as which items are written has
  these attributes (`Item.ofBytes_encodeAll`), so that working through it is working through them
  (`Item.foldM_ofBytes_encodeAll`), and a written array reads back if its entries do
  (`Item.collect_ofBytes_entries`).
-/

namespace WireGuardControl.Netlink

/-! ### Records -/

/-- The octets of an attribute: its header, its payload and the padding. -/
def record (kind : UInt16) (payload : Bytes) : Bytes :=
  Bytes.padded (Bytes.ofUInt16LE (UInt16.ofNat (attributeHeaderLength + payload.length)) ++
    Bytes.ofUInt16LE kind ++ payload)

/-- The attribute that a record holds. -/
def Attribute.ofRecord (kind : UInt16) (payload : Bytes) : Attribute where
  kind := kind &&& kindMask
  nested := kind &&& nestedFlag != 0
  payload := payload

@[simp] lemma length_record (kind : UInt16) (payload : Bytes) :
    (record kind payload).length = Bytes.aligned (attributeHeaderLength + payload.length) := by
  rw [record, Bytes.length_padded]
  congr 1
  simp only [List.length_append, Bytes.length_ofUInt16LE, attributeHeaderLength]

/-- A row in which there is room for a header, read by the offsets of what is in the header. -/
lemma Attributes.ofBytes_of_length_le {b : Bytes} (h : attributeHeaderLength ≤ b.length) :
    ofBytes b =
      let length := Bytes.toNatLE (b.field 0 2)
      if length < attributeHeaderLength ∨ b.length < length then
        ⟨[], some (.lengthOutOfRange length b.length)⟩
      else
        let a := Attribute.ofRecord (Bytes.toUInt16LE (b.field 2 2))
          (b.field attributeHeaderLength (length - attributeHeaderLength))
        let rest := ofBytes (b.drop (Bytes.aligned length))
        ⟨a :: rest.items, rest.fault⟩ := by
  match b, h with
  | l₀ :: l₁ :: k₀ :: k₁ :: body, _ =>
      have hlen : (l₀ :: l₁ :: k₀ :: k₁ :: body).length = body.length + attributeHeaderLength := rfl
      have hlength : Bytes.field (l₀ :: l₁ :: k₀ :: k₁ :: body) 0 2 = [l₀, l₁] := rfl
      have hkind : Bytes.field (l₀ :: l₁ :: k₀ :: k₁ :: body) 2 2 = [k₀, k₁] := rfl
      rw [ofBytes, hlen, hlength, hkind]
      simp only
      split_ifs with hrange
      · rfl
      · -- Behind the header, an offset in the row is an offset in the body.
        obtain ⟨n, hn⟩ := Nat.exists_eq_add_of_le (not_lt.mp fun hlt => hrange (.inl hlt))
        have hdrop : Bytes.aligned (Bytes.toNatLE [l₀, l₁]) =
            Bytes.aligned (Bytes.toNatLE [l₀, l₁]) - attributeHeaderLength + 4 := by
          rw [hn, Bytes.aligned, attributeHeaderLength]
          omega
        conv_rhs => rw [hdrop]
        rfl

/-- An attribute as it stands in a row, without padding. -/
structure Record where
  /-- The kind, with the bits that mark it. -/
  kind : UInt16
  /-- The payload. -/
  payload : Bytes
  /-- The header has room for the length. -/
  length_le : attributeHeaderLength + payload.length ≤ Encoder.maxLength

namespace Record

variable (r : Record)

/-- The number of octets, with those of the header. -/
def length : ℕ := attributeHeaderLength + r.payload.length

/-- The octets. -/
def octets : Bytes :=
  Bytes.ofUInt16LE (UInt16.ofNat r.length) ++ Bytes.ofUInt16LE r.kind ++ r.payload

@[simp] lemma length_octets : r.octets.length = r.length := by
  simp only [octets, length, List.length_append, Bytes.length_ofUInt16LE, attributeHeaderLength]

lemma toNatLE_length : Bytes.toNatLE (Bytes.ofUInt16LE (UInt16.ofNat r.length)) = r.length := by
  have hlt : r.length < UInt16.size := Nat.lt_succ_of_le r.length_le
  rw [Bytes.ofUInt16LE, Bytes.toNatLE_ofNatLE, UInt16.toNat_ofNat_of_lt' hlt]
  exact Nat.mod_eq_of_lt hlt

lemma headerLength_le : attributeHeaderLength ≤ r.length := Nat.le_add_right _ _

lemma octets_ne_nil : r.octets ≠ [] := by
  have hmin := r.headerLength_le
  rw [← List.length_pos_iff, length_octets]
  exact lt_of_lt_of_le (by decide) hmin

variable {r}

/-- What is in the header of a record at the head of a row, and the payload behind it. -/
lemma fields_of_isPrefix {b : Bytes} (h : r.octets <+: b) :
    r.length ≤ b.length ∧ Bytes.toNatLE (b.field 0 2) = r.length ∧
      Bytes.toUInt16LE (b.field 2 2) = r.kind ∧
      b.field attributeHeaderLength (r.length - attributeHeaderLength) = r.payload := by
  obtain ⟨tail, rfl⟩ := h
  have hfields : r.octets ++ tail = [Bytes.ofUInt16LE (UInt16.ofNat r.length),
      Bytes.ofUInt16LE r.kind, r.payload, tail].flatten := by
    simp [octets]
  have hlength : Bytes.field (r.octets ++ tail) 0 2 =
      Bytes.ofUInt16LE (UInt16.ofNat r.length) := by
    rw [hfields]
    exact Bytes.field_flatten 0 rfl (by simp) rfl
  have hkind : Bytes.field (r.octets ++ tail) 2 2 = Bytes.ofUInt16LE r.kind := by
    rw [hfields]
    exact Bytes.field_flatten 1 rfl (by simp) (by simp)
  refine ⟨?_, ?_, ?_, ?_⟩
  · rw [List.length_append, length_octets]
    omega
  · rw [hlength, r.toNatLE_length]
  · rw [hkind, Bytes.toUInt16LE_ofUInt16LE]
  · rw [length, Nat.add_sub_cancel_left, hfields]
    exact Bytes.field_flatten 2 rfl rfl (by simp [attributeHeaderLength])

/-- A row with a record at its head has the length in its header. -/
lemma not_outOfRange {b : Bytes} (h : r.octets <+: b) :
    ¬ (r.length < attributeHeaderLength ∨ b.length < r.length) :=
  not_or.mpr ⟨not_lt.mpr r.headerLength_le, not_lt.mpr (fields_of_isPrefix h).1⟩

/-- A record at the head of a row is read as its attribute, and the row goes on at the next multiple
of four. -/
lemma ofBytes_of_isPrefix {b : Bytes} (h : r.octets <+: b) :
    Attributes.ofBytes b =
      ⟨.ofRecord r.kind r.payload :: (Attributes.ofBytes (b.drop (Bytes.aligned r.length))).items,
        (Attributes.ofBytes (b.drop (Bytes.aligned r.length))).fault⟩ := by
  obtain ⟨hle, hlength, hkind, hpayload⟩ := fields_of_isPrefix h
  rw [Attributes.ofBytes_of_length_le (r.headerLength_le.trans hle), hlength, hkind]
  simp only [hpayload]
  exact if_neg (not_outOfRange h)

end Record

/-- A record with its padding is read as its attribute, and the row goes on behind it. -/
lemma Attributes.ofBytes_record_append (kind : UInt16) {payload : Bytes}
    (h : attributeHeaderLength + payload.length ≤ Encoder.maxLength) (rest : Bytes) :
    ofBytes (record kind payload ++ rest) =
      ⟨Attribute.ofRecord kind payload :: (ofBytes rest).items, (ofBytes rest).fault⟩ := by
  let r : Record := ⟨kind, payload, h⟩
  have hhead : r.octets <+: record kind payload ++ rest :=
    (List.prefix_append _ _).trans (List.prefix_append _ _)
  rw [Record.ofBytes_of_isPrefix hhead]
  have hlen : Bytes.aligned r.length = (record kind payload).length :=
    (length_record kind payload).symm
  rw [hlen, List.drop_left]

/-- A row is read attribute by attribute. -/
lemma Attributes.collect_cons {α : Type} (f : Attribute → Except Error α) (a : Attribute)
    (items : List Attribute) (fault : Option Attribute.Fault) :
    collect f ⟨a :: items, fault⟩ =
      (f a).bind fun v => (collect f ⟨items, fault⟩).map (v :: ·) := by
  rw [collect, List.mapM_cons, collect]
  cases f a with
  | error cause => rfl
  | ok v =>
      cases items.mapM f with
      | error cause => rfl
      | ok vs => cases fault <;> rfl

/-! ### Writing item by item -/

namespace Item

/-- The kind and the payload with which an item is written. -/
def content : Item → Except Error (UInt16 × Bytes)
  | .plain kind payload => .ok (kind, payload)
  | .nested kind items => (encodeAll items).map fun b => (kind ||| nestedFlag, b)
  | .refused cause => .error cause

/-- What is wrong with a payload that no record has room for. -/
def overflow (kind : UInt16) (payload : Bytes) : Error :=
  .invalidArgument (s!"attribute {kind &&& kindMask} payload of {payload.length}" ++
    " bytes exceeds netlink limit")

/-- The octets of an item. -/
def octets (i : Item) : Except Error Bytes :=
  i.content.bind fun c =>
    if attributeHeaderLength + c.2.length ≤ Encoder.maxLength then .ok (record c.1 c.2)
    else .error (overflow c.1 c.2)

end Item

namespace Encoder

/-- The octets of an attribute, if its header has room for the length. -/
def recordOf (kind : UInt16) (payload : Bytes) : Except Error Bytes :=
  if attributeHeaderLength + payload.length ≤ maxLength then .ok (record kind payload)
  else .error (Item.overflow kind payload)

lemma put_eq (e : Encoder) (he : e.octets.size % 4 = 0) (kind : UInt16) (payload : Bytes) :
    e.put kind payload = (recordOf kind payload).map fun x => ⟨e.octets ++ x.toArray⟩ := by
  rw [put, recordOf]
  split_ifs with h
  · refine congrArg Except.ok (congrArg Encoder.mk (Array.toList_inj.mp ?_))
    set header := Bytes.ofUInt16LE (UInt16.ofNat (attributeHeaderLength + payload.length))
    have hsize : (e.octets ++ header ++ Bytes.ofUInt16LE kind ++ payload).size =
        e.octets.size + (header ++ Bytes.ofUInt16LE kind ++ payload).length := by
      rw [← Array.length_toList]
      simp only [Array.toList_appendList, List.length_append, Array.length_toList]
      omega
    have hpad : ∀ n, Bytes.padding (e.octets.size + n) = Bytes.padding n := by
      intro n
      unfold Bytes.padding
      omega
    rw [hsize, hpad, record, Bytes.padded]
    simp only [Array.toList_appendList, Array.toList_append, List.append_assoc]
    rfl
  · rfl

/-- Behind whole records, an item is written as it is written anywhere. -/
lemma add_eq (e : Encoder) (he : e.octets.size % 4 = 0) (i : Item) :
    e.add i = i.octets.map fun x => ⟨e.octets ++ x.toArray⟩ := by
  cases i with
  | plain kind payload => rw [add, put_eq e he]; rfl
  | nested kind items =>
      rw [add, Item.octets, Item.content, Item.encodeAll]
      cases addAll {} items with
      | error cause => rfl
      | ok inner => exact put_eq e he _ _
  | refused cause => rw [add]; rfl

end Encoder

namespace Item

lemma octets_eq_ok_iff {i : Item} {x : Bytes} :
    i.octets = .ok x ↔ ∃ kind payload, i.content = .ok (kind, payload) ∧
      attributeHeaderLength + payload.length ≤ Encoder.maxLength ∧ x = record kind payload := by
  rw [octets]
  cases i.content with
  | error cause => simp [Except.bind]
  | ok c =>
      simp only [Except.bind, Except.ok.injEq]
      split_ifs with h
      · constructor
        · intro hx
          exact ⟨c.1, c.2, rfl, h, (Except.ok.inj hx).symm⟩
        · rintro ⟨kind, payload, rfl, -, rfl⟩
          rfl
      · constructor
        · intro hx
          cases hx
        · rintro ⟨kind, payload, rfl, hle, -⟩
          exact absurd hle h

/-- The octets of an item are whole records. -/
lemma length_mod_of_octets {i : Item} {x : Bytes} (h : i.octets = .ok x) : x.length % 4 = 0 := by
  obtain ⟨kind, payload, -, -, rfl⟩ := octets_eq_ok_iff.mp h
  rw [length_record, Bytes.aligned_mod]

end Item

namespace Encoder

/-- Behind whole records, items are written as they are written anywhere. -/
lemma addAll_eq (e : Encoder) (he : e.octets.size % 4 = 0) (items : List Item) :
    e.addAll items = (Item.encodeAll items).map fun b => ⟨e.octets ++ b.toArray⟩ := by
  induction items generalizing e with
  | nil => simp [addAll, Item.encodeAll, Except.map]
  | cons i rest ih =>
      rw [Item.encodeAll, addAll, addAll, add_eq e he, add_eq {} rfl]
      cases hi : i.octets with
      | error cause => rfl
      | ok x =>
          have hx := Item.length_mod_of_octets hi
          change addAll ⟨e.octets ++ x.toArray⟩ rest =
            ((addAll ⟨#[] ++ x.toArray⟩ rest).map fun e => e.octets.toList).map
              fun b => ⟨e.octets ++ b.toArray⟩
          have haligned : (e.octets ++ x.toArray).size % 4 = 0 := by
            simp only [Array.size_append, List.size_toArray]
            omega
          rw [ih ⟨e.octets ++ x.toArray⟩ haligned, ih ⟨#[] ++ x.toArray⟩ (by simpa using hx)]
          cases Item.encodeAll rest with
          | error cause => rfl
          | ok b => simp [Except.map, Array.append_assoc]

end Encoder

namespace Item

@[simp] lemma encodeAll_nil : encodeAll [] = .ok [] := by
  simp [encodeAll, Encoder.addAll, Except.map]

/-- Items are written one behind the other, and the first that cannot be written ends it. -/
lemma encodeAll_cons (i : Item) (rest : List Item) :
    encodeAll (i :: rest) = i.octets.bind fun x => (encodeAll rest).map (x ++ ·) := by
  conv_lhs => rw [encodeAll, Encoder.addAll, Encoder.add_eq {} rfl]
  cases hi : i.octets with
  | error cause => rfl
  | ok x =>
      have hx := length_mod_of_octets hi
      change (Encoder.addAll ⟨#[] ++ x.toArray⟩ rest).map (fun e => e.octets.toList) =
        (encodeAll rest).map (x ++ ·)
      rw [Encoder.addAll_eq _ (by simpa using hx)]
      cases encodeAll rest with
      | error cause => rfl
      | ok b => simp [Except.map]

/-- What it takes to write items. -/
lemma encodeAll_cons_eq_ok_iff {i : Item} {rest : List Item} {b : Bytes} :
    encodeAll (i :: rest) = .ok b ↔ ∃ kind payload b', i.content = .ok (kind, payload) ∧
      attributeHeaderLength + payload.length ≤ Encoder.maxLength ∧
      encodeAll rest = .ok b' ∧ b = record kind payload ++ b' := by
  constructor
  · intro h
    rw [encodeAll_cons] at h
    cases hi : i.octets with
    | error cause => rw [hi] at h; cases h
    | ok x =>
        cases hrest : encodeAll rest with
        | error cause => rw [hi, hrest] at h; cases h
        | ok b' =>
            rw [hi, hrest] at h
            obtain ⟨kind, payload, hc, hle, rfl⟩ := octets_eq_ok_iff.mp hi
            exact ⟨kind, payload, b', hc, hle, rfl, (Except.ok.inj h).symm⟩
  · rintro ⟨kind, payload, b', hc, hle, hrest, rfl⟩
    rw [encodeAll_cons, octets_eq_ok_iff.mpr ⟨kind, payload, hc, hle, rfl⟩, hrest]
    rfl

/-- Every one of written items has content. -/
lemma exists_content_of_mem {items : List Item} {b : Bytes} (h : encodeAll items = .ok b)
    {i : Item} (hi : i ∈ items) : ∃ c, i.content = .ok c := by
  induction items generalizing b with
  | nil => simp at hi
  | cons j rest ih =>
      obtain ⟨kind, payload, b', hc, -, hrest, -⟩ := encodeAll_cons_eq_ok_iff.mp h
      rcases List.mem_cons.mp hi with rfl | hi
      · exact ⟨_, hc⟩
      · exact ih hrest hi

/-- The items inside a written item are written. -/
lemma exists_encodeAll_of_nested_mem {items inner : List Item} {b : Bytes} {kind : UInt16}
    (h : encodeAll items = .ok b) (hi : nested kind inner ∈ items) :
    ∃ b', encodeAll inner = .ok b' := by
  obtain ⟨c, hc⟩ := exists_content_of_mem h hi
  rw [content] at hc
  cases hinner : encodeAll inner with
  | error cause => rw [hinner] at hc; cases hc
  | ok b' => exact ⟨b', rfl⟩

/-- No written item is refused. -/
lemma refused_notMem {items : List Item} {b : Bytes} (h : encodeAll items = .ok b)
    (cause : Error) : refused cause ∉ items := by
  intro hi
  obtain ⟨c, hc⟩ := exists_content_of_mem h hi
  cases hc

/-! ### Reading what was written -/

/-- The attribute as which an item is read. -/
def asRead (i : Item) : Except Error Attribute :=
  i.content.map fun c => Attribute.ofRecord c.1 c.2

lemma asRead_plain (kind : UInt16) (payload : Bytes) :
    (plain kind payload).asRead = .ok (Attribute.ofRecord kind payload) := rfl

lemma asRead_nested {kind : UInt16} {items : List Item} {b : Bytes} (h : encodeAll items = .ok b) :
    (nested kind items).asRead = .ok (Attribute.ofRecord (kind ||| nestedFlag) b) := by
  rw [asRead, content, h]
  rfl

/-- Works a state through the attributes as which items are read. -/
def through {σ : Type} (f : σ → Attribute → Except Error σ) (s : σ) (items : List Item) :
    Except Error σ :=
  items.foldlM (fun s i => i.asRead.bind (f s)) s

variable {σ : Type} {f : σ → Attribute → Except Error σ}

@[simp] lemma through_nil (s : σ) : through f s [] = .ok s := rfl

lemma through_cons (s : σ) (i : Item) (rest : List Item) :
    through f s (i :: rest) = (i.asRead.bind (f s)).bind fun s => through f s rest := rfl

lemma through_append (s : σ) (xs ys : List Item) :
    through f s (xs ++ ys) = (through f s xs).bind fun s => through f s ys :=
  List.foldlM_append

/-- An item that is there or not. -/
lemma through_toList {α : Type} {o : Option α} {item : α → Item} {next : σ → α → σ} (s : σ)
    (h : ∀ x, o = some x → (item x).asRead.bind (f s) = .ok (next s x)) :
    through f s (o.map item).toList = .ok (o.elim s (next s)) := by
  cases o with
  | none => rfl
  | some x =>
      rw [Option.map_some, Option.toList_some, through_cons, h x rfl]
      rfl

/-- A plain item that is there or not, where `next` is what its attribute makes of a state. -/
lemma through_toList_plain {α : Type} {kind : UInt16} {payload : α → Bytes} {next : σ → α → σ}
    (h : ∀ s x, f s (Attribute.ofRecord kind (payload x)) = .ok (next s x)) (s : σ)
    (o : Option α) :
    through f s (o.map fun x => plain kind (payload x)).toList = .ok (o.elim s (next s)) := by
  apply through_toList
  intro x _
  rw [asRead_plain]
  exact h s x

/-- An item under a condition. -/
lemma through_ite {c : Prop} [Decidable c] {i : Item} {s t : σ} (hnil : c → t = s)
    (hitem : ¬ c → i.asRead.bind (f s) = .ok t) :
    through f s (if c then [] else [i]) = .ok t := by
  split_ifs with hc
  · rw [through_nil, hnil hc]
  · rw [through_cons, hitem hc]
    rfl

/-- Written items are read as their attributes, in order and without a fault. -/
lemma ofBytes_encodeAll {items : List Item} {b : Bytes} (h : encodeAll items = .ok b) :
    (Attributes.ofBytes b).fault = none ∧
      List.Forall₂ (fun i a => i.asRead = .ok a) items (Attributes.ofBytes b).items := by
  induction items generalizing b with
  | nil =>
      rw [encodeAll_nil] at h
      rw [← Except.ok.inj h, Attributes.ofBytes]
      exact ⟨rfl, .nil⟩
  | cons i rest ih =>
      obtain ⟨kind, payload, b', hc, hle, hrest, rfl⟩ := encodeAll_cons_eq_ok_iff.mp h
      obtain ⟨hfault, hitems⟩ := ih hrest
      have hi : i.asRead = .ok (Attribute.ofRecord kind payload) := by
        rw [asRead, hc]
        rfl
      rw [Attributes.ofBytes_record_append kind hle]
      exact ⟨hfault, .cons hi hitems⟩

lemma through_of_forall₂ {items : List Item} {attributes : List Attribute}
    (h : List.Forall₂ (fun i a => i.asRead = .ok a) items attributes) (s : σ) :
    through f s items = attributes.foldlM f s := by
  induction h generalizing s with
  | nil => rfl
  | cons hi _ ih =>
      rw [through_cons, hi, List.foldlM_cons]
      exact bind_congr ih

/-- Working through written items is working through the attributes as which they are read. -/
lemma foldM_ofBytes_encodeAll {items : List Item} {b : Bytes} (h : encodeAll items = .ok b)
    (s : σ) : (Attributes.ofBytes b).foldM f s = through f s items := by
  obtain ⟨hfault, hitems⟩ := ofBytes_encodeAll h
  rw [through_of_forall₂ hitems, Attributes.foldM, Attributes.check, hfault]
  cases (Attributes.ofBytes b).items.foldlM f s <;> rfl

lemma exists_of_content_entry {index : ℕ} {items : List Item} {c : UInt16 × Bytes}
    (h : (entry index items).content = .ok c) : encodeAll items = .ok c.2 := by
  rw [entry] at h
  split_ifs at h with hindex
  · rw [content] at h
    cases hitems : encodeAll items with
    | error cause => rw [hitems] at h; cases h
    | ok b =>
        rw [hitems] at h
        rw [← Except.ok.inj h]
  · cases h

/-- A written array reads back if each of its entries does. -/
lemma collect_ofBytes_entries {α β : Type} {items : α → List Item} {g : α → β}
    {f : Attribute → Except Error β} {start : ℕ} {xs : List α} {b : Bytes}
    (h : encodeAll (entries start (xs.map items)) = .ok b)
    (hread : ∀ x ∈ xs, ∀ a : Attribute, encodeAll (items x) = .ok a.payload → f a = .ok (g x)) :
    (Attributes.ofBytes b).collect f = .ok (xs.map g) := by
  induction xs generalizing start b with
  | nil =>
      rw [List.map_nil, entries, encodeAll_nil] at h
      rw [← Except.ok.inj h, Attributes.ofBytes]
      rfl
  | cons x rest ih =>
      rw [List.map_cons, entries] at h
      obtain ⟨kind, payload, b', hc, hle, hrest, rfl⟩ := encodeAll_cons_eq_ok_iff.mp h
      have hx := hread x (by simp) (Attribute.ofRecord kind payload) (exists_of_content_entry hc)
      rw [Attributes.ofBytes_record_append kind hle, Attributes.collect_cons, hx,
        ih hrest fun y hy => hread y (by simp [hy])]
      rfl

end Item

end WireGuardControl.Netlink

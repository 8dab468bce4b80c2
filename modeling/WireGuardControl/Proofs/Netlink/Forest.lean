import Mathlib.Tactic
import WireGuardControl.Proofs.Netlink.Readback
/-!
Trees of attributes, written and read.

* `Value`, `Tree`: a value of any type that an attribute can hold, and attributes inside
  attributes, to any depth. A `Kind` leaves the bits free that mark an attribute.
* `Tree.ReadAs` and `Tree.RowReadAs`: an attribute and a row of attributes read as a tree and as a
  forest, with all that is inside. Kinds, marks, payloads and values are those of the trees, and no
  row has a fault.
* `exists_encodeAll_iff`: a forest can be written if and only if every payload in it has room.
* `rowReadAs_of_encodeAll`: a written forest reads back.
* `encodeAll_items`: both in one.

Each proof goes by induction on the forest (`Tree.forest_ind`), whose first tree is a leaf or holds
a forest.
-/

namespace WireGuardControl.Netlink

open Text

/-! ### Kinds -/

/-- A kind that uses the fourteen low bits only. -/
structure Kind where
  /-- The number of the kind. -/
  number : UInt16
  /-- The two upper bits are not set. -/
  number_and_kindMask : number &&& kindMask = number
  deriving DecidableEq

lemma or_and_distrib (a b c : UInt16) : (a ||| b) &&& c = a &&& c ||| b &&& c := by
  rw [← UInt16.toBitVec_inj]
  ext i
  simp [Bool.and_or_distrib_right]

namespace Kind

variable (k : Kind)

lemma number_and_nestedFlag : k.number &&& nestedFlag = 0 := by
  have hbits : kindMask &&& nestedFlag = 0 := by decide
  rw [← k.number_and_kindMask, UInt16.and_assoc, hbits, UInt16.and_zero]

lemma marked_and_kindMask : (k.number ||| nestedFlag) &&& kindMask = k.number := by
  have hbits : nestedFlag &&& kindMask = 0 := by decide
  rw [or_and_distrib, k.number_and_kindMask, hbits, UInt16.or_zero]

lemma marked_and_nestedFlag : (k.number ||| nestedFlag) &&& nestedFlag = nestedFlag := by
  rw [or_and_distrib, k.number_and_nestedFlag, UInt16.zero_or, UInt16.and_self]

/-- A record without a mark is read with its kind. -/
lemma ofRecord_number (payload : Bytes) :
    Attribute.ofRecord k.number payload = ⟨k.number, false, payload⟩ := by
  rw [Attribute.ofRecord, k.number_and_kindMask, k.number_and_nestedFlag]
  rfl

/-- A marked record is read with its kind and as one that holds attributes. -/
lemma ofRecord_marked (payload : Bytes) :
    Attribute.ofRecord (k.number ||| nestedFlag) payload = ⟨k.number, true, payload⟩ := by
  rw [Attribute.ofRecord, k.marked_and_kindMask, k.marked_and_nestedFlag]
  rfl

end Kind

/-! ### Values -/

/-- A value that an attribute holds. -/
inductive Value where
  /-- A number of eight bits. -/
  | u8 (v : UInt8)
  /-- A number of sixteen bits. -/
  | u16 (v : UInt16)
  /-- A number of thirty-two bits. -/
  | u32 (v : UInt32)
  /-- A number of sixty-four bits. -/
  | u64 (v : UInt64)
  /-- A text. -/
  | text (s : String)
  /-- Octets as they are. -/
  | octets (b : Bytes)

namespace Value

/-- The attribute that holds a value. -/
def item (kind : UInt16) : Value → Item
  | .u8 v => .u8 kind v
  | .u16 v => .u16 kind v
  | .u32 v => .u32 kind v
  | .u64 v => .u64 kind v
  | .text s => .string kind s
  | .octets b => .plain kind b

/-- The octets of a value; a text ends with a zero octet. -/
def payload : Value → Bytes
  | .u8 v => [v]
  | .u16 v => Bytes.ofUInt16LE v
  | .u32 v => Bytes.ofUInt32LE v
  | .u64 v => Bytes.ofUInt64LE v
  | .text s => Utf8.ofString s ++ [0]
  | .octets b => b

lemma item_eq (kind : UInt16) (v : Value) : v.item kind = .plain kind v.payload := by
  cases v <;> rfl

/-- An attribute gives the value when it is read as one of its type, and a text up to its first
zero character. -/
def ReadFrom (a : Attribute) : Value → Prop
  | .u8 v => a.u8 = .ok v
  | .u16 v => a.u16 = .ok v
  | .u32 v => a.u32 = .ok v
  | .u64 v => a.u64 = .ok v
  | .text s => a.string = .ok (String.ofList (s.toList.takeWhile (· != '\x00')))
  | .octets b => a.payload = b

lemma readFrom_ofRecord (kind : UInt16) (v : Value) :
    v.ReadFrom (Attribute.ofRecord kind v.payload) := by
  cases v with
  | u8 v => exact Attribute.u8_ofRecord kind v
  | u16 v => exact Attribute.u16_ofRecord kind v
  | u32 v => exact Attribute.u32_ofRecord kind v
  | u64 v => exact Attribute.u64_ofRecord kind v
  | text s => exact Attribute.string_ofRecord_takeWhile kind s
  | octets b => rfl

end Value

/-! ### Trees -/

/-- An attribute with a value, or with attributes inside. -/
inductive Tree where
  /-- An attribute that holds a value. -/
  | leaf (kind : Kind) (value : Value)
  /-- An attribute that holds attributes. -/
  | nested (kind : Kind) (children : List Tree)

namespace Tree

/-- The induction principle of forests: the first tree is a leaf, or it holds a forest. -/
@[elab_as_elim]
theorem forest_ind {P : List Tree → Prop} (nil : P [])
    (leaf : ∀ kind value rest, P rest → P (leaf kind value :: rest))
    (nested : ∀ kind children rest, P children → P rest → P (nested kind children :: rest))
    (ts : List Tree) : P ts :=
  @Tree.rec_1 (fun t => ∀ rest, P rest → P (t :: rest)) P leaf
    (fun kind children hchildren rest => nested kind children rest hchildren) nil
    (fun _ rest ht hrest => ht rest hrest) ts

mutual

/-- A tree as an attribute to be written. -/
def item : Tree → Item
  | .leaf kind value => value.item kind.number
  | .nested kind children => .nested kind.number (items children)

/-- A forest as attributes to be written. -/
def items : List Tree → List Item
  | [] => []
  | t :: rest => item t :: items rest

end

mutual

/-- The number of octets of the payload: those of the value, or those of the attributes inside. -/
def payloadLength : Tree → ℕ
  | .leaf _ value => value.payload.length
  | .nested _ children => rowLength children

/-- The number of octets of a forest. Each attribute has a header, and its payload is carried to
the next multiple of four. -/
def rowLength : List Tree → ℕ
  | [] => 0
  | t :: rest => Bytes.aligned (attributeHeaderLength + payloadLength t) + rowLength rest

end

mutual

/-- A tree and all trees inside. -/
def subtrees : Tree → List Tree
  | .leaf kind value => [.leaf kind value]
  | .nested kind children => .nested kind children :: subtreesOf children

/-- The trees of a forest and all trees inside. -/
def subtreesOf : List Tree → List Tree
  | [] => []
  | t :: rest => subtrees t ++ subtreesOf rest

end

/-- An attribute reads as a tree. -/
inductive ReadAs : Tree → Attribute → Prop
  /-- Its kind, its payload and its value are those of a leaf, and it has no mark. -/
  | leaf {kind : Kind} {value : Value} {a : Attribute} (number : a.kind = kind.number)
      (mark : a.nested = false) (payload : a.payload = value.payload) (gives : value.ReadFrom a) :
      ReadAs (.leaf kind value) a
  /-- It is marked, its payload is the children as they are written, and the row of its payload
  has no fault and reads as the children, one by one. -/
  | nested {kind : Kind} {children : List Tree} {a : Attribute} (number : a.kind = kind.number)
      (mark : a.nested = true) (payload : Item.encodeAll (items children) = .ok a.payload)
      (whole : a.children.fault = none) (inside : List.Forall₂ ReadAs children a.children.items) :
      ReadAs (.nested kind children) a

/-- A row of attributes has no fault and reads as a forest, one by one. -/
structure RowReadAs (ts : List Tree) (row : Attributes) : Prop where
  /-- There is no fault. -/
  whole : row.fault = none
  /-- The attributes read as the trees. -/
  inside : List.Forall₂ ReadAs ts row.items

/-! ### Writing -/

lemma header_add_le_iff (n : ℕ) : attributeHeaderLength + n ≤ Encoder.maxLength ↔ n ≤ 65531 := by
  simp only [attributeHeaderLength, Encoder.maxLength]
  omega

/-- What it takes to write a forest that begins with a leaf. -/
lemma encodeAll_leaf_cons {kind : Kind} {value : Value} {rest : List Tree} {b : Bytes} :
    Item.encodeAll (items (leaf kind value :: rest)) = .ok b ↔
      value.payload.length ≤ 65531 ∧ ∃ b', Item.encodeAll (items rest) = .ok b' ∧
        b = record kind.number value.payload ++ b' := by
  rw [items, item, value.item_eq, Item.encodeAll_cons_eq_ok_iff]
  simp [Item.content, header_add_le_iff]

/-- What it takes to write a forest that begins with a nested one. -/
lemma encodeAll_nested_cons {kind : Kind} {children rest : List Tree} {b : Bytes} :
    Item.encodeAll (items (nested kind children :: rest)) = .ok b ↔
      ∃ inner, Item.encodeAll (items children) = .ok inner ∧ inner.length ≤ 65531 ∧
        ∃ b', Item.encodeAll (items rest) = .ok b' ∧
          b = record (kind.number ||| nestedFlag) inner ++ b' := by
  rw [items, item, Item.encodeAll_cons_eq_ok_iff, Item.content]
  cases Item.encodeAll (items children) with
  | error cause => simp [Except.map]
  | ok inner => simp [Except.map, header_add_le_iff]

/-- A written forest has as many octets as it takes. -/
lemma length_of_encodeAll {ts : List Tree} {b : Bytes} (h : Item.encodeAll (items ts) = .ok b) :
    b.length = rowLength ts := by
  induction ts using forest_ind generalizing b with
  | nil =>
      rw [items, Item.encodeAll_nil] at h
      rw [← Except.ok.inj h]
      rfl
  | leaf kind value rest ih =>
      obtain ⟨-, b', hrest, rfl⟩ := encodeAll_leaf_cons.mp h
      rw [List.length_append, length_record, ih hrest, rowLength, payloadLength]
  | nested kind children rest ihchildren ih =>
      obtain ⟨inner, hinner, -, b', hrest, rfl⟩ := encodeAll_nested_cons.mp h
      rw [List.length_append, length_record, ihchildren hinner, ih hrest, rowLength, payloadLength]

/-- **A forest can be written if and only if every payload in it has room.** -/
theorem exists_encodeAll_iff (ts : List Tree) :
    (∃ b, Item.encodeAll (items ts) = .ok b) ↔ ∀ t ∈ subtreesOf ts, t.payloadLength ≤ 65531 := by
  induction ts using forest_ind with
  | nil => simp [items, subtreesOf]
  | leaf kind value rest ih =>
      simp only [encodeAll_leaf_cons, subtreesOf, subtrees, List.singleton_append,
        List.forall_mem_cons, ← ih, payloadLength]
      constructor
      · rintro ⟨-, hvalue, b', hrest, -⟩
        exact ⟨hvalue, b', hrest⟩
      · rintro ⟨hvalue, b', hrest⟩
        exact ⟨_, hvalue, b', hrest, rfl⟩
  | nested kind children rest ihchildren ih =>
      simp only [encodeAll_nested_cons, subtreesOf, subtrees, List.cons_append,
        List.forall_mem_cons, List.forall_mem_append, ← ih, ← ihchildren, payloadLength]
      constructor
      · rintro ⟨-, inner, hinner, hle, b', hrest, -⟩
        exact ⟨length_of_encodeAll hinner ▸ hle, ⟨inner, hinner⟩, b', hrest⟩
      · rintro ⟨hle, ⟨inner, hinner⟩, b', hrest⟩
        exact ⟨_, inner, hinner, length_of_encodeAll hinner ▸ hle, b', hrest, rfl⟩

/-! ### Reading -/

/-- A row that begins with a record reads as a forest if the record and the rest of the row do. -/
lemma RowReadAs.cons {kind : UInt16} {payload rest : Bytes} {t : Tree} {ts : List Tree}
    (hle : payload.length ≤ 65531) (ht : t.ReadAs (Attribute.ofRecord kind payload))
    (hts : RowReadAs ts (Attributes.ofBytes rest)) :
    RowReadAs (t :: ts) (Attributes.ofBytes (record kind payload ++ rest)) := by
  rw [Attributes.ofBytes_record_append kind ((header_add_le_iff _).mpr hle)]
  exact ⟨hts.whole, .cons ht hts.inside⟩

/-- **A written forest reads back**, with all that is inside. -/
theorem rowReadAs_of_encodeAll {ts : List Tree} {b : Bytes}
    (h : Item.encodeAll (items ts) = .ok b) : RowReadAs ts (Attributes.ofBytes b) := by
  induction ts using forest_ind generalizing b with
  | nil =>
      rw [items, Item.encodeAll_nil] at h
      rw [← Except.ok.inj h, Attributes.ofBytes]
      exact ⟨rfl, .nil⟩
  | leaf kind value rest ih =>
      obtain ⟨hle, b', hrest, rfl⟩ := encodeAll_leaf_cons.mp h
      refine .cons hle (.leaf ?_ ?_ rfl (value.readFrom_ofRecord kind.number)) (ih hrest)
      · rw [kind.ofRecord_number]
      · rw [kind.ofRecord_number]
  | nested kind children rest ihchildren ih =>
      obtain ⟨inner, hinner, hle, b', hrest, rfl⟩ := encodeAll_nested_cons.mp h
      obtain ⟨hwhole, hinside⟩ := ihchildren hinner
      refine .cons hle ?_ (ih hrest)
      rw [kind.ofRecord_marked]
      exact .nested rfl rfl hinner hwhole hinside

/-- **Attributes read back as they were written**, however deep they stand inside each other: a
forest can be written if and only if every payload in it has at most 65531 octets, and then the
row that is written has no fault and reads as this forest. -/
theorem encodeAll_items (ts : List Tree) :
    ((∃ b, Item.encodeAll (items ts) = .ok b) ↔
      ∀ t ∈ subtreesOf ts, t.payloadLength ≤ 65531) ∧
    ∀ b, Item.encodeAll (items ts) = .ok b → RowReadAs ts (Attributes.ofBytes b) :=
  ⟨exists_encodeAll_iff ts, fun _ => rowReadAs_of_encodeAll⟩

/-- A text with a zero character and padded numbers, in two levels of attributes. -/
theorem encodeAll_items_nested :
    let kind : Kind := ⟨8, by decide⟩
    let ts : List Tree :=
      [.leaf kind (.text "w\x00g"),
        .nested kind [.leaf kind (.u8 7), .nested kind [], .nested kind [.leaf kind (.u64 9)]],
        .leaf kind (.octets [1, 2, 3])]
    ∃ b, Item.encodeAll (items ts) = .ok b ∧ b.length = 48 ∧
      RowReadAs ts (Attributes.ofBytes b) := by
  intro kind ts
  obtain ⟨hroom, hread⟩ := encodeAll_items ts
  obtain ⟨b, hb⟩ := hroom.mpr (by decide)
  exact ⟨b, hb, (length_of_encodeAll hb).trans (by decide), hread b hb⟩

end Tree

end WireGuardControl.Netlink

import WireGuardControl.Key
import WireGuardControl.Net.Address
import WireGuardControl.Netlink.Protocol
/-!
Attributes, the records of which the content of a netlink message consists.

* `Attribute`: a kind, a mark for attributes that hold attributes, and the payload.
* `Attributes.ofBytes`: the attributes of a row of octets. Each takes a header of four
  octets, its payload and the padding to the next multiple of four, which the last may
  lack. A `Attribute.Fault` ends the row, and the attributes before it stay valid.
* `Attributes.foldM` and `Attributes.collect`: work through a row in order; the fault at
  its end counts only if no attribute before it fails.
* `Attribute.u16`, `Attribute.string` and their like: the payload as a value.
-/

namespace WireGuardControl.Netlink

open Text

/-- One attribute. -/
structure Attribute where
  /-- What the attribute is about. -/
  kind : UInt16
  /-- Whether the payload is marked as a row of attributes. -/
  nested : Bool
  /-- The payload, without padding. -/
  payload : Bytes
  deriving DecidableEq

/-- Why a row of octets stops to be a row of attributes. -/
inductive Attribute.Fault where
  /-- Only `left` octets are left for a header. -/
  | headerTruncated (left : Nat)
  /-- The header gives a length that `left` octets cannot have. -/
  | lengthOutOfRange (length left : Nat)
  deriving DecidableEq, Repr

/-- The fault in words. -/
def Attribute.Fault.message : Attribute.Fault → String
  | .headerTruncated left => s!"attribute header truncated: {left} bytes left"
  | .lengthOutOfRange length left =>
      s!"attribute length {length} out of range ({left} bytes left)"

/-- A row of attributes, and what is wrong behind its last one. -/
structure Attributes where
  /-- The attributes in order. -/
  items : List Attribute
  /-- The fault behind them. -/
  fault : Option Attribute.Fault
  deriving DecidableEq

namespace Attributes

/-- The attributes of a row of octets. -/
def ofBytes : Bytes → Attributes
  | [] => ⟨[], none⟩
  | l₀ :: l₁ :: k₀ :: k₁ :: body =>
      let length := Bytes.toNatLE [l₀, l₁]
      let left := body.length + attributeHeaderLength
      if length < attributeHeaderLength ∨ left < length then
        ⟨[], some (.lengthOutOfRange length left)⟩
      else
        let kind := Bytes.toUInt16LE [k₀, k₁]
        let first : Attribute :=
          { kind := kind &&& kindMask
            nested := kind &&& nestedFlag != 0
            payload := body.take (length - attributeHeaderLength) }
        let rest := ofBytes (body.drop (Bytes.aligned length - attributeHeaderLength))
        ⟨first :: rest.items, rest.fault⟩
  | short => ⟨[], some (.headerTruncated short.length)⟩
  termination_by b => b.length
  decreasing_by simp only [List.length_drop, List.length_cons]; omega

/-- The fault behind a row as an error. -/
def check (xs : Attributes) : Except Error Unit :=
  match xs.fault with
  | none => .ok ()
  | some fault => .error (.decode fault.message)

/-- Works a state through the attributes in order. -/
def foldM {σ : Type} (f : σ → Attribute → Except Error σ) (s : σ) (xs : Attributes) :
    Except Error σ := do
  let s ← xs.items.foldlM f s
  xs.check
  return s

/-- Reads every attribute of a row. -/
def collect {α : Type} (f : Attribute → Except Error α) (xs : Attributes) :
    Except Error (List α) := do
  let values ← xs.items.mapM f
  xs.check
  return values

end Attributes

namespace Attribute

/-- The attributes that the payload holds. -/
def children (a : Attribute) : Attributes := Attributes.ofBytes a.payload

/-- The payload, if it has exactly `width` octets; `what` is a word for such a payload. -/
def block (a : Attribute) (width : Nat) (what : String) : Except Error (Block width) :=
  if h : a.payload.length = width then .ok ⟨a.payload, h⟩
  else .error (.decode (s!"attribute {a.kind}: expected {width} byte " ++ what ++
    s!", got {a.payload.length} bytes"))

/-- The payload as a number of eight bits. -/
def u8 (a : Attribute) : Except Error UInt8 :=
  (a.block 1 "u8").map fun b => UInt8.ofNat (Bytes.toNatLE b.bytes)

/-- The payload as a number of sixteen bits. -/
def u16 (a : Attribute) : Except Error UInt16 :=
  (a.block 2 "u16").map fun b => Bytes.toUInt16LE b.bytes

/-- The payload as a number of thirty-two bits. -/
def u32 (a : Attribute) : Except Error UInt32 :=
  (a.block 4 "u32").map fun b => Bytes.toUInt32LE b.bytes

/-- The payload as a number of sixty-four bits. -/
def u64 (a : Attribute) : Except Error UInt64 :=
  (a.block 8 "u64").map fun b => Bytes.toUInt64LE b.bytes

/-- The payload up to its first zero octet, as a text. -/
def string (a : Attribute) : Except Error String :=
  match Utf8.toString? a.payload.untilNul with
  | .ok s => .ok s
  | .error fault =>
      .error (.decode (s!"attribute {a.kind}: invalid string: " ++ fault.message))

/-- The payload as a key. -/
def key (a : Attribute) : Except Error Key :=
  (a.block 32 "key").map fun b => ⟨b.bytes, b.length_bytes⟩

/-- The payload as an address, whose family its length tells. -/
def ipAddress (a : Attribute) : Except Error IpAddress :=
  if h : a.payload.length = 4 then .ok (.v4 (IPv4.ofOctets a.payload h))
  else if h : a.payload.length = 16 then .ok (.v6 (IPv6.ofOctets a.payload h))
  else .error (.decode s!"unexpected IP address size: {a.payload.length}")

end Attribute

end WireGuardControl.Netlink

import WireGuardControl.Error
import WireGuardControl.Netlink.Protocol
import WireGuardControl.Text.Utf8
/-!
Writing attributes.

* `Item`: an attribute to be written, with a payload or with attributes inside. A value
  that has no written form stands as `Item.refused` in its place.
* `Encoder`: the octets written so far; `Encoder.add` writes an item behind them or
  fails, and then nothing is written.
* `Item.encodeAll`: the octets of a list of items.
-/

namespace WireGuardControl.Netlink

open Text

/-- An attribute to be written. -/
inductive Item where
  /-- An attribute with a payload. -/
  | plain (kind : UInt16) (payload : Bytes)
  /-- An attribute that holds attributes. -/
  | nested (kind : UInt16) (items : List Item)
  /-- A value that cannot be written, with the reason. -/
  | refused (cause : Error)

instance : Inhabited Item := ⟨.nested 0 []⟩

namespace Item

/-- An attribute that holds a number of eight bits. -/
def u8 (kind : UInt16) (v : UInt8) : Item := .plain kind [v]

/-- An attribute that holds a number of sixteen bits. -/
def u16 (kind : UInt16) (v : UInt16) : Item := .plain kind (Bytes.ofUInt16LE v)

/-- An attribute that holds a number of thirty-two bits. -/
def u32 (kind : UInt16) (v : UInt32) : Item := .plain kind (Bytes.ofUInt32LE v)

/-- An attribute that holds a number of sixty-four bits. -/
def u64 (kind : UInt16) (v : UInt64) : Item := .plain kind (Bytes.ofUInt64LE v)

/-- An attribute that holds a text, ended by a zero octet. -/
def string (kind : UInt16) (s : String) : Item := .plain kind (Utf8.ofString s ++ [0])

/-- The entry number `index` of an array, which holds attributes. -/
def entry (index : Nat) (items : List Item) : Item :=
  if index < 65536 then .nested (UInt16.ofNat index) items
  else .refused (.invalidArgument s!"array index {index} too large")

/-- The entries of an array, numbered from `start` on. -/
def entries (start : Nat) : List (List Item) → List Item
  | [] => []
  | items :: rest => entry start items :: entries (start + 1) rest

end Item

/-- The octets of the attributes written so far. -/
structure Encoder where
  /-- The octets. -/
  octets : Array UInt8 := #[]

namespace Encoder

/-- The greatest number of octets that an attribute has, its header included. -/
def maxLength : Nat := 65535

/-- Writes an attribute behind the others: its header, its payload, and zero octets up to the
next multiple of four. -/
def put (e : Encoder) (kind : UInt16) (payload : Bytes) : Except Error Encoder :=
  let length := attributeHeaderLength + payload.length
  if length ≤ maxLength then
    let written :=
      e.octets ++ Bytes.ofUInt16LE (UInt16.ofNat length) ++ Bytes.ofUInt16LE kind ++ payload
    .ok ⟨written ++ List.replicate (Bytes.padding written.size) (0 : UInt8)⟩
  else
    .error (.invalidArgument (s!"attribute {kind &&& kindMask} payload of {payload.length}" ++
      " bytes exceeds netlink limit"))

mutual

/-- Writes an item behind the others; the attributes inside a nested item are written on their
own first. -/
def add (e : Encoder) : Item → Except Error Encoder
  | .plain kind payload => e.put kind payload
  | .nested kind items => do
      let inner ← addAll {} items
      e.put (kind ||| nestedFlag) inner.octets.toList
  | .refused cause => .error cause

/-- Writes items behind the others, in order. -/
def addAll (e : Encoder) : List Item → Except Error Encoder
  | [] => .ok e
  | item :: rest => do
      let e ← add e item
      addAll e rest

end

end Encoder

/-- The octets of a list of items. -/
def Item.encodeAll (items : List Item) : Except Error Bytes :=
  (Encoder.addAll {} items).map fun e => e.octets.toList

end WireGuardControl.Netlink

import WireGuardControl.Bytes.Access
import WireGuardControl.Netlink.Attribute
import WireGuardControl.Netlink.Message
/-!
Rows of attributes and datagrams, read step by step from their octets.

* `Cursor`: what is left of a row of attributes. `Cursor.next` reads one attribute or the fault
  that ends the row, and `Cursor.Gives` is a run of such steps.
* `Message.readOne`: the message at the head of what is left of a datagram. `Message.Reads` is how
  the messages of a datagram are read one after the other.

Every octet is read at its offset, so that a step is `Outside` if there is no such octet.
-/

namespace WireGuardControl.Netlink

/-! ### Attributes -/

/-- A reader that stands in a row of attributes. -/
structure Cursor where
  /-- The octets that are left. -/
  rest : Bytes
  /-- Whether a fault has ended the row. -/
  failed : Bool := false
  deriving DecidableEq

namespace Cursor

/-- The next attribute, or the fault that ends the row, if either is left. -/
def next (c : Cursor) : Except Outside (Option (Except Attribute.Fault Attribute) × Cursor) :=
  let left := c.rest.length
  if c.failed ∨ left = 0 then .ok (none, c)
  else if left < attributeHeaderLength then
    .ok (some (.error (.headerTruncated left)), { c with failed := true })
  else do
    let length := Bytes.toNatLE (← c.rest.octetsAt 0 2)
    let kind := Bytes.toUInt16LE (← c.rest.octetsAt 2 2)
    if length < attributeHeaderLength ∨ left < length then
      return (some (.error (.lengthOutOfRange length left)), { c with failed := true })
    else
      let payload ← c.rest.slice attributeHeaderLength length
      let rest ← c.rest.slice (min (Bytes.aligned length) left) left
      let a : Attribute :=
        { kind := kind &&& kindMask, nested := kind &&& nestedFlag != 0, payload := payload }
      return (some (.ok a), { c with rest := rest })

/-- Steps of a cursor, none of which is outside of the row: they give `found`, one by one, and
leave the cursor as it is at the end. -/
inductive Gives : Cursor → List (Except Attribute.Fault Attribute) → Cursor → Prop where
  /-- No step. -/
  | nil (c : Cursor) : Gives c [] c
  /-- A step, and the steps behind it. -/
  | cons {c d e : Cursor} {x : Except Attribute.Fault Attribute}
      {found : List (Except Attribute.Fault Attribute)}
      (step : c.next = .ok (some x, d)) (later : Gives d found e) : Gives c (x :: found) e

/-- A cursor at its end gives nothing, and stays there. -/
def AtEnd (c : Cursor) : Prop := c.next = .ok (none, c)

end Cursor

/-! ### Messages -/

namespace Message

/-- The message at the head of what is left of a datagram, and the octets behind it. -/
def readOne (b : Bytes) : Except Outside (Except Error (Message × Bytes)) :=
  let left := b.length
  if left < headerLength then
    .ok (.error (.decode s!"netlink header truncated: {left} bytes"))
  else do
    let length := Bytes.toNatLE (← b.octetsAt 0 4)
    if length < headerLength ∨ left < length then
      return .error
        (.decode s!"netlink message length {length} out of range ({left} bytes left)")
    else
      let kind ← b.octetsAt 4 2
      let flags ← b.octetsAt 6 2
      let sequence ← b.octetsAt 8 4
      let port ← b.octetsAt 12 4
      let payload ← b.slice headerLength length
      let rest ← b.slice (min (Bytes.aligned length) left) left
      let m : Message :=
        { kind := Bytes.toUInt16LE kind
          flags := Bytes.toUInt16LE flags
          sequence := Bytes.toUInt32LE sequence
          port := Bytes.toUInt32LE port
          payload := payload }
      return .ok (m, rest)

/-- How the octets `b` that are left of a datagram are read behind the messages `read`, and how
that ends. No step of it is outside of the datagram. -/
inductive Reads : (b : Bytes) → (read : List Message) → Except Error (List Message) → Prop where
  /-- Nothing is left. -/
  | done (read : List Message) : Reads [] read (.ok read)
  /-- What is left does not begin with a message. -/
  | refused {b : Bytes} {read : List Message} {cause : Error} (left : b ≠ [])
      (step : readOne b = .ok (.error cause)) : Reads b read (.error cause)
  /-- A message is read, and what is behind it. -/
  | message {b rest : Bytes} {read : List Message} {m : Message}
      {outcome : Except Error (List Message)} (left : b ≠ [])
      (step : readOne b = .ok (.ok (m, rest))) (later : Reads rest (read ++ [m]) outcome) :
      Reads b read outcome

end Message

end WireGuardControl.Netlink

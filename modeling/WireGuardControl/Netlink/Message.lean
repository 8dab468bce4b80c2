import WireGuardControl.Error
import WireGuardControl.Bytes
import WireGuardControl.Netlink.Protocol
/-!
Messages, the units of a netlink exchange.

* `Message`: a header and a payload; `Message.encode` writes one, and `Message.decodeAll`
  reads the messages of a datagram, each of which ends at a multiple of four octets.
* `Message.role` and `Message.errorCode`: what a message means for an exchange.
* `GenericMessage`: the payload of a message of a generic family.
-/

namespace WireGuardControl.Netlink

/-- One message. -/
structure Message where
  /-- What the message is about. -/
  kind : UInt16 := 0
  /-- The flags of the message. -/
  flags : UInt16 := 0
  /-- The number of the request to which the message belongs. -/
  sequence : UInt32 := 0
  /-- The port of the sender. -/
  port : UInt32 := 0
  /-- The content, without padding. -/
  payload : Bytes := []
  deriving DecidableEq

namespace Message

/-- The octets of a message, carried to a multiple of four. -/
def encode (m : Message) : Except Error Bytes :=
  let length := headerLength + m.payload.length
  if length < UInt32.size then
    .ok (Bytes.padded (Bytes.ofNatLE 4 length ++ Bytes.ofUInt16LE m.kind ++
      Bytes.ofUInt16LE m.flags ++ Bytes.ofUInt32LE m.sequence ++ Bytes.ofUInt32LE m.port ++
      m.payload))
  else .error (.invalidArgument "netlink message too large")

/-- The message at the head of a row of octets that is long enough for it. -/
def ofBytes (b : Bytes) : Message where
  kind := Bytes.toUInt16LE (b.field 4 2)
  flags := Bytes.toUInt16LE (b.field 6 2)
  sequence := Bytes.toUInt32LE (b.field 8 4)
  port := Bytes.toUInt32LE (b.field 12 4)
  payload := b.drop headerLength

/-- The messages of a datagram. -/
def decodeAll (b : Bytes) : Except Error (List Message) :=
  let left := b.length
  if left = 0 then .ok []
  else if left < headerLength then
    .error (.decode s!"netlink header truncated: {left} bytes")
  else
    let length := Bytes.toNatLE (b.take 4)
    if length < headerLength ∨ left < length then
      .error (.decode s!"netlink message length {length} out of range ({left} bytes left)")
    else do
      let rest ← decodeAll (b.drop (Bytes.aligned length))
      return ofBytes (b.take length) :: rest
  termination_by b.length
  decreasing_by
    simp only [List.length_drop, Bytes.aligned, headerLength] at *
    omega

/-- What a message means for the exchange to which it belongs. -/
inductive Role where
  /-- The message has no meaning. -/
  | noop
  /-- The message reports an error, or success. -/
  | error
  /-- The message ends a dump. -/
  | done
  /-- The message is part of the answer. -/
  | data
  deriving DecidableEq, Repr

/-- The role of a message, which its kind tells. -/
def role (m : Message) : Role :=
  if m.kind = kindNoop then .noop
  else if m.kind = kindError then .error
  else if m.kind = kindDone then .done
  else .data

/-- The signed number at the head of the payload, zero if the payload is too short. -/
def errorCode (m : Message) : Int32 :=
  if m.payload.length < 4 then 0 else Bytes.toInt32LE (m.payload.take 4)

/-- Whether more messages of the same answer follow. -/
def isMulti (m : Message) : Bool := m.flags &&& flagMulti != 0

end Message

/-- The content of a message of a generic family. -/
structure GenericMessage where
  /-- The command. -/
  command : UInt8
  /-- The version of the family. -/
  version : UInt8
  /-- The attributes. -/
  data : Bytes
  deriving DecidableEq

namespace GenericMessage

/-- The octets in front of the attributes. -/
def headerLength : Nat := 4

/-- The payload that holds a generic message. -/
def encode (g : GenericMessage) : Bytes := g.command :: g.version :: 0 :: 0 :: g.data

/-- The generic message of a payload. -/
def decode (payload : Bytes) : Except Error GenericMessage :=
  match payload with
  | command :: version :: _ :: _ :: data => .ok ⟨command, version, data⟩
  | short => .error (.decode s!"generic netlink header truncated: {short.length} bytes")

@[simp] theorem decode_encode (g : GenericMessage) : decode g.encode = .ok g := rfl

end GenericMessage

end WireGuardControl.Netlink

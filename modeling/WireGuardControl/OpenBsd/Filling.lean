import WireGuardControl.OpenBsd.Record
/-!
The buffer of an update, filled in place.

* `putAt` and `fillPart`: octets, or the content of a part, in place of those that a buffer has
  there. A buffer never grows, and whatever would end behind it is a `FillFault`.
* `fillConfig`: the whole buffer is zeroed first. Then a cursor goes from record to record, and
  every field is put at its offset in its record.
-/

namespace WireGuardControl.OpenBsd

/-- Why a buffer is not filled. -/
inductive FillFault where
  /-- The update has a value that the records cannot hold. -/
  | refused (cause : Error)
  /-- Octets would end at the offset `stop` of a buffer of `room` octets. -/
  | outside (stop room : Nat)
  deriving DecidableEq

/-- Puts octets into a buffer from an offset on, in place of as many others. -/
def putAt (b : Bytes) (offset : Nat) (octets : Bytes) : Except FillFault Bytes :=
  let stop := offset + octets.length
  if stop ≤ b.length then .ok (b.take offset ++ octets ++ b.drop stop)
  else .error (.outside stop b.length)

/-- Puts octets into a buffer, if there are any to put. -/
def putSome (b : Bytes) (offset : Nat) : Option Bytes → Except FillFault Bytes
  | none => .ok b
  | some octets => putAt b offset octets

/-- Fills the `width` octets of a buffer from an offset on. What fills them sees no others. -/
def fillPart (b : Bytes) (offset width : Nat) (fill : Bytes → Except FillFault Bytes) :
    Except FillFault Bytes :=
  let stop := offset + width
  if stop ≤ b.length then do
    let part ← fill (b.field offset width)
    return b.take offset ++ part ++ b.drop stop
  else .error (.outside stop b.length)

/-- Fills the record of a network. -/
def fillNetwork (n : Network) (b : Bytes) : Except FillFault Bytes := do
  let b ← putAt b 0 [if n.address.isIPv4 then familyIPv4 else familyIPv6]
  let b ← putAt b 8 n.address.octets
  putAt b 4 (Bytes.ofNatLE 4 n.bits)

/-- Fills the record of the update of a peer. -/
def fillPeer (p : PeerConfig) (b : Bytes) : Except FillFault Bytes := do
  let b ← putAt b 8 p.publicKey.bytes
  let b ← putSome b 40 (p.presharedKey.map (·.bytes))
  let keepalive ← (p.keepalive.mapM keepaliveSeconds).mapError .refused
  let b ← putSome b 72 (keepalive.map Bytes.ofUInt16LE)
  let b ← putSome b 76 (p.endpoint.map encodeEndpoint)
  let b ← putAt b 0 (Bytes.ofUInt32LE (peerFlags p))
  putAt b 136 (Bytes.ofNatLE 8 p.allowedIps.length)

/-- Fills the record of an interface, with which a buffer begins. -/
def fillInterface (c : Config) (b : Bytes) : Except FillFault Bytes := do
  let b ← putSome b 40 (c.privateKey.map (·.bytes))
  let b ← putSome b 2 (c.listenPort.map Bytes.ofUInt16BE)
  let table ← (c.firewallMark.mapM tableNumber).mapError .refused
  let b ← putSome b 4 (table.map Bytes.ofUInt32LE)
  let b ← putAt b 0 (Bytes.ofUInt16LE (configFlags c))
  putAt b 72 (Bytes.ofNatLE 8 c.peers.length)

/-- Fills the records of networks from the cursor on, and gives the cursor behind them. -/
def fillNetworks (b : Bytes) (cursor : Nat) : List Network → Except FillFault (Bytes × Nat)
  | [] => .ok (b, cursor)
  | n :: rest => do
      let b ← fillPart b cursor networkLength (fillNetwork n)
      fillNetworks b (cursor + networkLength) rest

/-- Fills the records of updates of peers from the cursor on, each followed by those of its
networks, and gives the cursor behind them. -/
def fillPeers (b : Bytes) (cursor : Nat) : List PeerConfig → Except FillFault (Bytes × Nat)
  | [] => .ok (b, cursor)
  | p :: rest => do
      let b ← fillPart b cursor peerLength (fillPeer p)
      let (b, cursor) ← fillNetworks b (cursor + peerLength) p.allowedIps
      fillPeers b cursor rest

/-- The octets of the buffer of an update. -/
def bufferLength (c : Config) : Nat :=
  interfaceLength + c.peers.length * peerLength + c.allowedIpCount * networkLength

/-- Fills the buffer of an update, and gives the cursor behind the last record. -/
def fillConfig (c : Config) : Except FillFault (Bytes × Nat) := do
  let b ← fillInterface c (List.replicate (bufferLength c) 0)
  fillPeers b interfaceLength c.peers

end WireGuardControl.OpenBsd

import WireGuardControl.Device
import WireGuardControl.Netlink.Attribute
import WireGuardControl.Netlink.SocketAddress
/-!
Reading a device from the messages that describe it.

* `readDevice`: one message. An attribute that occurs again overwrites what it gave before,
  only networks add up, and unknown attributes are passed over.
* `merge`: adds the peers of a later message. A peer that is known already gains the
  networks of the later one, and every other peer is appended.
* `ofDump`: the device that a whole answer describes.
-/

namespace WireGuardControl.Netlink

/-! ### Parts of a peer -/

/-- What a network's attributes have told so far. -/
structure NetworkDraft where
  /-- The address family. -/
  family : Option UInt16 := none
  /-- The address. -/
  address : Option IpAddress := none
  /-- The number of leading bits. -/
  bits : Option UInt8 := none

/-- Takes one attribute of a network in. -/
def NetworkDraft.step (d : NetworkDraft) (a : Attribute) : Except Error NetworkDraft := do
  if a.kind = NetworkField.family then return { d with family := some (← a.u16) }
  else if a.kind = NetworkField.address then return { d with address := some (← a.ipAddress) }
  else if a.kind = NetworkField.bits then return { d with bits := some (← a.u8) }
  else return d

/-- The network that a draft describes: it must have an address, a family that fits it if
there is one, and as many leading bits as the address has if they are not given. -/
def NetworkDraft.finish (d : NetworkDraft) : Except Error Network :=
  match d.address with
  | none => .error (.decode "allowed IP without address")
  | some x =>
      let own := if x.isIPv4 then familyIPv4 else familyIPv6
      let width := if x.isIPv4 then 32 else 128
      match d.family.filter (· ≠ own) with
      | some f =>
          .error (.decode (s!"allowed IP family {f} does not match address " ++ x.text))
      | none =>
          match Network.ofAddress? x ((d.bits.map (·.toNat)).getD width) with
          | some n => .ok n
          | none => .error (.decode ("allowed IP " ++ x.text ++ ": " ++ Network.bitsFault))

/-- Reads a network from an entry of the array of networks. -/
def readNetwork (entry : Attribute) : Except Error Network := do
  (← entry.children.foldM NetworkDraft.step {}).finish

/-- Reads a time of seconds and nanoseconds, both of four or both of eight octets. -/
def readTimespec (b : Bytes) : Except Error (Option Instant) := do
  let (seconds, nanoseconds) ←
    if b.length = 8 then
      pure ((Bytes.toInt32LE (b.field 0 4)).toInt64, (Bytes.toInt32LE (b.field 4 4)).toInt64)
    else if b.length = 16 then
      pure (Bytes.toInt64LE (b.field 0 8), Bytes.toInt64LE (b.field 8 8))
    else throw (.decode s!"unexpected timespec size: {b.length}")
  let negative : Error :=
    if seconds < 0 then .decode s!"negative timespec seconds: {seconds.toInt}"
    else .decode s!"negative timespec nanoseconds: {nanoseconds.toInt}"
  Instant.ofSignedHandshake negative seconds nanoseconds

/-! ### Peers and devices -/

/-- Takes one attribute of a peer in. -/
def peerStep (p : Peer) (a : Attribute) :
    Except Error Peer := do
  if a.kind = PeerField.publicKey then return { p with publicKey := ← a.key }
  else if a.kind = PeerField.presharedKey then return { p with presharedKey := ← a.key }
  else if a.kind = PeerField.endpoint then
    return { p with endpoint := some (← SocketAddress.decode a.payload) }
  else if a.kind = PeerField.keepalive then
    return { p with keepalive := Interval.ofSeconds (← a.u16).toUInt64 }
  else if a.kind = PeerField.lastHandshake then
    return { p with lastHandshake := ← readTimespec a.payload }
  else if a.kind = PeerField.receivedBytes then return { p with receivedBytes := ← a.u64 }
  else if a.kind = PeerField.sentBytes then return { p with sentBytes := ← a.u64 }
  else if a.kind = PeerField.allowedIps then
    return { p with allowedIps := p.allowedIps ++ (← a.children.collect readNetwork) }
  else if a.kind = PeerField.protocolVersion then return { p with protocolVersion := ← a.u32 }
  else return p

/-- Reads a peer from an entry of the array of peers. -/
def readPeer (entry : Attribute) : Except Error Peer :=
  entry.children.foldM peerStep {}

/-- Takes one attribute of a device in. -/
def deviceStep (d : Device) (a : Attribute) :
    Except Error Device := do
  if a.kind = DeviceField.name then return { d with name := ← a.string }
  else if a.kind = DeviceField.privateKey then return { d with privateKey := ← a.key }
  else if a.kind = DeviceField.publicKey then return { d with publicKey := ← a.key }
  else if a.kind = DeviceField.listenPort then return { d with listenPort := ← a.u16 }
  else if a.kind = DeviceField.firewallMark then return { d with firewallMark := ← a.u32 }
  else if a.kind = DeviceField.peers then return { d with peers := ← a.children.collect readPeer }
  else return d

/-- Reads a device from the attributes of one message. -/
def readDevice (data : Bytes) : Except Error Device :=
  (Attributes.ofBytes data).foldM deviceStep { deviceType := .linuxKernel }

/-! ### Answers of several messages -/

/-- Adds a peer to a list: the last peer with its key gains its networks, and a new key is
appended. -/
def addPeer (peers : List Peer) (p : Peer) :
    List Peer :=
  let gain := fun (q : Peer) => { q with allowedIps := q.allowedIps ++ p.allowedIps }
  match peers.reverse.findIdx? fun q => q.publicKey = p.publicKey with
  | some back => peers.modify (peers.length - 1 - back) gain
  | none => peers ++ [p]

/-- Adds the peers of a later message about the same device. -/
def merge (target fragment : Device) : Device :=
  { target with peers := fragment.peers.foldl addPeer target.peers }

/-- Merges the messages behind the first one into a device, in order. -/
def mergeAll (target : Device) (messages : List Bytes) :
    Except Error Device :=
  messages.foldlM (fun d data => (readDevice data).map (merge d)) target

/-- Reads a device from the messages of an answer. -/
def ofDump : List Bytes → Except Error Device
  | [] => .error (.decode "empty device dump")
  | first :: rest => do mergeAll (← readDevice first) rest

end WireGuardControl.Netlink

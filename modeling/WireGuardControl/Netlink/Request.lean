import WireGuardControl.Config
import WireGuardControl.Netlink.Encoder
import WireGuardControl.Netlink.SocketAddress
/-!
Requests to the WireGuard family.

* `configItems`: an update as attributes; a field that is absent has none. Peers and
  networks are arrays, numbered from zero.
* `encodeConfig`: the octets of an update for a device.
* `nameRequest`: the octets that name the device to be read.
-/

namespace WireGuardControl.Netlink

/-! ### Peers -/

/-- The attributes of a network. -/
def networkItems (n : Network) : List Item :=
  let family := if n.address.isIPv4 then familyIPv4 else familyIPv6
  [.u16 NetworkField.family family, .plain NetworkField.address n.address.octets,
    .u8 NetworkField.bits (UInt8.ofNat n.bits)]

/-- The flags of the update of a peer. -/
def peerFlags (p : PeerConfig) : UInt32 :=
  (if p.remove then PeerField.remove else 0) |||
    (if p.replaceAllowedIps then PeerField.replaceAllowedIps else 0) |||
    (if p.updateOnly then PeerField.updateOnly else 0)

/-- The greatest interval of keepalives, in seconds. -/
def maxKeepalive : Nat := 65535

/-- The attribute of an interval of keepalives, cut to whole seconds. -/
def keepaliveItem (i : Interval) : Item :=
  if i.seconds.toNat ≤ maxKeepalive then .u16 PeerField.keepalive i.seconds.toUInt16
  else .refused (.invalidArgument
    s!"persistent keepalive interval {i.seconds}s exceeds {maxKeepalive}s")

/-- The attributes of the update of a peer. -/
def peerItems (p : PeerConfig) : List Item :=
  [.plain PeerField.publicKey p.publicKey.bytes] ++
    (if peerFlags p = 0 then [] else [.u32 PeerField.flags (peerFlags p)]) ++
    (p.presharedKey.map fun key => Item.plain PeerField.presharedKey key.bytes).toList ++
    (p.endpoint.map fun e => Item.plain PeerField.endpoint (SocketAddress.encode e)).toList ++
    (p.keepalive.map keepaliveItem).toList ++
    (if p.allowedIps = [] then []
      else [.nested PeerField.allowedIps (Item.entries 0 (p.allowedIps.map networkItems))])

/-! ### Devices -/

/-- The attributes of an update of the device `name`. -/
def configItems (name : String) (c : Config) : List Item :=
  [.string DeviceField.name name] ++
    (c.privateKey.map fun key => Item.plain DeviceField.privateKey key.bytes).toList ++
    (c.listenPort.map (Item.u16 DeviceField.listenPort)).toList ++
    (c.firewallMark.map (Item.u32 DeviceField.firewallMark)).toList ++
    (if c.replacePeers then [.u32 DeviceField.flags DeviceField.replacePeers] else []) ++
    (if c.peers = [] then []
      else [.nested DeviceField.peers (Item.entries 0 (c.peers.map peerItems))])

/-- The octets of an update of the device `name`. -/
def encodeConfig (name : String) (c : Config) : Except Error Bytes :=
  Item.encodeAll (configItems name c)

/-- The octets that name the device to be read. -/
def nameRequest (name : String) : Except Error Bytes :=
  Item.encodeAll [.string DeviceField.name name]

end WireGuardControl.Netlink

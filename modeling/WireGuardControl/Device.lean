import WireGuardControl.Key
import WireGuardControl.Net.Endpoint
import WireGuardControl.Net.Network
import WireGuardControl.Time
/-!
Devices as they are read.

* `Device`: one interface, with its `Peer`s in the order in which they were reported.
* `DeviceType`: which implementation stands behind an interface.
* `Device.peer?`: the first peer with a given key.
-/

namespace WireGuardControl

/-- The implementation behind a device. -/
inductive DeviceType where
  /-- The implementation is not known. -/
  | unknown
  /-- The module of the Linux kernel. -/
  | linuxKernel
  /-- The driver of the OpenBSD kernel. -/
  | openBsdKernel
  /-- A program outside the kernel. -/
  | userspace
  deriving DecidableEq, Repr

/-- The words for an implementation. -/
def DeviceType.text : DeviceType → String
  | .unknown => "unknown"
  | .linuxKernel => "Linux kernel"
  | .openBsdKernel => "OpenBSD kernel"
  | .userspace => "userspace"

/-- A peer of a device. -/
structure Peer where
  /-- The key by which the peer is known. -/
  publicKey : Key := Key.zero
  /-- The preshared key, zero if there is none. -/
  presharedKey : Key := Key.zero
  /-- The latest source of the peer's datagrams. -/
  endpoint : Option Endpoint := none
  /-- The interval of keepalives, zero if there are none. -/
  keepalive : Interval := Interval.zero
  /-- The time of the latest handshake. -/
  lastHandshake : Option Instant := none
  /-- The octets received from the peer. -/
  receivedBytes : UInt64 := 0
  /-- The octets sent to the peer. -/
  sentBytes : UInt64 := 0
  /-- The networks of the peer. -/
  allowedIps : List Network := []
  /-- The version of the protocol, zero for the latest. -/
  protocolVersion : UInt32 := 0
  deriving DecidableEq

/-- A device as it was read. -/
structure Device where
  /-- The name of the interface. -/
  name : String := ""
  /-- The implementation behind the device. -/
  deviceType : DeviceType := DeviceType.unknown
  /-- The private key, zero if there is none. -/
  privateKey : Key := Key.zero
  /-- The public key. -/
  publicKey : Key := Key.zero
  /-- The port on which the device listens. -/
  listenPort : UInt16 := 0
  /-- The mark of outgoing packets, zero if there is none. -/
  firewallMark : UInt32 := 0
  /-- The peers in the order in which they were reported. -/
  peers : List Peer := []
  deriving DecidableEq

/-- The first peer with the public key `key`. -/
def Device.peer? (d : Device) (key : Key) : Option Peer :=
  d.peers.find? fun p => p.publicKey = key

end WireGuardControl

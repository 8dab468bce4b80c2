import WireGuardControl.Device
/-!
What is shown of a device.

* `DeviceView`, `PeerView`: the parts of a device and of its peers that are printed, in any
  format.
* `secret`: a private or preshared key is shown as hidden unless keys are to be revealed, and
  a key that is not set is not shown at all.
-/

namespace WireGuardControl.Show

/-- What is shown of a peer. -/
structure PeerView where
  /-- The text of the public key. -/
  publicKey : String
  /-- What is shown of the preshared key, if it is set. -/
  presharedKey : Option String
  /-- The endpoint. -/
  endpoint : Option Endpoint
  /-- The networks. -/
  allowedIps : List Network
  /-- The seconds from the epoch to the latest handshake. -/
  latestHandshake : Option UInt64
  /-- The octets received. -/
  receivedBytes : UInt64
  /-- The octets sent. -/
  sentBytes : UInt64
  /-- The seconds between keepalives, zero if there are none. -/
  keepalive : UInt64
  /-- The version of the protocol. -/
  protocolVersion : UInt32
  deriving DecidableEq

/-- What is shown of a device. -/
structure DeviceView where
  /-- The name of the interface. -/
  name : String
  /-- The implementation behind the device. -/
  deviceType : DeviceType
  /-- The text of the public key, if it is set. -/
  publicKey : Option String
  /-- What is shown of the private key, if it is set. -/
  privateKey : Option String
  /-- The port on which the device listens. -/
  listenPort : UInt16
  /-- The mark of outgoing packets. -/
  firewallMark : UInt32
  /-- What is shown of the peers. -/
  peers : List PeerView
  deriving DecidableEq

/-- The text that stands for a hidden key. -/
def hiddenText : String := "(hidden)"

/-- What is shown of a key that is kept secret unless `reveal` is set. -/
def secret (reveal : Bool) (k : Key) : Option String :=
  if k.isZero then none else some (if reveal then k.base64 else hiddenText)

/-- What is shown of a peer. -/
def PeerView.ofPeer (reveal : Bool) (p : Peer) : PeerView where
  publicKey := p.publicKey.base64
  presharedKey := secret reveal p.presharedKey
  endpoint := p.endpoint
  allowedIps := p.allowedIps
  latestHandshake := (p.lastHandshake.bind Instant.sinceEpoch?).map (·.seconds)
  receivedBytes := p.receivedBytes
  sentBytes := p.sentBytes
  keepalive := p.keepalive.seconds
  protocolVersion := p.protocolVersion

/-- What is shown of a device. -/
def DeviceView.ofDevice (reveal : Bool) (d : Device) : DeviceView where
  name := d.name
  deviceType := d.deviceType
  publicKey := if d.publicKey.isZero then none else some d.publicKey.base64
  privateKey := secret reveal d.privateKey
  listenPort := d.listenPort
  firewallMark := d.firewallMark
  peers := d.peers.map (PeerView.ofPeer reveal)

end WireGuardControl.Show

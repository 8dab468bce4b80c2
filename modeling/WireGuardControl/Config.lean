import WireGuardControl.Key
import WireGuardControl.Net.Endpoint
import WireGuardControl.Net.Network
import WireGuardControl.Time
/-!
Updates of devices.

* `Config`: which settings of a device to change, and `PeerConfig`s for its peers. A
  field that is absent leaves the present value alone; a present zero clears it.
* `Config.allowedIpCount`: the number of networks over all peers.
* `Config.withPeer` and the other functions `with…` build an update step by step.
-/

namespace WireGuardControl

/-- An update of one peer. -/
structure PeerConfig where
  /-- The key of the peer. -/
  publicKey : Key := Key.zero
  /-- Removes the peer. -/
  remove : Bool := false
  /-- Updates the peer only if it exists. -/
  updateOnly : Bool := false
  /-- The preshared key to set. -/
  presharedKey : Option Key := none
  /-- The endpoint to set. -/
  endpoint : Option Endpoint := none
  /-- The interval of keepalives to set. -/
  keepalive : Option Interval := none
  /-- Discards the networks of the peer before the new ones are added. -/
  replaceAllowedIps : Bool := false
  /-- The networks to add. -/
  allowedIps : List Network := []
  deriving DecidableEq

/-- An update of a device. -/
structure Config where
  /-- The private key to set. -/
  privateKey : Option Key := none
  /-- The port to listen on. -/
  listenPort : Option UInt16 := none
  /-- The mark of outgoing packets to set. -/
  firewallMark : Option UInt32 := none
  /-- Discards all peers before the new ones are added. -/
  replacePeers : Bool := false
  /-- The updates of peers, in the order in which they are applied. -/
  peers : List PeerConfig := []
  deriving DecidableEq

namespace Config

/-- The number of networks that an update adds, over all peers. -/
def allowedIpCount (c : Config) : Nat := (c.peers.flatMap (·.allowedIps)).length

/-! ### Building updates -/

/-- Sets the private key. -/
def withPrivateKey (c : Config) (key : Key) : Config := { c with privateKey := some key }

/-- Sets the port to listen on. -/
def withListenPort (c : Config) (port : UInt16) : Config := { c with listenPort := some port }

/-- Sets the mark of outgoing packets. -/
def withFirewallMark (c : Config) (mark : UInt32) : Config := { c with firewallMark := some mark }

/-- Discards all peers first. -/
def replacingPeers (c : Config) : Config := { c with replacePeers := true }

/-- Adds the update of a peer behind the others. -/
def withPeer (c : Config) (p : PeerConfig) : Config := { c with peers := c.peers ++ [p] }

end Config

namespace PeerConfig

/-- Removes the peer. -/
def removing (p : PeerConfig) : PeerConfig := { p with remove := true }

/-- Updates the peer only if it exists. -/
def updatingOnly (p : PeerConfig) : PeerConfig := { p with updateOnly := true }

/-- Sets the preshared key. -/
def withPresharedKey (p : PeerConfig) (key : Key) : PeerConfig :=
  { p with presharedKey := some key }

/-- Sets the endpoint. -/
def withEndpoint (p : PeerConfig) (e : Endpoint) : PeerConfig := { p with endpoint := some e }

/-- Sets the interval of keepalives. -/
def withKeepalive (p : PeerConfig) (i : Interval) : PeerConfig := { p with keepalive := some i }

/-- Discards the networks of the peer first. -/
def replacingAllowedIps (p : PeerConfig) : PeerConfig := { p with replaceAllowedIps := true }

/-- Adds a network behind the others. -/
def withAllowedIp (p : PeerConfig) (n : Network) : PeerConfig :=
  { p with allowedIps := p.allowedIps ++ [n] }

end PeerConfig

end WireGuardControl

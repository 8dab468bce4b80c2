import WireGuardControl.Config
import WireGuardControl.Device
/-!
The device that an update describes, if it is the first that a device gets.

* `PeerConfig.described`: a peer with the settings of its update. What is absent is unset,
  and an interval of keepalives counts in whole seconds.
* `Config.described`: the device with one peer for each update of a peer, in order.
-/

namespace WireGuardControl

/-- The peer that an update describes. -/
def PeerConfig.described (c : PeerConfig) : Peer where
  publicKey := c.publicKey
  presharedKey := c.presharedKey.getD Key.zero
  endpoint := c.endpoint
  keepalive := (c.keepalive.getD Interval.zero).wholeSeconds
  allowedIps := c.allowedIps

/-- The device that an update describes, under a name and behind an implementation; its public
key is not part of an update. -/
def Config.described (c : Config) (name : String) (deviceType : DeviceType) : Device where
  name := name
  deviceType := deviceType
  privateKey := c.privateKey.getD Key.zero
  listenPort := c.listenPort.getD 0
  firewallMark := c.firewallMark.getD 0
  peers := c.peers.map (·.described)

/-- A described device has the keys of the updates of its peers, in order. -/
@[simp] theorem Config.publicKeys_described (c : Config) (name : String)
    (deviceType : DeviceType) :
    (c.described name deviceType).peers.map (·.publicKey) = c.peers.map (·.publicKey) := by
  simp [Config.described, PeerConfig.described]

end WireGuardControl

import WireGuardControl.Config
import WireGuardControl.Device
/-!
What an update does to a device.

* `PeerConfig.revise`: a peer after its settings are changed. What is absent stays, and
  networks are added behind those that are kept.
* `PeerConfig.apply`: the peers of a device after the update of one of them, which may remove
  it, or create it where it does not exist.
* `Config.apply`: the device after an update, whose peers are worked off in order. What a
  device reports of its own accord, such as its counters, is left alone.
-/

namespace WireGuardControl

namespace PeerConfig

/-- A peer with the settings of an update. -/
def revise (c : PeerConfig) (p : Peer) : Peer :=
  { p with
    presharedKey := c.presharedKey.getD p.presharedKey
    endpoint := c.endpoint.or p.endpoint
    keepalive := c.keepalive.getD p.keepalive
    allowedIps := (if c.replaceAllowedIps then [] else p.allowedIps) ++ c.allowedIps }

/-- The peers after the update of one of them. -/
def apply (c : PeerConfig) (peers : List Peer) : List Peer :=
  if c.remove then peers.filter fun p => p.publicKey ≠ c.publicKey
  else if c.publicKey ∈ peers.map (·.publicKey) then
    peers.map fun p => if p.publicKey = c.publicKey then c.revise p else p
  else if c.updateOnly then peers
  else peers ++ [c.revise { publicKey := c.publicKey }]

@[simp] theorem publicKey_revise (c : PeerConfig) (p : Peer) :
    (c.revise p).publicKey = p.publicKey := rfl

/-- An update with nothing but a key changes no peer. -/
@[simp] theorem revise_ofKey (key : Key) (p : Peer) :
    ({ publicKey := key } : PeerConfig).revise p = p := by
  simp [revise]

end PeerConfig

namespace Config

/-- A device after an update. -/
def apply (c : Config) (d : Device) : Device :=
  { d with
    privateKey := c.privateKey.getD d.privateKey
    listenPort := c.listenPort.getD d.listenPort
    firewallMark := c.firewallMark.getD d.firewallMark
    peers := c.peers.foldl (fun peers p => p.apply peers) (if c.replacePeers then [] else d.peers) }

/-- An update with nothing in it changes nothing. -/
@[simp] theorem apply_empty (d : Device) : ({} : Config).apply d = d := rfl

end Config

end WireGuardControl

import WireGuardControl.Config
/-!
What the written forms of an update leave out.

* `Config.inWholeSeconds`: an update without the parts of its intervals below one second, which no
  form has.
* `Config.withoutFlow`: an update without the flow information of its endpoints, which has no text.
-/

namespace WireGuardControl

/-- The update with an interval of keepalives of whole seconds. -/
def PeerConfig.inWholeSeconds (p : PeerConfig) : PeerConfig :=
  { p with keepalive := p.keepalive.map Interval.wholeSeconds }

/-- The update without the flow information of its endpoint. -/
def PeerConfig.withoutFlow (p : PeerConfig) : PeerConfig :=
  { p with endpoint := p.endpoint.map Endpoint.withoutFlow }

/-- The update with intervals of keepalives of whole seconds. -/
def Config.inWholeSeconds (c : Config) : Config :=
  { c with peers := c.peers.map PeerConfig.inWholeSeconds }

/-- The update without the flow information of its endpoints. -/
def Config.withoutFlow (c : Config) : Config :=
  { c with peers := c.peers.map PeerConfig.withoutFlow }

end WireGuardControl

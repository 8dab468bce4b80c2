import WireGuardControl.Config
/-!
Requests to a WireGuard program, as lines of text.

* `Line`: a key and a value; `Line.chars` writes them with an equals sign between.
* `getRequest`: asks for the device.
* `configLines` and `setRequest`: an update as lines; a field that is absent has none. A
  request ends with a blank line.
-/

namespace WireGuardControl.Uapi

open Text

/-- A key and a value. -/
structure Line where
  /-- The key. -/
  key : String
  /-- The value. -/
  value : List Char
  deriving DecidableEq

namespace Line

/-- The text of a line, with its end. -/
def chars (l : Line) : List Char := l.key.toList ++ '=' :: (l.value ++ ['\n'])

/-- A line whose value is a number. -/
def number (key : String) (n : Nat) : Line := ⟨key, Decimal.ofNat n⟩

/-- A line whose value is a key in hexadecimal digits. -/
def hexKey (key : String) (k : Key) : Line := ⟨key, k.hexChars⟩

/-- A line that switches something on, if `on`. -/
def switch (key : String) (on : Bool) : List Line :=
  if on then [⟨key, "true".toList⟩] else []

end Line

/-- The request for the device. -/
def getRequest : List Char := "get=1\n\n".toList

/-- The lines of an update of a peer. -/
def peerLines (p : PeerConfig) : List Line :=
  [.hexKey "public_key" p.publicKey] ++
    Line.switch "remove" p.remove ++
    Line.switch "update_only" p.updateOnly ++
    (p.presharedKey.map (Line.hexKey "preshared_key")).toList ++
    (p.endpoint.map fun e => Line.mk "endpoint" e.chars).toList ++
    (p.keepalive.map fun i =>
      Line.number "persistent_keepalive_interval" i.seconds.toNat).toList ++
    Line.switch "replace_allowed_ips" p.replaceAllowedIps ++
    p.allowedIps.map fun n => Line.mk "allowed_ip" n.chars

/-- The lines of an update. -/
def configLines (c : Config) : List Line :=
  (c.privateKey.map (Line.hexKey "private_key")).toList ++
    (c.listenPort.map fun port => Line.number "listen_port" port.toNat).toList ++
    (c.firewallMark.map fun mark => Line.number "fwmark" mark.toNat).toList ++
    Line.switch "replace_peers" c.replacePeers ++
    c.peers.flatMap peerLines

/-- The request that applies an update. -/
def setRequest (c : Config) : List Char :=
  "set=1\n".toList ++ (configLines c).flatMap Line.chars ++ ['\n']

end WireGuardControl.Uapi

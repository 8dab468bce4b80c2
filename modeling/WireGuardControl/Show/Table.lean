import WireGuardControl.Show.Units
import WireGuardControl.Show.View
/-!
Devices as indented lines.

* `PeerView.lines`, `DeviceView.lines`: a line for each part that is set; a blank line stands
  in front of each peer.
* `table`: several devices with a blank line between them.

Handshakes are shown by their age at the time `now`, in seconds since the epoch.
-/

namespace WireGuardControl.Show

open Text

/-- A line of its own if there is something to show. -/
def lineFor (label : String) : Option String → List String
  | some s => [label ++ s]
  | none => []

/-- A line of its own unless `n` is zero. -/
def lineUnlessZero (label : String) (n : Nat) (shown : String) : List String :=
  if n = 0 then [] else [label ++ shown]

/-- The networks of a peer in one line. -/
def networksText (l : List Network) : String :=
  if l = [] then "(none)" else ", ".intercalate (l.map Network.text)

/-- The hexadecimal text of a mark. -/
def markText (n : Nat) : String := "0x" ++ String.ofList (Quoted.hexDigits n)

/-- The data that has gone through to a peer and come from it. -/
def transferText (received sent : Nat) : String :=
  amount received ++ " received, " ++ amount sent ++ " sent"

/-- The lines of a peer. -/
def PeerView.lines (now : Nat) (p : PeerView) : List String :=
  ["peer: " ++ p.publicKey] ++
  lineFor "  preshared key: " p.presharedKey ++
  lineFor "  endpoint: " (p.endpoint.map Endpoint.text) ++
  ["  allowed ips: " ++ networksText p.allowedIps] ++
  lineFor "  latest handshake: " (p.latestHandshake.map fun t => ago (now - t.toNat)) ++
  lineUnlessZero "  transfer: " (p.receivedBytes.toNat + p.sentBytes.toNat)
    (transferText p.receivedBytes.toNat p.sentBytes.toNat) ++
  lineUnlessZero "  persistent keepalive: every " p.keepalive.toNat
    (duration p.keepalive.toNat)

/-- The lines of a device. -/
def DeviceView.lines (now : Nat) (d : DeviceView) : List String :=
  ["interface: " ++ d.name] ++
  lineFor "  public key: " d.publicKey ++
  lineFor "  private key: " d.privateKey ++
  lineUnlessZero "  listening port: " d.listenPort.toNat (Decimal.text d.listenPort.toNat) ++
  lineUnlessZero "  fwmark: " d.firewallMark.toNat (markText d.firewallMark.toNat) ++
  d.peers.flatMap fun p => "" :: p.lines now

/-- Lines as a text. -/
def unlines (l : List String) : String := String.join (l.map (· ++ "\n"))

/-- The table of one device. -/
def DeviceView.table (now : Nat) (d : DeviceView) : String := unlines (d.lines now)

/-- The table of several devices. -/
def table (now : Nat) (l : List DeviceView) : String :=
  "\n".intercalate (l.map (DeviceView.table now))

end WireGuardControl.Show

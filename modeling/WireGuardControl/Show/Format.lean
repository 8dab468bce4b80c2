import WireGuardControl.Json.Model
import WireGuardControl.Show.Table
/-!
The formats in which devices are printed.

* `PeerView.json`, `DeviceView.json`: the views as JSON; what is not set is left out.
* `Format`: the table and JSON. `Format.all` prints a list of devices and `Format.one` a
  single device.
-/

namespace WireGuardControl.Show

open Json (Value)

/-- A member for something that may be absent; it is left out if it is. -/
def memberFor (key : String) : Option Value → List (String × Value)
  | some v => [(key, v)]
  | none => []

/-- The JSON of a peer. -/
def PeerView.json (p : PeerView) : Value :=
  .object <|
    [("public_key", .string p.publicKey)] ++
    memberFor "preshared_key" (p.presharedKey.map .string) ++
    memberFor "endpoint" (p.endpoint.map fun e => .string e.text) ++
    [("allowed_ips", .list (p.allowedIps.map fun n => .string n.text))] ++
    memberFor "latest_handshake" (p.latestHandshake.map fun t => .number t.toNat) ++
    [("receive_bytes", .number p.receivedBytes.toNat),
      ("transmit_bytes", .number p.sentBytes.toNat),
      ("persistent_keepalive", .number p.keepalive.toNat),
      ("protocol_version", .number p.protocolVersion.toNat)]

/-- The JSON of a device. -/
def DeviceView.json (d : DeviceView) : Value :=
  .object <|
    [("name", .string d.name), ("device_type", .string (Json.deviceTypeName d.deviceType))] ++
    memberFor "public_key" (d.publicKey.map .string) ++
    memberFor "private_key" (d.privateKey.map .string) ++
    [("listen_port", .number d.listenPort.toNat),
      ("firewall_mark", .number d.firewallMark.toNat),
      ("peers", .list (d.peers.map PeerView.json))]

/-- The text of a value on lines of its own. -/
def jsonText (v : Value) : String := String.ofList v.pretty ++ "\n"

/-- A format. -/
inductive Format where
  /-- Indented lines. -/
  | table
  /-- JSON. -/
  | json
  deriving DecidableEq, Repr

namespace Format

/-- The name of a format. -/
def name : Format → String
  | .table => "table"
  | .json => "json"

/-- Prints a list of devices. -/
def all (f : Format) (now : Nat) (l : List DeviceView) : String :=
  match f with
  | .table => Show.table now l
  | .json => jsonText (.list (l.map DeviceView.json))

/-- Prints a single device. -/
def one (f : Format) (now : Nat) (d : DeviceView) : String :=
  match f with
  | .table => d.table now
  | .json => jsonText d.json

end Format

end WireGuardControl.Show

import WireGuardControl.Config
import WireGuardControl.Device
import WireGuardControl.Json.Record
import WireGuardControl.Options
/-!
The JSON of keys, devices, updates and options.

* `key`, `endpoint`, `network`: texts, as they are written everywhere else.
* `interval`, `instant`: seconds and nanoseconds, of which any number is read as long as
  the whole seconds have room. An instant before the epoch has no JSON.
* `peer`, `device`, `peerConfig`, `config`: objects with a member for each field. Only a field
  that may be null may be missing.
* `options`: an object or a list that may leave anything out; what it leaves out stays as it is
  without further choice.

The names of fields and choices, and which fields may be missing, are the program's own. That
endpoints, networks, intervals and instants have these forms is assumed of the packages from
which they are taken.
-/

namespace WireGuardControl.Json

open Text

/-! ### Parts -/

/-- The codec of texts. -/
def text : Codec String := Codec.spelled id fun s => some (String.ofList s)

/-- The codec of numbers of sixteen bits. -/
def word16 : Codec UInt16 :=
  (Codec.natural (UInt16.size - 1)).via UInt16.toNat fun n => some (UInt16.ofNat n)

/-- The codec of numbers of thirty-two bits. -/
def word32 : Codec UInt32 :=
  (Codec.natural (UInt32.size - 1)).via UInt32.toNat fun n => some (UInt32.ofNat n)

/-- The codec of numbers of sixty-four bits. -/
def word64 : Codec UInt64 :=
  (Codec.natural (UInt64.size - 1)).via UInt64.toNat fun n => some (UInt64.ofNat n)

/-- The codec of keys: their base-64 text. -/
def key : Codec Key := Codec.spelled Key.base64 fun s => (Key.ofBase64 s).toOption

/-- The codec of endpoints: their text. -/
def endpoint : Codec Endpoint := Codec.spelled Endpoint.text Endpoint.read?

/-- The codec of networks: their text. -/
def network : Codec Network := Codec.spelled Network.text Network.read?

/-- The name of an implementation of devices. -/
def deviceTypeName : DeviceType → String
  | .unknown => "unknown"
  | .linuxKernel => "linux_kernel"
  | .openBsdKernel => "open_bsd_kernel"
  | .userspace => "userspace"

/-- The codec of implementations of devices: their names. -/
def deviceType : Codec DeviceType :=
  Codec.choice [.unknown, .linuxKernel, .openBsdKernel, .userspace] deviceTypeName

/-- The codec of backends: their names. -/
def backendKind : Codec BackendKind := Codec.choice BackendKind.all BackendKind.name

/-! ### Time -/

/-- Seconds and nanoseconds, of which there may be more than make a second. -/
structure Span where
  /-- The seconds. -/
  seconds : UInt64
  /-- The nanoseconds. -/
  nanoseconds : UInt32
  deriving DecidableEq

/-- The interval of a span, if the whole seconds have room. -/
def Span.interval? (s : Span) : Option Interval :=
  let total := s.seconds.toNat + s.nanoseconds.toNat / nanosPerSecond
  if total < UInt64.size then
    some ⟨UInt64.ofNat total, s.nanoseconds.toNat % nanosPerSecond, Nat.mod_lt _ (by decide)⟩
  else none

/-- An interval as a span. -/
def Span.ofInterval (i : Interval) : Span := ⟨i.seconds, UInt32.ofNat i.nanoseconds.val⟩

/-- Spans with names for their two fields. -/
def span (seconds nanoseconds : String) : Record Span where
  start := ⟨0, 0⟩
  fields := [
    .of seconds word64 (·.seconds) fun n s => { s with seconds := n },
    .of nanoseconds word32 (·.nanoseconds) fun n s => { s with nanoseconds := n }]
  tolerant := false
  valid := fun s => s.interval?.isSome

/-- The codec of intervals. -/
def interval : Codec Interval := (span "secs" "nanos").codec.via Span.ofInterval Span.interval?

/-- The codec of what has passed since the epoch. -/
def age : Codec Interval :=
  (span "secs_since_epoch" "nanos_since_epoch").codec.via Span.ofInterval Span.interval?

/-- The codec of instants. -/
def instant : Codec Instant where
  write := fun t =>
    match t.sinceEpoch? with
    | some i => age.write i
    | none => .error .unsuitable
  reader := age.reader.checked fun i => Instant.ofEpoch? i.seconds i.nanoseconds

/-! ### Devices -/

/-- The fields of a peer. -/
def peerRecord : Record Peer where
  start := {}
  fields := [
    .of "public_key" key (·.publicKey) fun a p => { p with publicKey := a },
    .of "preshared_key" key (·.presharedKey) fun a p => { p with presharedKey := a },
    .leftOut <| .of "endpoint" endpoint.optional (·.endpoint) fun a p => { p with endpoint := a },
    .of "persistent_keepalive_interval" interval (·.keepalive) fun a p => { p with keepalive := a },
    .leftOut <| .of "last_handshake_time" instant.optional (·.lastHandshake)
      fun a p => { p with lastHandshake := a },
    .of "receive_bytes" word64 (·.receivedBytes) fun a p => { p with receivedBytes := a },
    .of "transmit_bytes" word64 (·.sentBytes) fun a p => { p with sentBytes := a },
    .of "allowed_ips" network.list (·.allowedIps) fun a p => { p with allowedIps := a },
    .of "protocol_version" word32 (·.protocolVersion) fun a p => { p with protocolVersion := a }]

/-- The codec of peers. -/
def peer : Codec Peer := peerRecord.codec

/-- The fields of a device. -/
def deviceRecord : Record Device where
  start := {}
  fields := [
    .of "name" text (·.name) fun a d => { d with name := a },
    .of "device_type" deviceType (·.deviceType) fun a d => { d with deviceType := a },
    .of "private_key" key (·.privateKey) fun a d => { d with privateKey := a },
    .of "public_key" key (·.publicKey) fun a d => { d with publicKey := a },
    .of "listen_port" word16 (·.listenPort) fun a d => { d with listenPort := a },
    .of "firewall_mark" word32 (·.firewallMark) fun a d => { d with firewallMark := a },
    .of "peers" peer.list (·.peers) fun a d => { d with peers := a }]

/-- The codec of devices. -/
def device : Codec Device := deviceRecord.codec

/-! ### Updates -/

/-- The fields of an update of a peer. -/
def peerConfigRecord : Record PeerConfig where
  start := {}
  fields := [
    .of "public_key" key (·.publicKey) fun a p => { p with publicKey := a },
    .of "remove" .bool (·.remove) fun a p => { p with remove := a },
    .of "update_only" .bool (·.updateOnly) fun a p => { p with updateOnly := a },
    .leftOut <| .of "preshared_key" key.optional (·.presharedKey)
      fun a p => { p with presharedKey := a },
    .leftOut <| .of "endpoint" endpoint.optional (·.endpoint) fun a p => { p with endpoint := a },
    .leftOut <| .of "persistent_keepalive_interval" interval.optional (·.keepalive)
      fun a p => { p with keepalive := a },
    .of "replace_allowed_ips" .bool (·.replaceAllowedIps)
      fun a p => { p with replaceAllowedIps := a },
    .of "allowed_ips" network.list (·.allowedIps) fun a p => { p with allowedIps := a }]

/-- The codec of updates of peers. -/
def peerConfig : Codec PeerConfig := peerConfigRecord.codec

/-- The fields of an update. -/
def configRecord : Record Config where
  start := {}
  fields := [
    .leftOut <| .of "private_key" key.optional (·.privateKey) fun a c => { c with privateKey := a },
    .leftOut <| .of "listen_port" word16.optional (·.listenPort)
      fun a c => { c with listenPort := a },
    .leftOut <| .of "firewall_mark" word32.optional (·.firewallMark)
      fun a c => { c with firewallMark := a },
    .of "replace_peers" .bool (·.replacePeers) fun a c => { c with replacePeers := a },
    .of "peers" peerConfig.list (·.peers) fun a c => { c with peers := a }]

/-- The codec of updates. -/
def config : Codec Config := configRecord.codec

/-! ### Options -/

/-- The fields of options. -/
def optionsRecord : Record Options where
  start := {}
  fields := [
    .leftOut <| .of "backends" backendKind.list (·.backends) fun a o => { o with backends := a },
    .leftOut <| .of "socket_dirs" text.list (·.socketDirectories)
      fun a o => { o with socketDirectories := a }]
  abridged := true

/-- The codec of options. -/
def options : Codec Options := optionsRecord.codec

end WireGuardControl.Json

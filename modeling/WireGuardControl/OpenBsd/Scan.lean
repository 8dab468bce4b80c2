import WireGuardControl.Bytes.Access
import WireGuardControl.OpenBsd.Record
/-!
Devices, read from their records octet by octet.

* `Scanner`: what is left of a row of records, and how many records of peers and of networks have
  been asked for.
* `scanRecord`: what a record has is split off only after it has been seen to be there.
* `scanDevice`: reads a device. The counts in the records say how often a record is asked for.

Every octet is read at its offset in its record, so that a step is `Outside` if there is no such
octet.
-/

namespace WireGuardControl.OpenBsd

/-! ### Octets of a record -/

/-- Why a device is not read. -/
inductive ScanFault where
  /-- The records do not describe a device. -/
  | refused (cause : Error)
  /-- An access does not stay inside its row. -/
  | outside (access : Outside)
  deriving DecidableEq

/-- The octet at an offset. -/
def scanOctet (b : Bytes) (offset : Nat) : Except ScanFault UInt8 :=
  (b.octetAt offset).mapError .outside

/-- The octets from the offset `start` up to the offset `stop`. -/
def scanSlice (b : Bytes) (start stop : Nat) : Except ScanFault Bytes :=
  (b.slice start stop).mapError .outside

/-- The `width` octets from an offset on. -/
def scanBlock (b : Bytes) (start width : Nat) : Except ScanFault (Block width) :=
  if h : start + width ≤ b.length then
    .ok ⟨b.field start width, Bytes.length_field b start width h⟩
  else .error (.outside ⟨start + width, b.length⟩)

/-- The key in a record, from an offset on. -/
def scanKey (b : Bytes) (start : Nat) : Except ScanFault Key :=
  (scanBlock b start 32).map fun block => keyAt block 0 (by decide)

/-- A field that is read unless its flag is absent, and has a default then. -/
def scanFlagged {α : Type} (absent : Prop) [Decidable absent] (default : α)
    (field : Except ScanFault α) : Except ScanFault α :=
  if absent then .ok default else field

/-! ### Records -/

/-- The endpoint at the head of a row of octets, whose family the second octet tells. -/
def scanEndpoint (b : Bytes) : Except ScanFault Endpoint := do
  if b.length < endpointLength then
    throw (.refused (.decode s!"endpoint truncated: {b.length} bytes"))
  let port := Bytes.toUInt16BE (← scanBlock b 2 2).bytes
  let family ← scanOctet b 1
  if family = familyIPv4 then
    let address ← scanBlock b 4 4
    return .v4 (IPv4.ofOctets address.bytes address.length_bytes) port
  else if family = familyIPv6 then
    let address ← scanBlock b 8 16
    let flow ← scanBlock b 4 4
    let scope ← scanBlock b 24 4
    return .v6 (IPv6.ofOctets address.bytes address.length_bytes) port
      (Bytes.toUInt32BE flow.bytes) (Bytes.toUInt32LE scope.bytes)
  else throw (.refused (.decode s!"unknown endpoint family: {family}"))

/-- Reads a network from its record. -/
def scanNetwork (b : Bytes) : Except ScanFault Network := do
  let bits := Bytes.toInt32LE (← scanBlock b 4 4).bytes
  if bits < 0 ∨ 255 < bits then throw (.refused (.decode s!"invalid cidr: {bits.toInt}"))
  let family ← scanOctet b 0
  let address : IpAddress ←
    if family = familyIPv4 then do
      let octets ← scanBlock b 8 4
      pure (.v4 (IPv4.ofOctets octets.bytes octets.length_bytes))
    else if family = familyIPv6 then do
      let octets ← scanBlock b 8 16
      pure (.v6 (IPv6.ofOctets octets.bytes octets.length_bytes))
    else throw (.refused (.decode s!"unknown allowed IP family: {family}"))
  match Network.ofAddress? address bits.toInt.toNat with
  | some n => return n
  | none => throw (.refused (.decode
      ("allowed IP " ++ address.text ++ s!"/{bits.toInt}: " ++ Network.bitsFault)))

/-- Reads a peer from its record, all but its networks. -/
def scanPeerRecord (b : Bytes) : Except ScanFault Peer := do
  let flags := Bytes.toUInt32LE (← scanBlock b 0 4).bytes
  let version := Bytes.toInt32LE (← scanBlock b 4 4).bytes
  if version < 0 then
    throw (.refused (.decode s!"negative protocol version: {version.toInt}"))
  let publicKey ← scanFlagged (flags &&& peerHasPublicKey = 0) Key.zero (scanKey b 8)
  let presharedKey ← scanFlagged (flags &&& peerHasPresharedKey = 0) Key.zero (scanKey b 40)
  let keepalive ← scanFlagged (flags &&& peerHasKeepalive = 0) Interval.zero do
    let seconds ← scanBlock b 72 2
    return Interval.ofSeconds (Bytes.toUInt16LE seconds.bytes).toUInt64
  let endpoint ← scanFlagged (flags &&& peerHasEndpoint = 0) none do
    let field ← scanSlice b 76 (76 + endpointLength)
    (scanEndpoint field).map some
  let sent ← scanBlock b 104 8
  let received ← scanBlock b 112 8
  let seconds := Bytes.toInt64LE (← scanBlock b 120 8).bytes
  let nanoseconds := Bytes.toInt64LE (← scanBlock b 128 8).bytes
  let negative : Error :=
    .decode s!"negative handshake time: {seconds.toInt}.{nanoseconds.toInt}"
  let lastHandshake ←
    (Instant.ofSignedHandshake negative seconds nanoseconds).mapError .refused
  return {
    publicKey := publicKey
    presharedKey := presharedKey
    endpoint := endpoint
    keepalive := keepalive
    lastHandshake := lastHandshake
    receivedBytes := Bytes.toUInt64LE received.bytes
    sentBytes := Bytes.toUInt64LE sent.bytes
    protocolVersion := version.toUInt32 }

/-- Reads the device `name` from its record, all but its peers. -/
def scanInterface (name : String) (b : Bytes) : Except ScanFault Device := do
  let flags := Bytes.toUInt16LE (← scanBlock b 0 2).bytes
  let publicKey ← scanFlagged (flags &&& hasPublicKey = 0) Key.zero (scanKey b 8)
  let privateKey ← scanFlagged (flags &&& hasPrivateKey = 0) Key.zero (scanKey b 40)
  let port ← scanFlagged (flags &&& hasPort = 0) 0 do
    let octets ← scanBlock b 2 2
    return Bytes.toUInt16BE octets.bytes
  let mark ← scanFlagged (flags &&& hasTable = 0) 0 do
    let table := Bytes.toInt32LE (← scanBlock b 4 4).bytes
    if table < 0 then throw (.refused (.decode s!"negative rtable: {table.toInt}"))
    return table.toUInt32
  return {
    name := name
    deviceType := .openBsdKernel
    privateKey := privateKey
    publicKey := publicKey
    listenPort := port
    firewallMark := mark }

/-! ### Rows of records -/

/-- A reader that stands in a row of records. -/
structure Scanner where
  /-- The octets that are left. -/
  rest : Bytes
  /-- How many records of peers have been asked for. -/
  peers : Nat := 0
  /-- How many records of networks have been asked for. -/
  networks : Nat := 0

/-- Steps of a reader that may fail. -/
abbrev Scan := ExceptT ScanFault (StateM Scanner)

/-- What is read from octets that have been taken. -/
def judge {α : Type} (outcome : Except ScanFault α) : Scan α := ExceptT.mk (pure outcome)

/-- Takes the record of `n` octets, called `what`. -/
def scanRecord (n : Nat) (what : String) : Scan (Block n) := do
  let s ← get
  let left := s.rest.length
  if left < n then
    throw (.refused (.decode (what ++ s!" truncated: need {n} bytes, have {left}")))
  else
    let record ← judge (scanBlock s.rest 0 n)
    let rest ← judge (scanSlice s.rest n left)
    set { s with rest := rest }
    return record

/-- Takes the record of a peer. -/
def takePeer : Scan (Block peerLength) := do
  modify fun s => { s with peers := s.peers + 1 }
  scanRecord peerLength "wg_peer_io"

/-- Takes the record of a network. -/
def takeNetwork : Scan (Block networkLength) := do
  modify fun s => { s with networks := s.networks + 1 }
  scanRecord networkLength "wg_aip_io"

/-- Reads the networks of `count` records. -/
def scanNetworks : (count : Nat) → Scan (List Network)
  | 0 => return []
  | count + 1 => do
      let record ← takeNetwork
      let n ← judge (scanNetwork record.bytes)
      let networks ← scanNetworks count
      return n :: networks

/-- Reads a peer and its networks. -/
def scanPeer : Scan Peer := do
  let record ← takePeer
  let p ← judge (scanPeerRecord record.bytes)
  let count ← judge (scanBlock record.bytes 136 8)
  let networks ← scanNetworks (Bytes.toNatLE count.bytes)
  return { p with allowedIps := networks }

/-- Reads `count` peers. -/
def scanPeers : (count : Nat) → Scan (List Peer)
  | 0 => return []
  | count + 1 => do
      let p ← scanPeer
      let peers ← scanPeers count
      return p :: peers

/-- Reads the device `name`. -/
def scanDevice (name : String) : Scan Device := do
  let record ← scanRecord interfaceLength "wg_interface_io"
  let d ← judge (scanInterface name record.bytes)
  let count ← judge (scanBlock record.bytes 72 8)
  let peers ← scanPeers (Bytes.toNatLE count.bytes)
  return { d with peers := peers }

end WireGuardControl.OpenBsd

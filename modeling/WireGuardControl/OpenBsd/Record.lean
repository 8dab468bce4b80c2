import WireGuardControl.Config
import WireGuardControl.Device
import WireGuardControl.OpenBsd.Protocol
import WireGuardControl.Text.Quoted
/-!
Devices and updates as the records of the OpenBSD driver.

* `interfaceName` and `groupMembers`: names as fields of sixteen octets, and the names in a
  row of such fields.
* `encodeConfig`: an update as one record of the interface and, for each peer, one of the
  peer and one for each of its networks. A mark or an interval that the records cannot hold
  is refused.
* `readDevice`: reads a device from such a row. Only the fields that the flags of a record
  name are looked at, and octets behind the last record are not.
-/

namespace WireGuardControl.OpenBsd

open Text

/-! ### Names -/

/-- A name as a field of sixteen octets, the last of which is zero. -/
def interfaceName (name : String) : Except Error (Block nameLength) :=
  let octets := Utf8.ofString name
  if h : octets.length < nameLength ∧ 0 ∉ octets then
    .ok ⟨octets ++ List.replicate (nameLength - octets.length) 0, by
      have := h.1
      simp only [List.length_append, List.length_replicate]
      omega⟩
  else
    .error (.invalidArgument
      ("invalid interface name: " ++ String.ofList (Quoted.text name.toList)))

/-- The names in a row of fields of sixteen octets; empty fields and an incomplete last one
have none. -/
def groupMembers (b : Bytes) : List String :=
  if b.length < memberLength then []
  else
    let name := Bytes.untilNul (b.take memberLength)
    let rest := groupMembers (b.drop memberLength)
    if name = [] then rest else String.ofList (Utf8.lossy name) :: rest
  termination_by b.length
  decreasing_by all_goals (simp only [List.length_drop, memberLength] at *; omega)

/-! ### Endpoints -/

/-- An endpoint as a field of twenty-eight octets, an IPv4 endpoint filled up with zeros. -/
def encodeEndpoint : Endpoint → Bytes
  | .v4 x port =>
      [16, familyIPv4] ++ Bytes.ofUInt16BE port ++ x.octets ++ List.replicate 20 0
  | .v6 x port flow scope =>
      [28, familyIPv6] ++ Bytes.ofUInt16BE port ++ Bytes.ofUInt32BE flow ++ x.octets ++
        Bytes.ofUInt32LE scope

/-- The endpoint in a field, whose family its second octet tells. -/
def readEndpoint (b : Block endpointLength) : Except Error Endpoint :=
  let port := Bytes.toUInt16BE (b.field 2 2)
  let family := UInt8.ofNat (Bytes.toNatLE (b.field 1 1))
  if family = familyIPv4 then
    .ok (.v4 (IPv4.ofOctets (b.field 4 4) (b.length_field 4 4 (by decide))) port)
  else if family = familyIPv6 then
    .ok (.v6 (IPv6.ofOctets (b.field 8 16) (b.length_field 8 16 (by decide))) port
      (Bytes.toUInt32BE (b.field 4 4)) (Bytes.toUInt32LE (b.field 24 4)))
  else .error (.decode s!"unknown endpoint family: {family}")

/-- The endpoint at the head of a row of octets. -/
def endpointOfBytes (b : Bytes) : Except Error Endpoint :=
  match Block.split? endpointLength b with
  | some (field, _) => readEndpoint field
  | none => .error (.decode s!"endpoint truncated: {b.length} bytes")

/-! ### Writing -/

/-- The record of a network. -/
def encodeNetwork (n : Network) : Bytes :=
  let family := if n.address.isIPv4 then familyIPv4 else familyIPv6
  let filler := List.replicate (16 - n.address.octets.length) 0
  [family, 0, 0, 0] ++ Bytes.ofNatLE 4 n.bits ++ n.address.octets ++ filler

/-- The flags of the update of a peer. -/
def peerFlags (p : PeerConfig) : UInt32 :=
  peerHasPublicKey |||
    (if p.presharedKey.isSome then peerHasPresharedKey else 0) |||
    (if p.keepalive.isSome then peerHasKeepalive else 0) |||
    (if p.endpoint.isSome then peerHasEndpoint else 0) |||
    (if p.replaceAllowedIps then peerReplacesNetworks else 0) |||
    (if p.remove then peerIsRemoved else 0) |||
    (if p.updateOnly then peerIsUpdated else 0)

/-- The seconds of an interval of keepalives as the record holds them. -/
def keepaliveSeconds (i : Interval) : Except Error UInt16 :=
  if i.seconds.toNat < 65536 then .ok i.seconds.toUInt16
  else .error (.invalidArgument
    s!"persistent keepalive interval {i.seconds}s out of range")

/-- The records of the update of a peer and of its networks. -/
def encodePeer (p : PeerConfig) : Except Error Bytes := do
  let keepalive ← match p.keepalive with
    | some i => keepaliveSeconds i
    | none => .ok 0
  let endpoint := (p.endpoint.map encodeEndpoint).getD (List.replicate endpointLength 0)
  return Bytes.ofUInt32LE (peerFlags p) ++ Bytes.ofUInt32LE 0 ++ p.publicKey.bytes ++
    (p.presharedKey.getD Key.zero).bytes ++ Bytes.ofUInt16LE keepalive ++ [0, 0] ++
    endpoint ++ List.replicate 32 0 ++ Bytes.ofNatLE 8 p.allowedIps.length ++
    p.allowedIps.flatMap encodeNetwork

/-- The flags of an update. -/
def configFlags (c : Config) : UInt16 :=
  (if c.privateKey.isSome then hasPrivateKey else 0) |||
    (if c.listenPort.isSome then hasPort else 0) |||
    (if c.firewallMark.isSome then hasTable else 0) |||
    (if c.replacePeers then replacesPeers else 0)

/-- A mark as the number of a routing table, which is signed. -/
def tableNumber (mark : UInt32) : Except Error UInt32 :=
  if mark.toNat < 2147483648 then .ok mark
  else .error (.invalidArgument s!"routing table {mark} out of range")

/-- The records of an update. -/
def encodeConfig (c : Config) : Except Error Bytes := do
  let table ← match c.firewallMark with
    | some mark => tableNumber mark
    | none => .ok 0
  let peers ← c.peers.mapM encodePeer
  return Bytes.ofUInt16LE (configFlags c) ++ Bytes.ofUInt16BE (c.listenPort.getD 0) ++
    Bytes.ofUInt32LE table ++ Key.zero.bytes ++ (c.privateKey.getD Key.zero).bytes ++
    Bytes.ofNatLE 8 c.peers.length ++ peers.flatten

/-! ### Reading -/

/-- The record of `n` octets at the head of a row, called `what`, and the rest of the row. -/
def takeRecord (n : Nat) (what : String) (b : Bytes) : Except Error (Block n × Bytes) :=
  match Block.split? n b with
  | some split => .ok split
  | none => .error (.decode (what ++ s!" truncated: need {n} bytes, have {b.length}"))

/-- The key in a field of a record. -/
def keyAt {n : Nat} (b : Block n) (start : Nat) (h : start + 32 ≤ n) : Key :=
  ⟨b.field start 32, b.length_field start 32 h⟩

/-- Reads a network from its record. -/
def readNetwork (b : Block networkLength) : Except Error Network :=
  let bits := Bytes.toInt32LE (b.field 4 4)
  let family := UInt8.ofNat (Bytes.toNatLE (b.field 0 1))
  if bits < 0 ∨ 255 < bits then .error (.decode s!"invalid cidr: {bits.toInt}")
  else
    let address? : Option IpAddress :=
      if family = familyIPv4 then
        some (.v4 (IPv4.ofOctets (b.field 8 4) (b.length_field 8 4 (by decide))))
      else if family = familyIPv6 then
        some (.v6 (IPv6.ofOctets (b.field 8 16) (b.length_field 8 16 (by decide))))
      else none
    match address? with
    | none => .error (.decode s!"unknown allowed IP family: {family}")
    | some x =>
        match Network.ofAddress? x bits.toInt.toNat with
        | some n => .ok n
        | none => .error (.decode
            ("allowed IP " ++ x.text ++ s!"/{bits.toInt}: " ++ Network.bitsFault))

/-- Reads the networks of `count` records, and gives what follows them. -/
def readNetworks : (count : Nat) → Bytes → Except Error (List Network × Bytes)
  | 0, b => .ok ([], b)
  | count + 1, b => do
      let (record, rest) ← takeRecord networkLength "wg_aip_io" b
      let n ← readNetwork record
      let (networks, rest) ← readNetworks count rest
      return (n :: networks, rest)

/-- Reads a peer from its record, all but its networks. -/
def readPeerRecord (b : Block peerLength) : Except Error Peer := do
  let flags := Bytes.toUInt32LE (b.field 0 4)
  let version := Bytes.toInt32LE (b.field 4 4)
  if version < 0 then throw (.decode s!"negative protocol version: {version.toInt}")
  let endpoint ←
    if flags &&& peerHasEndpoint = 0 then pure none
    else (readEndpoint ⟨b.field 76 28, b.length_field 76 28 (by decide)⟩).map some
  let seconds := Bytes.toInt64LE (b.field 120 8)
  let nanoseconds := Bytes.toInt64LE (b.field 128 8)
  let negative : Error :=
    .decode s!"negative handshake time: {seconds.toInt}.{nanoseconds.toInt}"
  let lastHandshake ← Instant.ofSignedHandshake negative seconds nanoseconds
  return {
    publicKey := if flags &&& peerHasPublicKey = 0 then Key.zero else keyAt b 8 (by decide)
    presharedKey := if flags &&& peerHasPresharedKey = 0 then Key.zero else keyAt b 40 (by decide)
    endpoint := endpoint
    keepalive :=
      if flags &&& peerHasKeepalive = 0 then Interval.zero
      else Interval.ofSeconds (Bytes.toUInt16LE (b.field 72 2)).toUInt64
    lastHandshake := lastHandshake
    receivedBytes := Bytes.toUInt64LE (b.field 112 8)
    sentBytes := Bytes.toUInt64LE (b.field 104 8)
    protocolVersion := version.toUInt32 }

/-- Reads a peer and its networks at the head of a row of octets. -/
def readPeer (b : Bytes) : Except Error (Peer × Bytes) := do
  let (record, rest) ← takeRecord peerLength "wg_peer_io" b
  let p ← readPeerRecord record
  let (networks, rest) ← readNetworks (Bytes.toNatLE (record.field 136 8)) rest
  return ({ p with allowedIps := networks }, rest)

/-- Reads `count` peers. -/
def readPeers : (count : Nat) → Bytes → Except Error (List Peer × Bytes)
  | 0, b => .ok ([], b)
  | count + 1, b => do
      let (p, rest) ← readPeer b
      let (peers, rest) ← readPeers count rest
      return (p :: peers, rest)

/-- Reads the device `name` from its record, all but its peers. -/
def readInterface (name : String) (b : Block interfaceLength) : Except Error Device := do
  let flags := Bytes.toUInt16LE (b.field 0 2)
  let table := Bytes.toInt32LE (b.field 4 4)
  if flags &&& hasTable ≠ 0 ∧ table < 0 then throw (.decode s!"negative rtable: {table.toInt}")
  return {
    name := name
    deviceType := .openBsdKernel
    privateKey := if flags &&& hasPrivateKey = 0 then Key.zero else keyAt b 40 (by decide)
    publicKey := if flags &&& hasPublicKey = 0 then Key.zero else keyAt b 8 (by decide)
    listenPort := if flags &&& hasPort = 0 then 0 else Bytes.toUInt16BE (b.field 2 2)
    firewallMark := if flags &&& hasTable = 0 then 0 else table.toUInt32 }

/-- Reads the device `name` from a row of records. -/
def readDevice (name : String) (b : Bytes) : Except Error Device := do
  let (record, rest) ← takeRecord interfaceLength "wg_interface_io" b
  let d ← readInterface name record
  let (peers, _) ← readPeers (Bytes.toNatLE (record.field 72 8)) rest
  return { d with peers := peers }

end WireGuardControl.OpenBsd

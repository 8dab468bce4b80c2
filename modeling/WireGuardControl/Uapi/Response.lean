import WireGuardControl.Device
import WireGuardControl.Text.Lines
/-!
Responses of a WireGuard program, as lines of text.

* `Pairs.ofText`: the keys and values of the lines before the first blank line. A line that
  is no pair ends them with a fault, and so does any line behind the status.
* `readSet`: whether an update was applied.
* `readGet`: the device that a response describes. Lines before the first peer are about the
  interface, and every `public_key` begins a peer.
* `readEndpoint`: the text of an endpoint, in which a zone that is no number is dropped.
-/

namespace WireGuardControl.Uapi

open Text

/-! ### Pairs -/

/-- Why the lines of a response stop to be pairs. -/
inductive Fault where
  /-- The line does not have exactly one equals sign. -/
  | malformed (line : List Char)
  /-- The line stands behind the status. -/
  | afterStatus (line : List Char)
  deriving DecidableEq

/-- The fault in words. -/
def Fault.message : Fault → String
  | .malformed line => "malformed line: " ++ String.ofList (Quoted.text line)
  | .afterStatus line => "line after errno: " ++ String.ofList (Quoted.text line)

/-- The pairs of a response, and what is wrong behind the last one. -/
structure Pairs where
  /-- The keys and values in order. -/
  items : List (String × List Char)
  /-- The fault behind them. -/
  fault : Option Fault
  deriving DecidableEq

/-- The key of the status. -/
def statusKey : String := "errno"

namespace Pairs

/-- The pairs of some lines, which stand behind the status if `ended`. -/
def ofLines (ended : Bool) : List (List Char) → Pairs
  | [] => ⟨[], none⟩
  | line :: rest =>
      if ended then ⟨[], some (.afterStatus line)⟩
      else match Lines.once '=' line with
        | none => ⟨[], some (.malformed line)⟩
        | some (k, v) =>
            let key := String.ofList k
            let pairs := ofLines (key = statusKey) rest
            ⟨(key, v) :: pairs.items, pairs.fault⟩

/-- The lines of a response before the first blank line. -/
def body (response : List Char) : List (List Char) :=
  (Lines.split response).takeWhile fun line => !line.isEmpty

/-- The pairs of a response. -/
def ofText (response : List Char) : Pairs := ofLines false (body response)

/-- Works a state through the pairs in order; the fault behind them counts only if no pair
fails. -/
def foldM {σ : Type} (f : σ → String × List Char → Except Error σ) (s : σ) (p : Pairs) :
    Except Error σ := do
  let s ← p.items.foldlM f s
  match p.fault with
  | none => return s
  | some fault => throw (.decode fault.message)

end Pairs

/-! ### Values -/

/-- Reads the value `v` of `key` as a number with the reader `read`. -/
def number {α : Type} (read : List Char → Except Decimal.Fault α) (key : String)
    (v : List Char) : Except Error α :=
  (read v).mapError fun fault =>
    .decode (key ++ "=" ++ String.ofList v ++ ": " ++ fault.message)

/-- Reads the value `v` of `key` as a key. -/
def hexKey (key : String) (v : List Char) : Except Error Key :=
  (Key.ofHex v).mapError fun e => .decode (key ++ ": " ++ e.message)

/-- Reads the value of `allowed_ip`. -/
def network (v : List Char) : Except Error Network :=
  match Network.read? v with
  | some n => .ok n
  | none => .error (.decode ("allowed_ip=" ++ String.ofList v ++ ": " ++ Network.textFault))

/-- Reads an endpoint behind its opening bracket: an address, perhaps a percent sign and a
zone, the closing bracket, and a port. A zone that is no number counts as zero. -/
def bracketed? (s : List Char) : Option Endpoint := do
  let (host, port) ← Lines.cut [']', ':'] s
  let (address, zone) := (Lines.cut ['%'] host).getD (host, [])
  let x ← IPv6.read? Address.strict address
  let p ← (Decimal.readUInt16 port).toOption
  return .v6 x p 0 ((Decimal.readUInt32 zone).toOption.getD 0)

/-- Reads the text of an endpoint. -/
def readEndpoint (s : List Char) : Except Error Endpoint :=
  let found := match s with
    | '[' :: rest => bracketed? rest
    | s => Endpoint.read? s
  match found with
  | some e => .ok e
  | none => .error (.decode ("invalid endpoint: " ++ String.ofList s))

/-! ### The status -/

/-- Judges the status `code` of the response to an operation. -/
def checkStatus (operation : String) (code : Option Int32) : Except Error Unit :=
  match code with
  | none => .error (.decode "response missing errno")
  | some code => if code = 0 then .ok () else .error (.errno operation code)

/-- Takes one pair of a response to an update in. -/
def setStep (code : Option Int32) (pair : String × List Char) : Except Error (Option Int32) :=
  if pair.1 = statusKey then (number Decimal.readInt32 pair.1 pair.2).map some else .ok code

/-- Reads the response to an update. -/
def readSet (response : List Char) : Except Error Unit := do
  let code ← (Pairs.ofText response).foldM setStep none
  checkStatus "set" code

/-! ### Devices -/

/-- A peer whose lines are being read. -/
structure PeerDraft where
  /-- The peer, without the time of its latest handshake. -/
  peer : Peer
  /-- The seconds of that time. -/
  seconds : UInt64 := 0
  /-- The nanoseconds of that time. -/
  nanoseconds : UInt64 := 0

/-- The peer of a draft. -/
def PeerDraft.finish (d : PeerDraft) : Except Error Peer := do
  return { d.peer with lastHandshake := ← Instant.ofHandshake d.seconds d.nanoseconds }

/-- Takes one pair about a peer in. -/
def PeerDraft.step (d : PeerDraft) (key : String) (v : List Char) : Except Error PeerDraft := do
  let p := d.peer
  if key = "preshared_key" then
    return { d with peer := { p with presharedKey := ← hexKey key v } }
  else if key = "endpoint" then
    return { d with peer := { p with endpoint := some (← readEndpoint v) } }
  else if key = "persistent_keepalive_interval" then
    let seconds ← number Decimal.readUInt64 key v
    return { d with peer := { p with keepalive := Interval.ofSeconds seconds } }
  else if key = "last_handshake_time_sec" then
    return { d with seconds := ← number Decimal.readUInt64 key v }
  else if key = "last_handshake_time_nsec" then
    return { d with nanoseconds := ← number Decimal.readUInt64 key v }
  else if key = "tx_bytes" then
    return { d with peer := { p with sentBytes := ← number Decimal.readUInt64 key v } }
  else if key = "rx_bytes" then
    return { d with peer := { p with receivedBytes := ← number Decimal.readUInt64 key v } }
  else if key = "allowed_ip" then
    return { d with peer := { p with allowedIps := p.allowedIps ++ [← network v] } }
  else if key = "protocol_version" then
    return { d with peer := { p with protocolVersion := ← number Decimal.readUInt32 key v } }
  else return d

/-- A device whose lines are being read. -/
structure DeviceDraft where
  /-- The device with the peers that are complete. -/
  device : Device
  /-- The peer to which the next lines belong. -/
  current : Option PeerDraft := none
  /-- The status. -/
  code : Option Int32 := none

namespace DeviceDraft

/-- Completes the peer to which the lines so far belong. -/
def finishPeer (d : DeviceDraft) : Except Error DeviceDraft :=
  match d.current with
  | none => .ok d
  | some draft => do
      let p ← draft.finish
      return { d with device := { d.device with peers := d.device.peers ++ [p] }, current := none }

/-- Takes one pair about the interface in. -/
def interfaceStep (d : Device) (key : String) (v : List Char) : Except Error Device := do
  if key = "private_key" then return { d with privateKey := ← hexKey key v }
  else if key = "listen_port" then
    return { d with listenPort := ← number Decimal.readUInt16 key v }
  else if key = "fwmark" then
    return { d with firewallMark := ← number Decimal.readUInt32 key v }
  else return d

/-- Takes one pair in. -/
def step (d : DeviceDraft) (pair : String × List Char) : Except Error DeviceDraft := do
  let (key, v) := pair
  if key = statusKey then return { d with code := some (← number Decimal.readInt32 key v) }
  else if key = "public_key" then
    let d ← d.finishPeer
    return { d with current := some { peer := { publicKey := ← hexKey key v } } }
  else match d.current with
    | some draft => return { d with current := some (← draft.step key v) }
    | none => return { d with device := ← interfaceStep d.device key v }

end DeviceDraft

/-- The device with the public key that belongs to its private key, if it has one. -/
def withDerivedKey (d : Device) : Device :=
  if d.privateKey.isZero then d else { d with publicKey := d.privateKey.publicKey }

/-- Reads the response that describes the device `name`. -/
def readGet (name : String) (response : List Char) : Except Error Device := do
  let start : DeviceDraft := { device := { name := name, deviceType := .userspace } }
  let d ← (Pairs.ofText response).foldM DeviceDraft.step start
  let d ← d.finishPeer
  checkStatus "get" d.code
  return withDerivedKey d.device

end WireGuardControl.Uapi

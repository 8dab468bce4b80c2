import WireGuardControl.Backend
import WireGuardControl.Netlink.Batch
import WireGuardControl.Netlink.Dump
import WireGuardControl.Netlink.Link
import WireGuardControl.Netlink.Message
import WireGuardControl.Netlink.Request
/-!
The backend of the Linux kernel.

* `Channel m`: a socket over which requests are sent and whole answers come back.
* `Client m`: a channel of generic netlink, a channel for interfaces, and the number of the
  WireGuard family; `Client.connect` asks for that number, and there is no client where the
  family is not registered.
* `Client.backend`: listing reads every WireGuard interface in turn and leaves out those that
  vanish meanwhile; an update is sent batch after batch, each only when the one before it was
  acknowledged.
-/

namespace WireGuardControl.Netlink

/-- A socket for requests of one protocol. -/
structure Channel (m : Type → Type) where
  /-- Sends a request with a kind, flags and a payload, and waits for the whole answer. -/
  execute : UInt16 → UInt16 → Bytes → m (Except Error (List Message))
  /-- Closes the socket. -/
  close : m (Except Error Unit)

/-- A connection to the WireGuard family of the kernel. -/
structure Client (m : Type → Type) where
  /-- The channel of generic netlink. -/
  generic : Channel m
  /-- The channel for interfaces. -/
  links : Channel m
  /-- The number of the WireGuard family. -/
  family : UInt16

/-! ### The family -/

/-- The request for the number of a family. -/
def familyRequest (name : String) : Except Error Bytes := do
  let data ← Item.encodeAll [.string Controller.familyName name]
  return GenericMessage.encode ⟨Controller.getFamily, Controller.version, data⟩

/-- The number of a family in a row of attributes; a fault of the row counts only if no
attribute before it has the number. -/
def familyIn (xs : Attributes) : Except Error (Option UInt16) :=
  match xs.items.find? fun a => a.kind = Controller.familyId with
  | some a => a.u16.map some
  | none => xs.check.map fun _ => none

/-- The number of a family in the messages of an answer. -/
def familyId (name : String) : List Message → Except Error UInt16
  | [] => .error (.decode ("family " ++ name ++ ": reply carries no ID"))
  | m :: rest => do
      let reply ← GenericMessage.decode m.payload
      match ← familyIn (Attributes.ofBytes reply.data) with
      | some id => return id
      | none => familyId name rest

variable {m : Type → Type} [Monad m]

/-- Asks for the number of the WireGuard family. -/
def resolveFamily (generic : Channel m) : m (Except Error UInt16) :=
  match familyRequest wireguard with
  | .error e => pure (.error e)
  | .ok payload => do
      let answer ← generic.execute kindController flagRequest payload
      return answer.bind (familyId wireguard)

/-- Says that a device does not exist where the kernel says that it has no such device or that
the device is of another sort. -/
def noteAbsence (e : Error) : Error :=
  if e.hasCode codeNoDevice || e.hasCode codeNotSupported then .notExist else e

namespace Client

/-- Connects over two channels; there is no client where the family is not registered. -/
def connect (generic links : Channel m) : m (Except Error (Option (Client m))) := do
  match ← resolveFamily generic with
  | .ok family => return .ok (some ⟨generic, links, family⟩)
  | .error e => return if e.hasCode codeNoEntry then .ok none else .error e

/-- Sends a request to the WireGuard family. -/
def execute (c : Client m) (command : UInt8) (flags : UInt16) (data : Bytes) :
    m (Except Error (List Message)) := do
  let request := GenericMessage.encode ⟨command, wireguardVersion, data⟩
  let answer ← c.generic.execute c.family flags request
  return answer.mapError noteAbsence

/-! ### Reading -/

/-- The names of the WireGuard interfaces in the messages of a dump. -/
def names (messages : List Message) : Except Error (List String) := do
  let links := messages.filter fun x => x.kind = Link.kindNew
  let found ← links.mapM fun x => wireguardName? x.payload
  return found.filterMap id

/-- The names of the WireGuard interfaces. -/
def interfaces (c : Client m) : m (Except Error (List String)) := do
  let answer ← c.links.execute Link.kindGet (flagRequest ||| flagDump) linkDumpRequest
  return answer.bind names

/-- The device that the messages of an answer describe. -/
def ofAnswer (messages : List Message) : Except Error Device :=
  if messages.isEmpty then .error .notExist
  else do
    let payloads ← messages.mapM fun x => (GenericMessage.decode x.payload).map (·.data)
    ofDump payloads

/-- Reads a device. -/
def device (c : Client m) (name : String) : m (Except Error Device) :=
  if name.isEmpty then pure (.error .notExist)
  else match nameRequest name with
    | .error e => pure (.error e)
    | .ok data => do
        let answer ← c.execute commandGet (flagRequest ||| flagDump) data
        return answer.bind ofAnswer

/-- Reads the devices with the given names, without those that do not exist. -/
def devicesNamed (c : Client m) : List String → m (Except Error (List Device))
  | [] => pure (.ok [])
  | name :: rest => do
      match ← c.device name with
      | .ok d => return (← devicesNamed c rest).map (d :: ·)
      | .error .notExist => devicesNamed c rest
      | .error e => return .error e

/-- Reads every device. -/
def devices (c : Client m) : m (Except Error (List Device)) := do
  match ← c.interfaces with
  | .ok names => c.devicesNamed names
  | .error e => return .error e

/-! ### Updating -/

/-- Sends updates one after the other, and stops at the first that fails. -/
def send (c : Client m) (name : String) : List Config → m (Except Error Unit)
  | [] => pure (.ok ())
  | batch :: rest =>
      match encodeConfig name batch with
      | .error e => pure (.error e)
      | .ok data => do
          match ← c.execute commandSet (flagRequest ||| flagAck) data with
          | .ok _ => send c name rest
          | .error e => return .error e

/-- Updates a device; parts of the update that precede a failure stay in effect. -/
def configure (c : Client m) (name : String) (config : Config) : m (Except Error Unit) :=
  c.send name config.batches

/-- Closes both channels, and reports the first failure. -/
def close (c : Client m) : m (Except Error Unit) := do
  let first ← c.generic.close
  let second ← c.links.close
  return match first with
    | .ok _ => second
    | .error e => .error e

/-- The operations on devices of the Linux kernel. -/
def backend (c : Client m) : Backend m where
  name := "netlink"
  devices := c.devices
  device := c.device
  configure := c.configure
  close := c.close

end Client

end WireGuardControl.Netlink

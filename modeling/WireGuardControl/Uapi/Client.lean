import WireGuardControl.Backend
import WireGuardControl.Uapi.Request
import WireGuardControl.Uapi.Response
import WireGuardControl.Uapi.Sockets
/-!
The backend of WireGuard programs outside the kernel.

* `responseOf`: the octets of a stream that belong to a response, up to and including its
  first blank line.
* `Client.backend`: every operation looks the sockets up anew and talks over a connection of
  its own. A socket that nobody listens on belongs to a device that does not exist.
-/

namespace WireGuardControl.Uapi

open Text

/-- The octet that ends a line. -/
def lineFeed : UInt8 := 10

/-- The octets of a stream up to and including its first blank line, or all of them. -/
def responseOf : Bytes → Bytes
  | [] => []
  | b :: s =>
      let line := (b :: s).takeWhile (· ≠ lineFeed)
      match h : (b :: s).dropWhile (· ≠ lineFeed) with
      | [] => line
      | c :: rest =>
          have : (c :: rest).length ≤ (b :: s).length :=
            h ▸ (List.dropWhile_sublist _).length_le
          if line = [] then [lineFeed] else line ++ lineFeed :: responseOf rest
  termination_by b => b.length
  decreasing_by simp only [List.length_cons] at *; omega

/-- The text of a response. -/
def responseText (stream : Bytes) : Except Error (List Char) :=
  (Utf8.decode (responseOf stream)).mapError fun fault =>
    .decode ("response is not UTF-8: " ++ fault.message)

/-- The error of a socket that gives no response. -/
def ExchangeFault.error : ExchangeFault → Error
  | .connect fault =>
      if fault = .code codeNoEntry ∨ fault = .code codeRefused then .notExist else .io fault
  | .transfer fault => .io fault

/-- A system and the directories in which sockets are looked up. -/
structure Client (m : Type → Type) where
  /-- The system. -/
  host : Host m
  /-- The directories. -/
  directories : List Bytes

namespace Client

variable {m : Type → Type} [Monad m]

/-- The text with which a socket responds to a request. -/
def ask (c : Client m) (path : Bytes) (request : List Char) :
    m (Except Error (List Char)) := do
  match ← c.host.exchange path (Utf8.encode request) with
  | .ok stream => return responseText stream
  | .error fault => return .error fault.error

/-- Reads the device `name` from the socket at a path. -/
def get (c : Client m) (path : Bytes) (name : String) : m (Except Error Device) := do
  return (← c.ask path getRequest).bind (readGet name)

/-- The first socket that belongs to the device `name`. -/
def socket (c : Client m) (name : String) : m (Except Error Bytes) := do
  match ← findSockets c.host c.directories with
  | .error e => return .error e
  | .ok paths =>
      match paths.find? fun path => deviceName? path = some name with
      | some path => return .ok path
      | none => return .error .notExist

/-- Reads the devices behind the sockets at some paths, without those that do not exist. -/
def devicesAt (c : Client m) : List Bytes → m (Except Error (List Device))
  | [] => pure (.ok [])
  | path :: rest =>
      match deviceName? path with
      | none => devicesAt c rest
      | some name => do
          match ← c.get path name with
          | .ok d => return (← devicesAt c rest).map (d :: ·)
          | .error .notExist => devicesAt c rest
          | .error e => return .error e

/-- Reads every device. -/
def devices (c : Client m) : m (Except Error (List Device)) := do
  match ← findSockets c.host c.directories with
  | .ok paths => c.devicesAt paths
  | .error e => return .error e

/-- Reads a device. -/
def device (c : Client m) (name : String) : m (Except Error Device) := do
  match ← c.socket name with
  | .ok path => c.get path name
  | .error e => return .error e

/-- Updates a device. -/
def configure (c : Client m) (name : String) (config : Config) : m (Except Error Unit) := do
  match ← c.socket name with
  | .ok path => return (← c.ask path (setRequest config)).bind readSet
  | .error e => return .error e

/-- The operations on devices of programs outside the kernel. -/
def backend (c : Client m) : Backend m where
  name := "userspace"
  devices := c.devices
  device := c.device
  configure := c.configure
  close := pure (.ok ())

end Client

end WireGuardControl.Uapi

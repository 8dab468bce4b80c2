import WireGuardControl.Backend
import WireGuardControl.OpenBsd.Record
import WireGuardControl.OpenBsd.Transfer
/-!
The backend of the OpenBSD kernel.

* `Kernel m`: the calls to the kernel.
* `Client.backend`: listing reads every member of the group of WireGuard interfaces and leaves
  out those that vanish meanwhile; an update is one call.
-/

namespace WireGuardControl.OpenBsd

/-- The calls to the kernel. -/
structure Kernel (m : Type → Type) where
  /-- Asks for the members of a group. -/
  groupMembers : Block nameLength → Question m
  /-- Asks for the records of a device. -/
  getDevice : Block nameLength → Question m
  /-- Gives the records of an update of a device. -/
  setDevice : Block nameLength → Bytes → m (Except SystemFault Unit)
  /-- Gives back what the calls hold of the system. -/
  close : m (Except SystemFault Unit)

variable {m : Type → Type} [Monad m]

/-- Says that a device does not exist where the kernel says that it is not configured or of
another sort. -/
def noteAbsence (e : Error) : Error :=
  if e.hasCode codeNotConfigured || e.hasCode codeNotSuited then .notExist else e

namespace Client

/-- The names of the WireGuard interfaces; there are none as long as their group does not
exist. -/
def interfaces (k : Kernel m) : m (Except Error (List String)) :=
  match interfaceName groupName with
  | .error e => pure (.error e)
  | .ok group => do
      match ← transfer "SIOCGIFGMEMB" (k.groupMembers group) with
      | .ok b => return .ok (OpenBsd.groupMembers b)
      | .error e => return if e.hasCode codeNoEntry then .ok [] else .error e

/-- Reads a device. -/
def get (k : Kernel m) (name : String) : m (Except Error Device) :=
  match interfaceName name with
  | .error e => pure (.error e)
  | .ok field => do
      match ← transfer "SIOCGWG" (k.getDevice field) with
      | .ok b => return readDevice name b
      | .error e => return .error (noteAbsence e)

/-- Reads a device; the empty name belongs to none. -/
def device (k : Kernel m) (name : String) : m (Except Error Device) :=
  if name.isEmpty then pure (.error .notExist) else get k name

/-- Reads the devices with the given names, without those that do not exist. -/
def devicesNamed (k : Kernel m) : List String → m (Except Error (List Device))
  | [] => pure (.ok [])
  | name :: rest => do
      match ← get k name with
      | .ok d => return (← devicesNamed k rest).map (d :: ·)
      | .error .notExist => devicesNamed k rest
      | .error e => return .error e

/-- Reads every device. -/
def devices (k : Kernel m) : m (Except Error (List Device)) := do
  match ← interfaces k with
  | .ok names => devicesNamed k names
  | .error e => return .error e

/-- Updates a device. -/
def configure (k : Kernel m) (name : String) (config : Config) : m (Except Error Unit) :=
  match interfaceName name with
  | .error e => pure (.error e)
  | .ok field =>
      match encodeConfig config with
      | .error e => pure (.error e)
      | .ok b => do
          let answer ← k.setDevice field b
          return answer.mapError fun fault => noteAbsence (.io fault)

/-- The operations on devices of the OpenBSD kernel. -/
def backend (k : Kernel m) : Backend m where
  name := "openbsd"
  devices := devices k
  device := device k
  configure := configure k
  close := do return (← k.close).mapError .io

end Client

end WireGuardControl.OpenBsd

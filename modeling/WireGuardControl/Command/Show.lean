import WireGuardControl.Command.Failure
import WireGuardControl.Platform
import WireGuardControl.Show.Format
/-!
The command that prints devices.

* `Request`: one device or all of them, and whether their keys are revealed.
* `Request.fetch`: reads the devices from a backend.
* `Request.run`: opens a chain, reads from it, closes it whatever was read, and prints. A failure
  to read counts before one to close.
-/

namespace WireGuardControl.Command

open Show (DeviceView Format)

/-- What to print. -/
structure Request where
  /-- The device to print; all of them if there is no name. -/
  name : Option String := none
  /-- Whether private and preshared keys are printed. -/
  reveal : Bool := false
  deriving DecidableEq, Repr

namespace Request

/-- The text of the devices that were read. -/
def print (r : Request) (f : Format) (now : Nat) (devices : List Device) : String :=
  let views := devices.map (DeviceView.ofDevice r.reveal)
  match r.name with
  | some _ => String.join (views.map (f.one now))
  | none => f.all now views

variable {m : Type → Type} [Monad m]

/-- Reads the devices to print. -/
def fetch (r : Request) (b : Backend m) : m (Except Failure (List Device)) := do
  match r.name with
  | none => return (← b.devices).mapError .backend
  | some name =>
      return match ← b.device name with
        | .ok d => .ok [d]
        | .error .notExist => .error (.deviceNotFound name)
        | .error e => .error (.backend e)

/-- Reads devices and prints them. -/
def run (r : Request) (p : Platform m) (o : Options) (f : Format) :
    m (Except Failure String) := do
  match ← p.openChain o with
  | .error e => return .error (.backend e)
  | .ok chain =>
      let fetched ← r.fetch chain.backend
      let closed ← chain.backend.close
      let now ← p.now
      return match fetched, closed with
        | .error failure, _ => .error failure
        | .ok _, .error e => .error (.backend e)
        | .ok devices, .ok _ => .ok (r.print f now devices)

end Request

end WireGuardControl.Command

import WireGuardControl.Config
import WireGuardControl.Device
/-!
The operations that every way of reaching devices offers.

* `Backend m`: a named set of operations in the monad `m`, each with an answer or an
  `Error`. `m` holds whatever the operations act on: the system in a running program, a
  prepared script in a rehearsal.
* `Backend.unavailable`: stands for a backend that the platform does not have; it fails
  every question and has nothing to close.
-/

namespace WireGuardControl

/-- A way of reaching devices. -/
structure Backend (m : Type → Type) where
  /-- The name of the backend. -/
  name : String
  /-- Lists every device that the backend sees. -/
  devices : m (Except Error (List Device))
  /-- Reads the device with a name. -/
  device : String → m (Except Error Device)
  /-- Applies an update to the device with a name. -/
  configure : String → Config → m (Except Error Unit)
  /-- Gives back what the backend holds of the system. -/
  close : m (Except Error Unit)

/-- The backend `name` on a platform that does not have it, for the reason `info`. -/
def Backend.unavailable {m : Type → Type} [Monad m] (name info : String) : Backend m where
  name := name
  devices := pure (.error (.unimplemented name info))
  device := fun _ => pure (.error (.unimplemented name info))
  configure := fun _ _ => pure (.error (.unimplemented name info))
  close := pure (.ok ())

end WireGuardControl

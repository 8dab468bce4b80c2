import WireGuardControl.Backend
import WireGuardControl.Text.Quoted
/-!
Backends asked one after the other.

* `Chain m`: a list of backends. `Chain.first` asks them in order until one does not pass the
  question on; a backend passes on what it does not have or cannot do.
* `Chain.backend`: a chain is a backend itself. Listing joins what all backends list, and
  closing closes all of them whatever they answer.
* `Chain.summary`: the chain in words.
-/

namespace WireGuardControl

open Text

/-- Backends in the order in which they are asked. -/
structure Chain (m : Type → Type) where
  /-- The backends. -/
  backends : List (Backend m)

namespace Chain

variable {m : Type → Type}

/-- The names of the backends. -/
def names (c : Chain m) : List String := c.backends.map (·.name)

/-- The chain in words. -/
def summary (c : Chain m) : String :=
  let quoted := c.names.map fun name => Quoted.text name.toList
  "Client \x7b backends: [" ++ String.ofList ([',', ' '].intercalate quoted) ++ "] \x7d"

variable [Monad m]

/-- Asks backends in order, and gives the first answer that is not passed on. -/
def first {α : Type} (ask : Backend m → m (Except Error α)) :
    List (Backend m) → m (Except Error α)
  | [] => pure (.error .notExist)
  | b :: rest => do
      match ← ask b with
      | .ok a => return .ok a
      | .error e => if e.passes then first ask rest else return .error e

/-- Joins what backends list; a backend that passes lists nothing. -/
def gather : List (Backend m) → m (Except Error (List Device))
  | [] => pure (.ok [])
  | b :: rest => do
      match ← b.devices with
      | .ok found => return (← gather rest).map (found ++ ·)
      | .error e => if e.passes then gather rest else return .error e

/-- Closes backends in order, and gives the first failure. -/
def closeAll : List (Backend m) → m (Except Error Unit)
  | [] => pure (.ok ())
  | b :: rest => do
      let outcome ← b.close
      let later ← closeAll rest
      return match outcome with
        | .ok _ => later
        | .error e => .error e

/-- The chain as a backend. -/
def backend (c : Chain m) : Backend m where
  name := "chained"
  devices := gather c.backends
  device := fun name => first (·.device name) c.backends
  configure := fun name config => first (·.configure name config) c.backends
  close := closeAll c.backends

end Chain

end WireGuardControl

import WireGuardControl.Chain
/-!
Backends whose answers are prepared.

* `Actor`: a backend that owns some devices and fails as its script says.
* `Rehearsal`: the actors, whose scripts lose an entry with each call, and the calls that were
  made, the latest first.
* `Rehearsal.backend`: an actor as a backend.
-/

namespace WireGuardControl.Chain

/-- What a backend is asked. -/
inductive Question where
  /-- To list its devices. -/
  | devices
  /-- To read the device with a name. -/
  | device (name : String)
  /-- To update `peers` peers of the device with a name. -/
  | configure (name : String) (peers : Nat)
  /-- To close. -/
  | close
  deriving DecidableEq, Repr

/-- The failures of the next calls of each kind; a call with no entry does not fail. -/
structure Script where
  /-- The failures of listings. -/
  devices : List (Option Error) := []
  /-- The failures of readings. -/
  device : List (Option Error) := []
  /-- The failures of updates. -/
  configure : List (Option Error) := []
  /-- The failures of closings. -/
  close : List (Option Error) := []

/-- The failure of the next call of a kind, and the script after it. -/
def Script.next (s : Script) : Question → Option Error × Script
  | .devices => (s.devices.head?.join, { s with devices := s.devices.tail })
  | .device _ => (s.device.head?.join, { s with device := s.device.tail })
  | .configure _ _ => (s.configure.head?.join, { s with configure := s.configure.tail })
  | .close => (s.close.head?.join, { s with close := s.close.tail })

/-- A backend that is played. -/
structure Actor where
  /-- The name of the backend. -/
  name : String
  /-- The names of the devices that the backend has. -/
  owned : List String := []
  /-- The port on which these devices listen. -/
  port : UInt16 := 0
  /-- The failures of the backend. -/
  script : Script := {}

/-- The device of an actor with a name. -/
def Actor.deviceNamed (a : Actor) (name : String) : Device := { name := name, listenPort := a.port }

/-- The actors and what they have been asked. -/
structure Rehearsal where
  /-- The actors. -/
  actors : List Actor := []
  /-- The names of actors and their questions, the latest first. -/
  log : List (String × Question) := []

namespace Rehearsal

/-- The questions in order. -/
def questions (r : Rehearsal) : List (String × Question) := r.log.reverse

/-- The actor with a number. -/
def actor (r : Rehearsal) (index : Nat) : Actor := r.actors[index]?.getD { name := "" }

/-- Asks an actor; the answer is `reply` unless the script has a failure. -/
def ask {α : Type} (index : Nat) (q : Question) (reply : Actor → Except Error α) :
    StateM Rehearsal (Except Error α) := fun r =>
  let a := r.actor index
  let (failure, script) := a.script.next q
  let answer := match failure with
    | some e => .error e
    | none => reply a
  (answer, ⟨r.actors.set index { a with script := script }, (a.name, q) :: r.log⟩)

/-- The actor with a number as the backend `name`. -/
def backend (index : Nat) (name : String) : Backend (StateM Rehearsal) where
  name := name
  devices := ask index .devices fun a => .ok (a.owned.map a.deviceNamed)
  device := fun device => ask index (.device device) fun a =>
    if device ∈ a.owned then .ok (a.deviceNamed device) else .error .notExist
  configure := fun device config =>
    ask index (.configure device config.peers.length) fun a =>
      if device ∈ a.owned then .ok () else .error .notExist
  close := ask index .close fun _ => .ok ()

end Rehearsal

end WireGuardControl.Chain

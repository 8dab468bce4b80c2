import WireGuardControl.Error
/-!
What can go wrong when a command is run.

* `Failure`: a failure of a command by its cause; `Failure.message` is the wording.
-/

namespace WireGuardControl.Command

/-- A failure of a command. -/
inductive Failure where
  /-- A backend failed. -/
  | backend (e : Error)
  /-- No backend has the device `name`. -/
  | deviceNotFound (name : String)
  /-- What was given to the command cannot be used. -/
  | invalidInput (detail : String)
  /-- The answer cannot be printed. -/
  | unprintable (detail : String)
  /-- Reading or printing failed. -/
  | io (fault : SystemFault)
  deriving DecidableEq

/-- The failure in words. -/
def Failure.message : Failure → String
  | .backend e => e.message
  | .deviceNotFound name => "no such device: " ++ name
  | .invalidInput detail => "invalid input: " ++ detail
  | .unprintable detail => "format error: " ++ detail
  | .io fault => "IO error: " ++ fault.message

end WireGuardControl.Command

import WireGuardControl.Error
import WireGuardControl.Bytes
/-!
Fetching data of unknown size from the kernel.

* `Question m`: a call that gets a buffer, writes as much data as fits and tells the size of
  all data.
* `transfer`: asks with an empty buffer first and then with a zeroed buffer of the size it was
  told last, until the data fits. After `maxAttempts` buffers it gives up.
-/

namespace WireGuardControl.OpenBsd

/-- A call to the kernel with a buffer. It answers with the size of all data, and with the
buffer after the call. -/
abbrev Question (m : Type → Type) := Bytes → m (Except SystemFault (Nat × Bytes))

/-- How many buffers are tried. -/
def maxAttempts : Nat := 8

variable {m : Type → Type} [Monad m]

/-- Tries up to `attempts` buffers, the first of them of `size` octets. There is taken to be memory
for a buffer of any size that is told. -/
def fill (what : String) (ask : Question m) :
    (attempts size : Nat) → m (Except Error Bytes)
  | 0, _ => pure (.error (.decode
      (what ++ s!": buffer kept growing after {maxAttempts} attempts")))
  | attempts + 1, size =>
      if size = 0 then pure (.ok [])
      else do
        match ← ask (List.replicate size 0) with
        | .error fault => return .error (.io fault)
        | .ok (needed, buffer) =>
            if needed ≤ size then return .ok (buffer.take needed)
            else fill what ask attempts needed

/-- Fetches the data that the question `ask` gives; `what` names the question. -/
def transfer (what : String) (ask : Question m) : m (Except Error Bytes) := do
  match ← ask [] with
  | .error fault => return .error (.io fault)
  | .ok (size, _) => fill what ask maxAttempts size

end WireGuardControl.OpenBsd

import WireGuardControl.Command.Failure
import WireGuardControl.Key
/-!
The commands that print keys.

* `privateKeyLine`, `presharedKeyLine`: a key out of thirty-two random octets.
* `publicKeyLine`: the public key of the private key on the first line of the input.
-/

namespace WireGuardControl.Command

open Text

/-- A key on a line of its own. -/
def keyLine (k : Key) : String := k.base64 ++ "\n"

/-- A private key made of a random key. -/
def privateKeyLine (random : Key) : String := keyLine random.clamped

/-- A preshared key made of a random key. -/
def presharedKeyLine (random : Key) : String := keyLine random

/-- The octet that ends the line with the key. -/
def endOfLine : UInt8 := 10

/-- The private key on the first line of the input. -/
def readPrivateKey (input : Bytes) : Except Failure Key :=
  match Utf8.decode (input.takeWhile (· ≠ endOfLine)) with
  | .error _ => .error (.io (.words "stream did not contain valid UTF-8"))
  | .ok line =>
      (Key.ofText line).mapError fun e => .invalidInput ("private key on stdin: " ++ e.message)

/-- The public key of the private key on the first line of the input. -/
def publicKeyLine (input : Bytes) : Except Failure String :=
  (readPrivateKey input).map fun k => keyLine k.publicKey

end WireGuardControl.Command

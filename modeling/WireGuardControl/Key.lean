import WireGuardControl.Error
import WireGuardControl.Key.Curve25519
import WireGuardControl.Text.Base64
import WireGuardControl.Text.Blank
import WireGuardControl.Text.Hex
import WireGuardControl.Text.Utf8
/-!
Keys of thirty-two octets: private, public and preshared ones alike.

* `Key`: the zero key stands for a key that is not set (`Key.isZero`).
* `Key.ofBytes`: refuses any other number of octets.
* `Key.base64`, `Key.hex` and their readers `Key.ofBase64`, `Key.ofHex` and
  `Key.ofText`, the last of which takes blanks off both ends first.
* `Key.clamped`, `Key.publicKey`: a private key made valid, and the public key of one.
-/

namespace WireGuardControl

open Text

/-- A key of thirty-two octets. -/
structure Key where
  /-- The octets of the key. -/
  bytes : Bytes
  /-- There are thirty-two octets. -/
  length_bytes : bytes.length = 32
  deriving DecidableEq

namespace Key

/-- The key that is not set. -/
def zero : Key := ⟨List.replicate 32 0, rfl⟩

instance : Inhabited Key := ⟨zero⟩

/-- Whether every octet is zero. -/
def isZero (k : Key) : Bool := k = zero

/-- The key of a row of octets, if there are thirty-two. -/
def ofBytes (b : Bytes) : Except Error Key :=
  if h : b.length = 32 then .ok ⟨b, h⟩ else .error (.invalidKeyLength b.length)

@[simp] theorem ofBytes_bytes (k : Key) : ofBytes k.bytes = .ok k := by
  simp [ofBytes, k.length_bytes]

/-! ### Text -/

/-- The base-64 text of a key. -/
def base64 (k : Key) : String := String.ofList (Base64.encode k.bytes)

/-- The hexadecimal text of a key, in lower case. -/
def hexChars (k : Key) : List Char := Hex.encode k.bytes

/-- The hexadecimal text of a key, as a string. -/
def hex (k : Key) : String := String.ofList k.hexChars

/-- The beginning of the base-64 text, for display where the key itself must not show. -/
def abbreviated (k : Key) : String :=
  "Key(" ++ String.ofList ((Base64.encode k.bytes).take 8) ++ "...)"

/-- Reads the base-64 text of a key. -/
def ofBase64 (s : List Char) : Except Error Key :=
  match Base64.decode (Utf8.encode s) with
  | .ok b => ofBytes b
  | .error fault => .error (.invalidKey fault.message)

/-- Reads the hexadecimal text of a key, in either case. -/
def ofHex (s : List Char) : Except Error Key :=
  match Hex.decode (Utf8.encode s) with
  | .ok b => ofBytes b
  | .error fault => .error (.invalidKey fault.message)

/-- Reads the base-64 text of a key between blanks. -/
def ofText (s : List Char) : Except Error Key := ofBase64 (Blank.trim s)

/-! ### Private keys -/

/-- The key as a valid private key. -/
def clamped (k : Key) : Key :=
  ⟨Curve25519.clamp k.bytes, by rw [Curve25519.length_clamp, k.length_bytes]⟩

/-- The public key of a private key. -/
def publicKey (k : Key) : Key :=
  ⟨Curve25519.publicKey k.bytes, Curve25519.length_publicKey k.bytes⟩

end Key

end WireGuardControl

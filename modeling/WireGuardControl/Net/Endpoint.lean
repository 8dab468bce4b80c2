import WireGuardControl.Net.Address
/-!
Endpoints: an address together with a port.

* `Endpoint`: an IPv6 endpoint also has flow information and a scope.
* `Endpoint.chars`: `address:port`, an IPv6 address in brackets and with its scope, if
  that is not zero, behind a percent sign. The flow information has no text.
* `Endpoint.read?`: reads such texts under the strict grammar of addresses; ports and
  scopes may have leading zeros.
-/

namespace WireGuardControl

open Text Address

/-- Where datagrams for a peer are sent. -/
inductive Endpoint where
  /-- An IPv4 address and a port. -/
  | v4 (address : IPv4) (port : UInt16)
  /-- An IPv6 address, a port, flow information and a scope. -/
  | v6 (address : IPv6) (port : UInt16) (flow scope : UInt32)
  deriving DecidableEq

namespace Endpoint

/-- The address of an endpoint. -/
def address : Endpoint → IpAddress
  | .v4 x _ => .v4 x
  | .v6 x _ _ _ => .v6 x

/-- The port of an endpoint. -/
def port : Endpoint → UInt16
  | .v4 _ p => p
  | .v6 _ p _ _ => p

/-- The endpoint without its flow information, which its text does not show. -/
def withoutFlow : Endpoint → Endpoint
  | .v4 x p => .v4 x p
  | .v6 x p _ scope => .v6 x p 0 scope

/-- The text of an endpoint. -/
def chars : Endpoint → List Char
  | .v4 x p => x.chars ++ ':' :: Decimal.ofNat p.toNat
  | .v6 x p _ scope =>
      let zone := if scope = 0 then [] else '%' :: Decimal.ofNat scope.toNat
      '[' :: (x.chars ++ zone ++ ']' :: ':' :: Decimal.ofNat p.toNat)

/-- The text of an endpoint, as a string. -/
def text (e : Endpoint) : String := String.ofList e.chars

/-- Reads a port at the head of a text. -/
def readPort (s : List Char) : Option (UInt16 × List Char) :=
  let form : NumberForm := ⟨10, none, 65535, true⟩
  (readNumber form s).map fun r => (UInt16.ofNat r.1, r.2)

/-- Reads a scope behind a percent sign, if there is one; the scope is zero otherwise. -/
def readScope (s : List Char) : UInt32 × List Char :=
  let form : NumberForm := ⟨10, none, 4294967295, true⟩
  match (expect '%' s).bind (readNumber form) with
  | some (n, rest) => (UInt32.ofNat n, rest)
  | none => (0, s)

/-- Reads an IPv4 endpoint at the head of a text. -/
def readV4 (s : List Char) : Option (Endpoint × List Char) := do
  let (x, s) ← IPv4.read strict s
  let (p, s) ← readPort (← expect ':' s)
  return (.v4 x p, s)

/-- Reads an IPv6 endpoint at the head of a text. -/
def readV6 (s : List Char) : Option (Endpoint × List Char) := do
  let (x, s) ← IPv6.read strict (← expect '[' s)
  let (scope, s) := readScope s
  let (p, s) ← readPort (← expect ':' (← expect ']' s))
  return (.v6 x p 0 scope, s)

/-- Reads a text that is an endpoint and nothing more. -/
def read? (s : List Char) : Option Endpoint :=
  match (readV4 s).orElse fun _ => readV6 s with
  | some (e, []) => some e
  | _ => none

end Endpoint

end WireGuardControl

/-!
The numbers of the WireGuard driver of OpenBSD.

The requests to the driver exchange one buffer: a record of the interface, then for each
peer a record of the peer and one record for each of its networks. The lengths of the records
and the bits of their flags are named here.
-/

namespace WireGuardControl.OpenBsd

/-! ### Lengths -/

/-- The octets of an interface name, with at least one zero octet at its end. -/
def nameLength : Nat := 16

/-- The octets of an entry in the list of a group's members. -/
def memberLength : Nat := 16

/-- The octets of the record of an interface. -/
def interfaceLength : Nat := 80

/-- The octets of the record of a peer. -/
def peerLength : Nat := 144

/-- The octets of the record of a network. -/
def networkLength : Nat := 24

/-- The octets of an endpoint inside the record of a peer. -/
def endpointLength : Nat := 28

/-! ### Requests -/

/-- The group of WireGuard interfaces. -/
def groupName : String := "wg"

/-- The request for the members of a group. -/
def requestGroup : UInt64 := 0xC028698A

/-- The request that updates a device. -/
def requestSet : UInt64 := 0xC02069D2

/-- The request that reads a device. -/
def requestGet : UInt64 := 0xC02069D3

/-! ### Flags of an interface -/

/-- The record has a public key. -/
def hasPublicKey : UInt16 := 1

/-- The record has a private key. -/
def hasPrivateKey : UInt16 := 2

/-- The record has a port. -/
def hasPort : UInt16 := 4

/-- The record has a routing table. -/
def hasTable : UInt16 := 8

/-- All peers are discarded first. -/
def replacesPeers : UInt16 := 16

/-! ### Flags of a peer -/

/-- The record has a public key. -/
def peerHasPublicKey : UInt32 := 1

/-- The record has a preshared key. -/
def peerHasPresharedKey : UInt32 := 2

/-- The record has an interval of keepalives. -/
def peerHasKeepalive : UInt32 := 4

/-- The record has an endpoint. -/
def peerHasEndpoint : UInt32 := 8

/-- The networks of the peer are discarded first. -/
def peerReplacesNetworks : UInt32 := 16

/-- The peer is removed. -/
def peerIsRemoved : UInt32 := 32

/-- The peer is updated only if it exists. -/
def peerIsUpdated : UInt32 := 64

/-! ### Address families -/

/-- The address family of IPv4. -/
def familyIPv4 : UInt8 := 2

/-- The address family of IPv6. -/
def familyIPv6 : UInt8 := 24

/-! ### Error numbers -/

/-- There is no such entry. -/
def codeNoEntry : Int32 := 2

/-- The device is not configured. -/
def codeNotConfigured : Int32 := 6

/-- An argument is invalid. -/
def codeInvalid : Int32 := 22

/-- The request does not suit the device. -/
def codeNotSuited : Int32 := 25

end WireGuardControl.OpenBsd

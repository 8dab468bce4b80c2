/-!
The numbers of netlink, generic netlink and the families used over it.

Every constant is named for its part in a message. `Controller` and `Link` hold the numbers of
two families, and `DeviceField`, `PeerField` and `NetworkField` the attributes and flags of the
WireGuard family.
-/

namespace WireGuardControl.Netlink

/-! ### Messages -/

/-- The octets of a message header. -/
def headerLength : Nat := 16

/-- The kind of a message without content. -/
def kindNoop : UInt16 := 1

/-- The kind of a message that reports an error or, with the code zero, success. -/
def kindError : UInt16 := 2

/-- The kind of the message that ends a dump. -/
def kindDone : UInt16 := 3

/-- Marks a request. -/
def flagRequest : UInt16 := 0x1

/-- Marks a message of which more follow. -/
def flagMulti : UInt16 := 0x2

/-- Asks for an acknowledgement. -/
def flagAck : UInt16 := 0x4

/-- Asks for all entries. -/
def flagDump : UInt16 := 0x300

/-! ### Attributes -/

/-- The octets of an attribute header. -/
def attributeHeaderLength : Nat := 4

/-- Marks an attribute that holds attributes. -/
def nestedFlag : UInt16 := 0x8000

/-- The bits of the kind of an attribute. -/
def kindMask : UInt16 := 0x3FFF

/-! ### Generic netlink -/

/-- The kind of messages to the controller of families. -/
def kindController : UInt16 := 0x10

namespace Controller

/-- The command that asks for a family. -/
def getFamily : UInt8 := 3

/-- The version of the controller. -/
def version : UInt8 := 1

/-- The number of a family. -/
def familyId : UInt16 := 1

/-- The name of a family. -/
def familyName : UInt16 := 2

end Controller

/-! ### Links -/

namespace Link

/-- The kind of a message that describes an interface. -/
def kindNew : UInt16 := 16

/-- The kind of a message that asks for interfaces. -/
def kindGet : UInt16 := 18

/-- The octets in front of the attributes of an interface. -/
def infoLength : Nat := 16

/-- The name of an interface. -/
def name : UInt16 := 3

/-- What an interface is. -/
def info : UInt16 := 18

/-- The kind of an interface, inside `info`. -/
def infoKind : UInt16 := 1

end Link

/-! ### Socket addresses -/

/-- The address family of IPv4. -/
def familyIPv4 : UInt16 := 2

/-- The address family of IPv6. -/
def familyIPv6 : UInt16 := 10

/-! ### The WireGuard family -/

/-- The name of the family, which is also the kind of its interfaces. -/
def wireguard : String := "wireguard"

/-- The version of the family. -/
def wireguardVersion : UInt8 := 1

/-- The command that reads a device. -/
def commandGet : UInt8 := 0

/-- The command that updates a device. -/
def commandSet : UInt8 := 1

namespace DeviceField

/-- The name of the interface. -/
def name : UInt16 := 2

/-- The private key. -/
def privateKey : UInt16 := 3

/-- The public key. -/
def publicKey : UInt16 := 4

/-- The flags of an update. -/
def flags : UInt16 := 5

/-- The port. -/
def listenPort : UInt16 := 6

/-- The mark of outgoing packets. -/
def firewallMark : UInt16 := 7

/-- The peers. -/
def peers : UInt16 := 8

/-- The flag that discards all peers first. -/
def replacePeers : UInt32 := 1

end DeviceField

namespace PeerField

/-- The public key. -/
def publicKey : UInt16 := 1

/-- The preshared key. -/
def presharedKey : UInt16 := 2

/-- The flags of an update. -/
def flags : UInt16 := 3

/-- The endpoint. -/
def endpoint : UInt16 := 4

/-- The interval of keepalives, in seconds. -/
def keepalive : UInt16 := 5

/-- The time of the latest handshake. -/
def lastHandshake : UInt16 := 6

/-- The octets received. -/
def receivedBytes : UInt16 := 7

/-- The octets sent. -/
def sentBytes : UInt16 := 8

/-- The networks. -/
def allowedIps : UInt16 := 9

/-- The version of the protocol. -/
def protocolVersion : UInt16 := 10

/-- The flag that removes a peer. -/
def remove : UInt32 := 1

/-- The flag that discards the networks of a peer first. -/
def replaceAllowedIps : UInt32 := 2

/-- The flag that updates a peer only if it exists. -/
def updateOnly : UInt32 := 4

end PeerField

namespace NetworkField

/-- The address family. -/
def family : UInt16 := 1

/-- The address. -/
def address : UInt16 := 2

/-- The number of leading bits. -/
def bits : UInt16 := 3

end NetworkField

/-! ### Error numbers -/

/-- There is no such entry. -/
def codeNoEntry : Int32 := 2

/-- There is no such device. -/
def codeNoDevice : Int32 := 19

/-- The operation is not supported. -/
def codeNotSupported : Int32 := 95

end WireGuardControl.Netlink

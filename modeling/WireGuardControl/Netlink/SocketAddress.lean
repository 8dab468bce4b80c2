import WireGuardControl.Error
import WireGuardControl.Net.Endpoint
import WireGuardControl.Netlink.Protocol
/-!
Endpoints as the Linux kernel lays out socket addresses.

* `SocketAddress.encode`: sixteen octets for IPv4, twenty-eight for IPv6; the port, the flow
  information and the address have their most significant octet first, the family and the
  scope their least significant one.
* `SocketAddress.decode`: reads either layout, told by the length alone.
-/

namespace WireGuardControl.Netlink.SocketAddress

/-- The layout of an endpoint. -/
def encode : Endpoint → Bytes
  | .v4 x port =>
      Bytes.ofUInt16LE familyIPv4 ++ Bytes.ofUInt16BE port ++ x.octets ++ List.replicate 8 0
  | .v6 x port flow scope =>
      Bytes.ofUInt16LE familyIPv6 ++ Bytes.ofUInt16BE port ++ Bytes.ofUInt32BE flow ++
        x.octets ++ Bytes.ofUInt32LE scope

/-- The endpoint that an IPv4 layout holds. -/
def decodeV4 (b : Block 16) : Endpoint :=
  .v4 (IPv4.ofOctets (b.field 4 4) (b.length_field 4 4 (by decide)))
    (Bytes.toUInt16BE (b.field 2 2))

/-- The endpoint that an IPv6 layout holds. -/
def decodeV6 (b : Block 28) : Endpoint :=
  .v6 (IPv6.ofOctets (b.field 8 16) (b.length_field 8 16 (by decide)))
    (Bytes.toUInt16BE (b.field 2 2)) (Bytes.toUInt32BE (b.field 4 4))
    (Bytes.toUInt32LE (b.field 24 4))

/-- Reads a layout. -/
def decode (b : Bytes) : Except Error Endpoint :=
  if h : b.length = 16 then .ok (decodeV4 ⟨b, h⟩)
  else if h : b.length = 28 then .ok (decodeV6 ⟨b, h⟩)
  else .error (.decode s!"unexpected sockaddr size: {b.length}")

end WireGuardControl.Netlink.SocketAddress

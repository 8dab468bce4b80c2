import WireGuardControl.Netlink.Attribute
/-!
The interfaces of the system.

* `linkDumpRequest`: asks for all interfaces.
* `wireguardName?`: the name of an interface, if the message tells that it is a WireGuard
  interface.
-/

namespace WireGuardControl.Netlink

/-- The content of a request for all interfaces. -/
def linkDumpRequest : Bytes := List.replicate Link.infoLength 0

/-- What the attributes of an interface have told so far. -/
structure LinkDraft where
  /-- The name. -/
  name : Option String := none
  /-- Whether the kind is that of WireGuard. -/
  isWireguard : Bool := false

/-- Takes one attribute of what an interface is in. -/
def LinkDraft.infoStep (d : LinkDraft) (a : Attribute) : Except Error LinkDraft := do
  if a.kind = Link.infoKind then
    return { d with isWireguard := d.isWireguard || (← a.string) = wireguard }
  else return d

/-- Takes one attribute of an interface in. -/
def LinkDraft.step (d : LinkDraft) (a : Attribute) : Except Error LinkDraft := do
  if a.kind = Link.name then return { d with name := some (← a.string) }
  else if a.kind = Link.info then a.children.foldM infoStep d
  else return d

/-- The name that a message about an interface gives, if the interface is a WireGuard one. -/
def wireguardName? (payload : Bytes) : Except Error (Option String) :=
  if payload.length < Link.infoLength then
    .error (.decode s!"ifinfomsg truncated: {payload.length} bytes")
  else do
    let d ← (Attributes.ofBytes (payload.drop Link.infoLength)).foldM LinkDraft.step {}
    return d.name.filter fun _ => d.isWireguard

end WireGuardControl.Netlink

import WireGuardControl.Error
/-!
Which backends are asked, and where sockets are looked up.

* `BackendKind`: the backends by their names; `BackendKind.ofName` reads a name in either case.
* `Options`: the backends in the order in which they are asked and the directories of sockets.
  Without further choice these are the backends of Linux and the usual directory.
-/

namespace WireGuardControl

/-- A backend that can be asked for. -/
inductive BackendKind where
  /-- The module of the Linux kernel. -/
  | netlink
  /-- The driver of the OpenBSD kernel. -/
  | openBsd
  /-- Programs outside the kernel. -/
  | userspace
  deriving DecidableEq, Repr

namespace BackendKind

/-- All backends. -/
def all : List BackendKind := [.netlink, .openBsd, .userspace]

/-- The name of a backend. -/
def name : BackendKind → String
  | .netlink => "netlink"
  | .openBsd => "openbsd"
  | .userspace => "userspace"

/-- The backend with a name in letters of either case. -/
def ofName (s : List Char) : Except Error BackendKind :=
  match all.find? fun k => k.name.toList = s.map Char.toLower with
  | some k => .ok k
  | none => .error (.invalidArgument ("unknown backend: " ++ String.ofList s))

end BackendKind

/-- The choices with which devices are reached. -/
structure Options where
  /-- The backends in the order in which they are asked. -/
  backends : List BackendKind := [.netlink, .userspace]
  /-- The directories in which sockets are looked up, in order. -/
  socketDirectories : List String := ["/var/run/wireguard"]
  deriving DecidableEq, Repr

namespace Options

/-- Asks these backends instead. -/
def withBackends (o : Options) (kinds : List BackendKind) : Options := { o with backends := kinds }

/-- Looks sockets up in these directories instead. -/
def withSocketDirectories (o : Options) (paths : List String) : Options :=
  { o with socketDirectories := paths }

end Options

end WireGuardControl

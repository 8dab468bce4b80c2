import WireGuardControl.Chain
import WireGuardControl.Options
import WireGuardControl.Uapi.Client
/-!
Opening the backends that are asked for.

* `Platform m`: what a system offers: netlink where its kernel knows WireGuard, directories
  with sockets, and a clock.
* `Platform.openChain`: the chain of the backends of some options, in their order. Netlink is
  left out where the kernel does not know WireGuard, and the backend of another system is there
  in name only.
-/

namespace WireGuardControl

open Text

/-- What a system offers. -/
structure Platform (m : Type → Type) where
  /-- Opens netlink, if the kernel knows WireGuard. -/
  netlink : m (Except Error (Option (Backend m)))
  /-- The directories and sockets. -/
  host : Uapi.Host m
  /-- The seconds from the epoch to the present. -/
  now : m Nat

namespace Platform

variable {m : Type → Type} [Monad m]

/-- Opens a backend, if the system has it. -/
def openBackend (p : Platform m) (o : Options) :
    BackendKind → m (Except Error (Option (Backend m)))
  | .netlink => p.netlink
  | .openBsd =>
      return .ok (some (.unavailable BackendKind.openBsd.name "wg(4) ioctls require OpenBSD"))
  | .userspace =>
      let client : Uapi.Client m := ⟨p.host, o.socketDirectories.map Utf8.ofString⟩
      return .ok (some client.backend)

/-- Opens backends in order, up to the first that cannot be opened. -/
def openAll (p : Platform m) (o : Options) :
    List BackendKind → m (Except Error (List (Backend m)))
  | [] => pure (.ok [])
  | kind :: rest => do
      match ← p.openBackend o kind with
      | .ok backend => return (← p.openAll o rest).map (backend.toList ++ ·)
      | .error e => return .error e

/-- Opens the chain of the backends that options ask for. -/
def openChain (p : Platform m) (o : Options) : m (Except Error (Chain m)) :=
  return (← p.openAll o o.backends).map Chain.mk

end Platform

end WireGuardControl

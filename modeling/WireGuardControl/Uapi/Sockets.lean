import WireGuardControl.Error
import WireGuardControl.Text.Utf8
/-!
The sockets of WireGuard programs in the file system.

* `Host m`: listing directories and talking to sockets.
* `fileStem?`: the last name of a path without its extension; `deviceName?` is the device to
  which a socket belongs.
* `findSockets`: the sockets in a list of directories, sorted by name in each of them. A
  directory that does not exist has none.

The error numbers are those of Linux, on which the program is assumed to run.
-/

namespace WireGuardControl.Uapi

open Text

/-! ### Paths -/

/-- The octet that divides the names of a path. -/
def slash : UInt8 := 47

/-- The octet in front of an extension. -/
def dot : UInt8 := 46

/-- The parts of a path between its slashes. -/
def pathParts : Bytes → List Bytes
  | [] => [[]]
  | b :: rest =>
      if b = slash then [] :: pathParts rest
      else match pathParts rest with
        | [] => [[b]]
        | part :: parts => (b :: part) :: parts

/-- The names of a path, without the empty ones and those that mean the directory itself. -/
def pathNames (path : Bytes) : List Bytes :=
  (pathParts path).filter fun name => name ≠ [] ∧ name ≠ [dot]

/-- The last name of a path, if it is one of a file and does not lead to the parent. -/
def fileName? (path : Bytes) : Option Bytes :=
  (pathNames path).getLast?.filter fun name => name ≠ [dot, dot]

/-- A name without its last dot and what follows it, unless the dot stands in front. -/
def stem (name : Bytes) : Bytes :=
  match name.reverse.dropWhile (· ≠ dot) with
  | [] | [_] => name
  | _ :: rest => rest.reverse

/-- The last name of a path without its extension. -/
def fileStem? (path : Bytes) : Option Bytes := (fileName? path).map stem

/-- The device to which the socket at a path belongs, if its name is a text. -/
def deviceName? (path : Bytes) : Option String :=
  (fileStem? path).bind fun b => (Utf8.toString? b).toOption

/-- The path of a name inside a directory. -/
def childPath (directory name : Bytes) : Bytes :=
  if directory = [] ∨ directory.getLast? = some slash then directory ++ name
  else directory ++ slash :: name

/-! ### Directories -/

/-- An entry of a directory. -/
structure Entry where
  /-- The name of the entry. -/
  name : Bytes
  /-- Whether the entry itself is a socket. -/
  isSocket : Bool
  deriving DecidableEq

/-- Why a socket gives no response. -/
inductive ExchangeFault where
  /-- There is no connection. -/
  | connect (fault : SystemFault)
  /-- The connection breaks. -/
  | transfer (fault : SystemFault)
  deriving DecidableEq

/-- The part of the system that has directories and sockets. -/
structure Host (m : Type → Type) where
  /-- The entries of a directory, in any order. -/
  entries : Bytes → m (Except SystemFault (List Entry))
  /-- Sends a request to a socket, and collects everything that comes back. -/
  exchange : Bytes → Bytes → m (Except ExchangeFault Bytes)

/-- The error number of a file that does not exist. -/
def codeNoEntry : Int32 := 2

/-- The error number of a connection that nobody accepts, which other systems number otherwise. -/
def codeRefused : Int32 := 111

/-- The paths of the sockets among the entries of a directory, sorted by name. -/
def socketPaths (directory : Bytes) (entries : List Entry) : List Bytes :=
  let names := (entries.filter (·.isSocket)).map (·.name)
  (names.mergeSort fun a b => decide (a ≤ b)).map (childPath directory)

variable {m : Type → Type} [Monad m]

/-- The paths of the sockets in directories. -/
def findSockets (host : Host m) : List Bytes → m (Except Error (List Bytes))
  | [] => pure (.ok [])
  | directory :: rest => do
      match ← host.entries directory with
      | .ok entries =>
          return (← findSockets host rest).map (socketPaths directory entries ++ ·)
      | .error fault =>
          if fault = .code codeNoEntry then findSockets host rest
          else return .error (.io fault)

end WireGuardControl.Uapi

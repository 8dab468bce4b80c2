import WireGuardControl.Uapi.Client
/-!
A system whose directories and sockets are prepared.

* `Directory`: missing, no directory at all, or a list of entries, each with the `Resident`
  behind it.
* `Rehearsal`: the directories, whose sockets lose a reply with each request, and the requests
  that were made, the latest first.
* `Rehearsal.host`: the system of a rehearsal.
-/

namespace WireGuardControl.Uapi

/-- What is behind an entry of a directory. -/
inductive Resident where
  /-- A program that gives its replies one after the other, and nothing when they are used
  up. -/
  | program (replies : List Bytes)
  /-- A socket that nobody listens on. -/
  | nobody
  /-- Something that is no socket. -/
  | other
  deriving DecidableEq

/-- What is at the path of a directory. -/
inductive Directory where
  /-- Nothing. -/
  | missing
  /-- Something that is no directory. -/
  | file
  /-- A directory with names and what is behind them. -/
  | holds (entries : List (Bytes × Resident))
  deriving DecidableEq

/-- The error number of a path that is no directory. -/
def codeNotDirectory : Int32 := 20

/-- The entry of a name and of what is behind it. -/
def Resident.entry (name : Bytes) : Resident → Entry
  | .other => ⟨name, false⟩
  | _ => ⟨name, true⟩

/-- The entries of a directory. -/
def Directory.entries : Directory → Except SystemFault (List Entry)
  | .missing => .error (.code codeNoEntry)
  | .file => .error (.code codeNotDirectory)
  | .holds entries => .ok (entries.map fun e => e.2.entry e.1)

/-- What is there and what has been. -/
structure Rehearsal where
  /-- The directories by their paths. -/
  directories : List (Bytes × Directory) := []
  /-- The paths of sockets and the requests that programs got there, the latest first. -/
  log : List (Bytes × Bytes) := []

namespace Rehearsal

/-- The requests in order. -/
def requests (r : Rehearsal) : List (Bytes × Bytes) := r.log.reverse

/-- The directory at a path. -/
def directory (r : Rehearsal) (path : Bytes) : Directory :=
  (r.directories.lookup path).getD .missing

/-- What is behind the name at a path. -/
def resident? (r : Rehearsal) (path : Bytes) : Option Resident :=
  r.directories.findSome? fun d =>
    match d.2 with
    | .holds entries =>
        (entries.find? fun e => childPath d.1 e.1 = path).map fun e => e.2
    | _ => none

/-- The same rehearsal with something else behind the name at a path. -/
def withResident (r : Rehearsal) (path : Bytes) (resident : Resident) : Rehearsal :=
  { r with directories := r.directories.map fun d =>
      match d.2 with
      | .holds entries =>
          (d.1, .holds (entries.map fun e =>
            if childPath d.1 e.1 = path then (e.1, resident) else e))
      | _ => d }

/-- The response to a request, and the rehearsal after it. -/
def exchange (r : Rehearsal) (path request : Bytes) :
    Except ExchangeFault Bytes × Rehearsal :=
  match r.resident? path with
  | some (.program replies) =>
      let r := r.withResident path (.program replies.tail)
      (.ok (replies.head?.getD []), { r with log := (path, request) :: r.log })
  | some _ => (.error (.connect (.code codeRefused)), r)
  | none => (.error (.connect (.code codeNoEntry)), r)

/-- The system of a rehearsal. -/
def host : Host (StateM Rehearsal) where
  entries := fun path r => ((r.directory path).entries, r)
  exchange := fun path request r => r.exchange path request

end Rehearsal

end WireGuardControl.Uapi

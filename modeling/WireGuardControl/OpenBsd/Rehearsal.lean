import WireGuardControl.OpenBsd.Client
/-!
A kernel that answers from prepared replies.

* `Reply`: a failure, or data together with the size that is told for it.
* `Rehearsal`: the replies that are still to come and the calls that were made, the latest
  first. Questions fail once their replies are used up; updates and the close succeed.
* `Rehearsal.kernel`: the kernel of a rehearsal.
-/

namespace WireGuardControl.OpenBsd

/-- A reply to a call: a failure, or some data and the size that is told for it. -/
inductive Reply where
  /-- The call fails with an error number. -/
  | fails (code : Int32)
  /-- The call writes what fits of the data. -/
  | data (octets : Bytes) (size : Nat)
  deriving DecidableEq

/-- A call to the kernel. -/
inductive Call where
  /-- The members of a group are asked for, with a buffer of `length` octets. -/
  | group (name : Block nameLength) (length : Nat)
  /-- A device is asked for, with a buffer of `length` octets. -/
  | read (name : Block nameLength) (length : Nat)
  /-- A device is updated. -/
  | update (name : Block nameLength) (records : Bytes)
  /-- The end of the calls. -/
  | close
  deriving DecidableEq

/-- The error number of a question without a reply. -/
def codeNoReply : Int32 := 5

/-- The outcome of a question with a buffer. -/
def Reply.answer (buffer : Bytes) : Option Reply → Except SystemFault (Nat × Bytes)
  | none => .error (.code codeNoReply)
  | some (.fails code) => .error (.code code)
  | some (.data octets size) =>
      .ok (size, octets.take buffer.length ++ buffer.drop octets.length)

/-- The outcome of a call that gives no data. -/
def Reply.outcome : Option Reply → Except SystemFault Unit
  | some (.fails code) => .error (.code code)
  | _ => .ok ()

/-- What is to come and what has been. -/
structure Rehearsal where
  /-- The replies to questions for the members of a group. -/
  group : List Reply := []
  /-- The replies to questions for a device. -/
  read : List Reply := []
  /-- The replies to updates. -/
  update : List Reply := []
  /-- The replies to the close. -/
  close : List Reply := []
  /-- The calls so far, the latest first. -/
  log : List Call := []

namespace Rehearsal

/-- The calls in order. -/
def calls (r : Rehearsal) : List Call := r.log.reverse

/-- The kernel of a rehearsal. -/
def kernel : Kernel (StateM Rehearsal) where
  groupMembers := fun name buffer r =>
    (Reply.answer buffer r.group.head?,
      { r with group := r.group.tail, log := .group name buffer.length :: r.log })
  getDevice := fun name buffer r =>
    (Reply.answer buffer r.read.head?,
      { r with read := r.read.tail, log := .read name buffer.length :: r.log })
  setDevice := fun name records r =>
    (Reply.outcome r.update.head?,
      { r with update := r.update.tail, log := .update name records :: r.log })
  close := fun r =>
    (Reply.outcome r.close.head?, { r with close := r.close.tail, log := .close :: r.log })

end Rehearsal

end WireGuardControl.OpenBsd

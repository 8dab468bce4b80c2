import WireGuardControl.Netlink.Client
/-!
Channels that answer from prepared replies.

* `Rehearsal`: the replies that are still to come, by channel, and the calls that were made,
  the latest first.
* `Rehearsal.channel`: a channel that takes the next reply for each request, answers with no
  message once its replies are used up, and fails or succeeds to close as it is told.
* `Rehearsal.calls`: the calls in the order in which they were made.
-/

namespace WireGuardControl.Netlink

/-- The two channels of a client. -/
inductive Side where
  /-- The channel of generic netlink. -/
  | generic
  /-- The channel for interfaces. -/
  | links
  deriving DecidableEq, Repr

/-- A call to a channel. -/
inductive Call where
  /-- A request with its kind, its flags and its payload. -/
  | request (side : Side) (kind flags : UInt16) (payload : Bytes)
  /-- The end of a channel. -/
  | close (side : Side)
  deriving DecidableEq

/-- A reply to a request: the messages of the answer, or a failure. -/
abbrev Reply := Except Error (List Message)

/-- What is to come and what has been. -/
structure Rehearsal where
  /-- The replies of the channel of generic netlink. -/
  generic : List Reply := []
  /-- The replies of the channel for interfaces. -/
  links : List Reply := []
  /-- The calls so far, the latest first. -/
  log : List Call := []

namespace Rehearsal

/-- The calls in order. -/
def calls (r : Rehearsal) : List Call := r.log.reverse

/-- The replies of a channel that are still to come. -/
def replies (r : Rehearsal) : Side → List Reply
  | .generic => r.generic
  | .links => r.links

/-- The same rehearsal with other replies of a channel. -/
def withReplies (r : Rehearsal) (side : Side) (replies : List Reply) : Rehearsal :=
  match side with
  | .generic => { r with generic := replies }
  | .links => { r with links := replies }

/-- The reply to a request, and the rehearsal after it. -/
def answer (r : Rehearsal) (side : Side) (kind flags : UInt16) (payload : Bytes) :
    Reply × Rehearsal :=
  let r := { r with log := .request side kind flags payload :: r.log }
  match r.replies side with
  | [] => (.ok [], r)
  | reply :: rest => (reply, r.withReplies side rest)

/-- A channel whose close has the outcome `closing`. -/
def channel (side : Side) (closing : Except Error Unit) : Channel (StateM Rehearsal) where
  execute := fun kind flags payload r => r.answer side kind flags payload
  close := fun r => (closing, { r with log := .close side :: r.log })

end Rehearsal

end WireGuardControl.Netlink

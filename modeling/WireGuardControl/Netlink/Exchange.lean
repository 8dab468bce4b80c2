import WireGuardControl.Netlink.Message
/-!
Collecting the answer to a request from the datagrams that arrive.

* `Exchange`: the number of the request, whether it asked for an acknowledgement, and the
  messages collected so far.
* `Exchange.feed`: takes one datagram in, and says whether the answer is complete. Messages
  of other requests are passed over, an error message or the end of a dump completes the
  answer, and so does a single message of an answer that is not acknowledged.
* `Exchange.feedAll`: takes datagrams in until the answer is complete.
-/

namespace WireGuardControl.Netlink

/-- The answer to a request as far as it has arrived. -/
structure Exchange where
  /-- The number of the request. -/
  sequence : UInt32
  /-- Whether the request asked for an acknowledgement. -/
  acknowledged : Bool
  /-- The messages that have arrived. -/
  messages : List Message := []
  deriving DecidableEq

namespace Exchange

/-- The exchange of a request with a number and flags. -/
def start (sequence : UInt32) (flags : UInt16) : Exchange where
  sequence := sequence
  acknowledged := flags &&& flagAck != 0

/-- The magnitude of a code, at most the greatest number of its width. -/
def magnitude (code : Int32) : Int32 :=
  if code = Int32.minValue then Int32.maxValue else if code < 0 then -code else code

/-- The error that a code reports. -/
def failure (code : Int32) : Error := .io (.code (magnitude code))

/-- Takes messages in; `complete` tells whether a message before them has completed the
answer. Nothing behind a message that ends the answer counts. -/
def absorb (x : Exchange) (complete : Bool) : List Message → Except Error Bool × Exchange
  | [] => (.ok complete, x)
  | m :: rest =>
      if m.sequence ≠ x.sequence then absorb x complete rest
      else match m.role with
        | .noop => absorb x complete rest
        | .error => (if m.errorCode = 0 then .ok true else .error (failure m.errorCode), x)
        | .done => (if m.errorCode < 0 then .error (failure m.errorCode) else .ok true, x)
        | .data =>
            absorb { x with messages := x.messages ++ [m] }
              (complete || (!m.isMulti && !x.acknowledged)) rest

/-- Takes a datagram in, and says whether the answer is complete. A datagram that is no row
of messages changes nothing. -/
def feed (x : Exchange) (datagram : Bytes) : Except Error Bool × Exchange :=
  match Message.decodeAll datagram with
  | .error e => (.error e, x)
  | .ok messages => x.absorb false messages

/-- Takes datagrams in, one after the other, until the answer is complete or has failed. -/
def feedAll (x : Exchange) : List Bytes → Except Error Bool × Exchange
  | [] => (.ok false, x)
  | datagram :: rest =>
      match x.feed datagram with
      | (.ok false, y) => feedAll y rest
      | ended => ended

end Exchange

end WireGuardControl.Netlink

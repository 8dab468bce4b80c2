import WireGuardControl.Error
import WireGuardControl.Text.Decimal
/-!
Spans and points of time.

* `Interval`: whole seconds and a part below one second.
* `Instant`: a point of time counted from the epoch; `Instant.sinceEpoch?` is the
  interval behind the epoch, for an instant that is not before it.
* `Instant.ofHandshake`: the handshake time that two counters report, zero and zero being
  no handshake at all.
-/

namespace WireGuardControl

open Text

/-- The nanoseconds of one second. -/
abbrev nanosPerSecond : Nat := 1000000000

/-- A span of time. -/
structure Interval where
  /-- The whole seconds. -/
  seconds : UInt64
  /-- The nanoseconds beyond them. -/
  nanoseconds : Fin nanosPerSecond
  deriving DecidableEq

namespace Interval

/-- The interval of whole seconds. -/
def ofSeconds (seconds : UInt64) : Interval := ⟨seconds, 0⟩

/-- The interval of no length. -/
def zero : Interval := ofSeconds 0

/-- The interval cut to whole seconds. -/
def wholeSeconds (i : Interval) : Interval := ofSeconds i.seconds

end Interval

/-- A point of time. -/
structure Instant where
  /-- The whole seconds since the epoch, negative before it. -/
  seconds : Int64
  /-- The nanoseconds beyond them. -/
  nanoseconds : Fin nanosPerSecond
  deriving DecidableEq

namespace Instant

/-- The greatest number of seconds of an instant. -/
def maxSeconds : Nat := 9223372036854775807

/-- The instant `seconds` and `nanoseconds` after the epoch, if the seconds have room. -/
def ofEpoch? (seconds : UInt64) (nanoseconds : Fin nanosPerSecond) : Option Instant :=
  if seconds.toNat ≤ maxSeconds then some ⟨seconds.toInt64, nanoseconds⟩ else none

/-- The interval from the epoch to an instant that is not before it. -/
def sinceEpoch? (t : Instant) : Option Interval :=
  if 0 ≤ t.seconds then some ⟨t.seconds.toUInt64, t.nanoseconds⟩ else none

/-- The time of a handshake that two counters report, `none` if there was none. -/
def ofHandshake (seconds nanoseconds : UInt64) : Except Error (Option Instant) :=
  if seconds = 0 ∧ nanoseconds = 0 then .ok none
  else if h : nanoseconds.toNat < nanosPerSecond then
    match ofEpoch? seconds ⟨nanoseconds.toNat, h⟩ with
    | some t => .ok (some t)
    | none =>
        .error (.decode ("handshake time out of range: " ++ Decimal.text seconds.toNat ++ "." ++
          Decimal.filled 9 nanoseconds.toNat))
  else .error (.decode ("handshake nanoseconds out of range: " ++ Decimal.text nanoseconds.toNat))

/-- The handshake time of two signed counters, neither of which may be negative; `negative` is
the fault of a pair that is. -/
def ofSignedHandshake (negative : Error) (seconds nanoseconds : Int64) :
    Except Error (Option Instant) :=
  if seconds < 0 ∨ nanoseconds < 0 then .error negative
  else ofHandshake seconds.toUInt64 nanoseconds.toUInt64

end Instant

end WireGuardControl

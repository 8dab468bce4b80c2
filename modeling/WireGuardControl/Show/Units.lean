import WireGuardControl.Rounding
import WireGuardControl.Text.Decimal
/-!
Spans of time and amounts of data in words.

* `durationParts`: a number of seconds as counts of units, the largest unit first and those
  that are not needed left out; `duration` is their text and `ago` the age of an event.
* `amount`: a number of octets in the largest binary unit of which it has one, with two
  decimals.
-/

namespace WireGuardControl.Show

open Text

/-! ### Time -/

/-- A unit of time. -/
inductive TimeUnit where
  /-- 365 days. -/
  | year
  /-- 24 hours. -/
  | day
  /-- 60 minutes. -/
  | hour
  /-- 60 seconds. -/
  | minute
  /-- One second. -/
  | second
  deriving DecidableEq, Repr

namespace TimeUnit

/-- The units, the largest first. -/
def all : List TimeUnit := [.year, .day, .hour, .minute, .second]

/-- The seconds of a unit. -/
def seconds : TimeUnit → Nat
  | .year => 31536000
  | .day => 86400
  | .hour => 3600
  | .minute => 60
  | .second => 1

/-- The name of a unit. -/
def name : TimeUnit → String
  | .year => "year"
  | .day => "day"
  | .hour => "hour"
  | .minute => "minute"
  | .second => "second"

end TimeUnit

/-- How often each unit goes into what the units before it leave of `n` seconds. -/
def countUnits : List TimeUnit → Nat → List (Nat × TimeUnit)
  | [], _ => []
  | u :: rest, n => (n / u.seconds, u) :: countUnits rest (n % u.seconds)

/-- The units that `n` seconds are made of. -/
def durationParts (n : Nat) : List (Nat × TimeUnit) :=
  (countUnits TimeUnit.all n).filter fun p => p.1 ≠ 0

/-- The text of a count of units. -/
def partText (p : Nat × TimeUnit) : String :=
  Decimal.text p.1 ++ " " ++ p.2.name ++ if p.1 = 1 then "" else "s"

/-- The text of `n` seconds. -/
def duration (n : Nat) : String := ", ".intercalate ((durationParts n).map partText)

/-- The text for something that happened `n` seconds ago. -/
def ago (n : Nat) : String := if n = 0 then "Now" else duration n ++ " ago"

/-! ### Data -/

/-- The units of data with their octets, the smallest first. -/
def binaryUnits : List (Nat × String) :=
  [(1024, "KiB"), (1048576, "MiB"), (1073741824, "GiB"), (1099511627776, "TiB")]

/-- The text of `n` octets. From one unit on, the number is first rounded to the bits that
floating point has for it, and then to two decimals. -/
def amount (n : Nat) : String :=
  if n < 1024 then Decimal.text n ++ " B"
  else
    let x := Rounding.significant n
    let u := (binaryUnits.find? fun u => x < 1024 * u.1).getD (1099511627776, "TiB")
    let hundredths := Rounding.quotient (100 * x) u.1
    Decimal.text (hundredths / 100) ++ "." ++ Decimal.filled 2 (hundredths % 100) ++ " " ++ u.2

end WireGuardControl.Show

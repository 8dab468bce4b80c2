/-!
Rounding to the nearest number, a number halfway going to its even neighbour.

* `Rounding.quotient`: a quotient as a whole number.
* `Rounding.significant`: a number with fifty-three significant bits, as binary floating point
  of sixty-four bits holds it.
-/

namespace WireGuardControl.Rounding

/-- The whole number nearest to `n / d`. -/
def quotient (n d : Nat) : Nat :=
  let q := n / d
  let twice := 2 * (n % d)
  if d < twice ∨ (twice = d ∧ q % 2 = 1) then q + 1 else q

/-- The number with fifty-three significant bits nearest to `n`. -/
def significant (n : Nat) : Nat :=
  let unit := Nat.pow 2 (n.log2 - 52)
  quotient n unit * unit

end WireGuardControl.Rounding

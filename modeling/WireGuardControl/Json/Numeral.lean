import WireGuardControl.Json.Scan
import WireGuardControl.Rounding
/-!
Numbers as they are written in JSON.

* `Numeral`: the parts of a written number; `Numeral.scan` finds them, `short` being the fault
  of a number that the end of the text cuts off.
* `Numeral.natural?`: the number, if it is a natural one of sixty-four bits and written as such.
* `Numeral.isFinite`: whether floating point of sixty-four bits has room for the number. Only
  the leading digits that fit in sixty-four bits count; each further one in front of the point
  is worth a factor of ten.

That the package which reads JSON for the program reads and limits numbers like this is assumed.
-/

namespace WireGuardControl.Json

open Text

/-- The parts of a written number. -/
structure Numeral where
  /-- Whether a minus stands in front. -/
  negative : Bool
  /-- The digits in front of the point. -/
  whole : List Nat
  /-- The digits behind the point, if there is one. -/
  fraction : Option (List Nat)
  /-- The exponent, if there is one. -/
  exponent : Option Int
  deriving DecidableEq

namespace Numeral

/-! ### Reading -/

/-- Whether a character is a decimal digit. -/
def isDigit (c : Char) : Bool := (Decimal.value? c).isSome

/-- The digits in front of a text, and what stands behind them. -/
def spanDigits (s : List Char) : List Nat × List Char :=
  ((s.takeWhile isDigit).filterMap Decimal.value?, s.dropWhile isDigit)

/-- Reads one digit or more. -/
def scanDigits (short : Fault) (s : List Char) : Except Fault (List Nat × List Char) :=
  match s with
  | [] => .error short
  | c :: _ => if isDigit c then .ok (spanDigits s) else .error .malformed

/-- Reads the digits in front of the point; a zero stands there alone. -/
def scanWhole (short : Fault) (s : List Char) : Except Fault (List Nat × List Char) :=
  match s with
  | '0' :: c :: rest => if isDigit c then .error .malformed else .ok ([0], c :: rest)
  | s => scanDigits short s

/-- Reads a point and the digits behind it, if there is a point. -/
def scanFraction (short : Fault) : List Char → Except Fault (Option (List Nat) × List Char)
  | '.' :: s => (scanDigits short s).map fun t => (some t.1, t.2)
  | s => .ok (none, s)

/-- The number that digits spell. -/
def ofDigits (digits : List Nat) : Nat := digits.foldl (fun n d => 10 * n + d) 0

/-- Reads an exponent behind its letter. -/
def scanPower (short : Fault) : List Char → Except Fault (Option Int × List Char)
  | '+' :: s => (scanDigits short s).map fun t => (some (ofDigits t.1), t.2)
  | '-' :: s => (scanDigits short s).map fun t => (some (-(ofDigits t.1)), t.2)
  | s => (scanDigits short s).map fun t => (some (ofDigits t.1), t.2)

/-- Reads an exponent, if there is one. -/
def scanExponent (short : Fault) : List Char → Except Fault (Option Int × List Char)
  | 'e' :: s => scanPower short s
  | 'E' :: s => scanPower short s
  | s => .ok (none, s)

/-- Reads a number without its sign. -/
def scanUnsigned (short : Fault) (negative : Bool) (s : List Char) :
    Except Fault (Numeral × List Char) := do
  let (whole, s) ← scanWhole short s
  let (fraction, s) ← scanFraction short s
  let (exponent, s) ← scanExponent short s
  return (⟨negative, whole, fraction, exponent⟩, s)

/-- Reads a number. -/
def scan (short : Fault) : List Char → Except Fault (Numeral × List Char)
  | '-' :: s => scanUnsigned short true s
  | s => scanUnsigned short false s

/-! ### The number -/

/-- Puts digits behind a number as long as sixty-four bits have room, and gives those that are
left over. -/
def gather (n : Nat) : List Nat → Nat × List Nat
  | [] => (n, [])
  | d :: rest => if 10 * n + d < UInt64.size then gather (10 * n + d) rest else (n, d :: rest)

/-- The number, if it is a natural one of sixty-four bits and written as such. -/
def natural? (x : Numeral) : Option Nat :=
  if x.negative ∨ x.fraction.isSome ∨ x.exponent.isSome then none
  else match gather 0 x.whole with
    | (n, []) => some n
    | _ => none

/-- Whether floating point of sixty-four bits has room for `n` times ten to the power `e`. -/
def hasRoom (n : Nat) (e : Int) : Bool :=
  if n = 0 ∨ e < 0 then true
  else if 308 < e then false
  else
    Rounding.significant n * Rounding.significant (Nat.pow 10 e.toNat) <
      Nat.pow 2 1024 - Nat.pow 2 970

/-- Whether floating point of sixty-four bits has room for the number. -/
def isFinite (x : Numeral) : Bool :=
  let (n, surplus) := gather 0 x.whole
  let digits := x.fraction.getD []
  let (n, unused) := gather n digits
  hasRoom n (surplus.length - (digits.length - unused.length) + x.exponent.getD 0)

/-! ### Progress -/

theorem length_spanDigits_lt {c : Char} {s : List Char} (h : isDigit c = true) :
    (spanDigits (c :: s)).2.length < (c :: s).length := by
  rw [spanDigits, List.dropWhile_cons_of_pos h, List.length_cons]
  exact Nat.lt_succ_of_le (List.dropWhile_sublist _).length_le

theorem length_scanDigits_lt {short : Fault} {s rest : List Char} {digits : List Nat}
    (h : scanDigits short s = .ok (digits, rest)) : rest.length < s.length := by
  unfold scanDigits at h
  split at h
  · cases h
  · split at h
    · rename_i c r hc
      have := length_spanDigits_lt (s := r) hc
      rw [Except.ok.inj h] at this
      exact this
    · cases h

theorem length_scanWhole_lt {short : Fault} {s rest : List Char} {digits : List Nat}
    (h : scanWhole short s = .ok (digits, rest)) : rest.length < s.length := by
  unfold scanWhole at h
  split at h
  · split at h
    · cases h
    · cases h; exact Nat.lt_succ_self _
  · exact length_scanDigits_lt h

theorem length_scanFraction_le {short : Fault} {s rest : List Char} {x : Option (List Nat)}
    (h : scanFraction short s = .ok (x, rest)) : rest.length ≤ s.length := by
  unfold scanFraction at h
  split at h
  · obtain ⟨⟨t, r⟩, ht, h⟩ := map_eq_ok h
    cases h
    exact Nat.le_succ_of_le (Nat.le_of_lt (length_scanDigits_lt ht))
  · cases h; exact Nat.le_refl _

theorem length_scanPower_le {short : Fault} {s rest : List Char} {x : Option Int}
    (h : scanPower short s = .ok (x, rest)) : rest.length ≤ s.length := by
  unfold scanPower at h
  split at h
  all_goals
    obtain ⟨⟨t, r⟩, ht, h⟩ := map_eq_ok h
    cases h
    have := length_scanDigits_lt ht
    simp only [List.length_cons] at *
    omega

theorem length_scanExponent_le {short : Fault} {s rest : List Char} {x : Option Int}
    (h : scanExponent short s = .ok (x, rest)) : rest.length ≤ s.length := by
  unfold scanExponent at h
  split at h
  · exact Nat.le_succ_of_le (length_scanPower_le h)
  · exact Nat.le_succ_of_le (length_scanPower_le h)
  · cases h; exact Nat.le_refl _

theorem length_scanUnsigned_lt {short : Fault} {negative : Bool} {s rest : List Char}
    {x : Numeral} (h : scanUnsigned short negative s = .ok (x, rest)) :
    rest.length < s.length := by
  obtain ⟨⟨_, s₁⟩, h₁, h⟩ := bind_eq_ok h
  obtain ⟨⟨_, s₂⟩, h₂, h⟩ := bind_eq_ok h
  obtain ⟨⟨_, s₃⟩, h₃, h⟩ := bind_eq_ok h
  have := length_scanWhole_lt h₁
  have := length_scanFraction_le h₂
  have := length_scanExponent_le h₃
  cases h
  omega

theorem length_scan_lt {short : Fault} {s rest : List Char} {x : Numeral}
    (h : scan short s = .ok (x, rest)) : rest.length < s.length := by
  unfold scan at h
  split at h
  · exact Nat.lt_succ_of_lt (length_scanUnsigned_lt h)
  · exact length_scanUnsigned_lt h

end Numeral

end WireGuardControl.Json

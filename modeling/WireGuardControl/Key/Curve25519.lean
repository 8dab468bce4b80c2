import WireGuardControl.Bytes
/-!
Multiplication of points on Curve25519, by their first coordinates.

* `Curve25519.prime`, `Curve25519.inverse`: the field, its inversion being a power by the
  little theorem of Fermat.
* `Curve25519.ladder`: the Montgomery ladder over the bits of a scalar.
* `Curve25519.clamp`: the octets of a scalar with its three low bits and its top bit
  cleared and the bit below the top one set.
* `Curve25519.publicKey`: the multiple of the base point by a clamped scalar.

The program takes public keys from a package that is no part of it. That the package computes
the function X25519 of RFC 7748, which is written out here, is assumed.
-/

namespace WireGuardControl.Curve25519

/-! ### The field -/

/-- The prime of the field, `2^255 - 19`. -/
def prime : Nat := Nat.pow 2 255 - 19

/-- The sum of two field elements. -/
def add (x y : Nat) : Nat := (x + y) % prime

/-- The difference of two field elements. -/
def sub (x y : Nat) : Nat := (x + (prime - y % prime)) % prime

/-- The product of two field elements. -/
def mul (x y : Nat) : Nat := x * y % prime

/-- The power of a field element whose exponent has the binary digits `bits`, most
significant first. -/
def power (x : Nat) (bits : List Bool) : Nat :=
  bits.foldl (fun r bit => if bit then mul (mul r r) x else mul r r) 1

/-- The lowest `count` binary digits of `n`, most significant first. -/
def bitsOf : (count : Nat) → (n : Nat) → List Bool
  | 0, _ => []
  | count + 1, n => n.testBit count :: bitsOf count n

/-- The inverse of a field element, and zero for zero: its power with the exponent two below
the prime. -/
def inverse (x : Nat) : Nat := power x (bitsOf 255 (prime - 2))

/-! ### The ladder -/

/-- Two multiples of a point that differ by the point, as quotients of coordinates. -/
structure Rungs where
  /-- The numerator of the lower multiple. -/
  x2 : Nat
  /-- The denominator of the lower multiple. -/
  z2 : Nat
  /-- The numerator of the upper multiple. -/
  x3 : Nat
  /-- The denominator of the upper multiple. -/
  z3 : Nat

/-- The two multiples exchanged. -/
def Rungs.swap (r : Rungs) : Rungs := ⟨r.x3, r.z3, r.x2, r.z2⟩

/-- Doubles the lower multiple and adds the two, which differ by the point with the
coordinate `u`. -/
def Rungs.double (u : Nat) (r : Rungs) : Rungs :=
  let a := add r.x2 r.z2
  let b := sub r.x2 r.z2
  let aa := mul a a
  let bb := mul b b
  let e := sub aa bb
  let da := mul (sub r.x3 r.z3) a
  let cb := mul (add r.x3 r.z3) b
  let sum := add da cb
  let difference := sub da cb
  { x2 := mul aa bb
    z2 := mul e (add aa (mul 121665 e))
    x3 := mul sum sum
    z3 := mul u (mul difference difference) }

/-- One step of the ladder for one binary digit of the scalar. -/
def Rungs.step (u : Nat) (r : Rungs) (bit : Bool) : Rungs :=
  if bit then (r.swap.double u).swap else r.double u

/-- The coordinate of the multiple of a point by the scalar with the given binary digits. -/
def ladder (u : Nat) (bits : List Bool) : Nat :=
  let r := bits.foldl (Rungs.step u) ⟨1, 0, u, 1⟩
  mul r.x2 (inverse r.z2)

/-! ### Scalars -/

/-- The least significant octet of a scalar, made a multiple of eight. -/
def clampFirst (b : UInt8) : UInt8 := b &&& 248

/-- The most significant octet of a scalar, with its two top bits set to `01`. -/
def clampLast (b : UInt8) : UInt8 := (b &&& 127) ||| 64

/-- A scalar of thirty-two octets made a valid one. -/
def clamp (b : Bytes) : Bytes := (b.modify 0 clampFirst).modify 31 clampLast

@[simp] theorem length_clamp (b : Bytes) : (clamp b).length = b.length := by simp [clamp]

/-- The coordinate of the base point. -/
def base : Nat := 9

/-- The multiple of the base point by a scalar, which is clamped first. -/
def publicKey (scalar : Bytes) : Bytes :=
  Bytes.ofNatLE 32 (ladder base (bitsOf 255 (Bytes.toNatLE (clamp scalar))))

@[simp] theorem length_publicKey (scalar : Bytes) : (publicKey scalar).length = 32 := by
  simp [publicKey]

end WireGuardControl.Curve25519
